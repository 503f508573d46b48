import ApiSensor.Decoding.Utf8
import ApiSensor.Quic

/-!
# QPACK field sections

The encodings of a list of fields that RFC 9204 allows without dynamic table and without Huffman
coding, and what `decode_qpack_headers` makes of them.
-/

namespace ApiSensor

open Library

/-! ## Encodings -/

/-- Octets after a full prefix: digits of seven bits, the high bit set on all but the last. -/
def encodeDigits (value : Nat) : Bytes :=
  if value < 128 then [UInt8.ofNat value]
  else UInt8.ofNat (value % 128 + 128) :: encodeDigits (value / 128)
termination_by value

/-- A prefix integer (RFC 7541, 5.1) behind the flags of its first octet. -/
def encodePrefixInt (bits flags value : Nat) : Bytes :=
  if value < 2 ^ bits - 1 then [UInt8.ofNat (flags + value)]
  else UInt8.ofNat (flags + (2 ^ bits - 1)) :: encodeDigits (value - (2 ^ bits - 1))

/-- A string literal without Huffman coding. -/
def encodeString (bits flags : Nat) (text : Str) : Bytes :=
  encodePrefixInt bits flags (utf8 text).length ++ utf8 text

inductive QpackKind
  | indexed | nameReference | literalName

/-- The encodings of one field; `never` is the bit N. -/
inductive QpackLine : QpackKind → Str × Str → Bytes → Prop
  | indexed {idx : Nat} {name value : String} (entry : qpackStaticTable[idx]? = some (name, value)) :
      QpackLine .indexed (str name, str value) (encodePrefixInt 6 0xC0 idx)
  | nameReference {idx : Nat} {name other : String}
      (entry : qpackStaticTable[idx]? = some (name, other)) (never : Bool) (value : Str) :
      QpackLine .nameReference (str name, value)
        (encodePrefixInt 4 (if never then 0x70 else 0x50) idx ++ encodeString 7 0 value)
  | literalName (never : Bool) (name value : Str) :
      QpackLine .literalName (name, value)
        (encodeString 3 (if never then 0x30 else 0x20) name ++ encodeString 7 0 value)

/-- The encodings of a list of fields with the representations that are allowed. -/
inductive QpackLines (allowed : QpackKind → Prop) : List (Str × Str) → Bytes → Prop
  | nil : QpackLines allowed [] []
  | cons {kind : QpackKind} {field : Str × Str} {fields : List (Str × Str)} {line rest : Bytes}
      (isAllowed : allowed kind) (encoded : QpackLine kind field line)
      (others : QpackLines allowed fields rest) :
      QpackLines allowed (field :: fields) (line ++ rest)

/-- The map of the fields. -/
def fieldMap (fields : List (Str × Str)) (headers : Headers) : Headers :=
  fields.foldl (fun headers field => headers.insert field.1 field.2) headers

/-- No capital letters. -/
def lowerCase (name : Str) : Bool := name.all fun c => !('A' ≤ c && c ≤ 'Z')

/-! ## Integers and strings -/

theorem decodePrefixIntMore_encodeDigits (value val m count : Nat) (rest : Bytes)
    (place : m % 7 = 0) (fits : value * 2 ^ m < 2 ^ 63) :
    decodePrefixIntMore val m count (encodeDigits value ++ rest) =
      some (val + value * 2 ^ m, count + (encodeDigits value).length) := by
  induction value using Nat.strongRecOn generalizing val m count with
  | ind value induction =>
    rw [encodeDigits]
    split
    case isTrue last =>
      have digit : (UInt8.ofNat value).toNat = value :=
        UInt8.toNat_ofNat_of_lt' (show value < 256 by omega)
      have low : UInt8.ofNat value < 0x80 := by
        rw [UInt8.lt_iff_toNat_lt, digit]
        exact last
      rw [List.singleton_append, decodePrefixIntMore, if_pos low, digit, Nat.mod_eq_of_lt last]
      rfl
    case isFalse more =>
      have digit : (UInt8.ofNat (value % 128 + 128)).toNat = value % 128 + 128 :=
        UInt8.toNat_ofNat_of_lt' (show value % 128 + 128 < 256 by omega)
      have high : ¬ UInt8.ofNat (value % 128 + 128) < 0x80 := by
        rw [UInt8.lt_iff_toNat_lt, digit]
        exact Nat.not_lt.mpr (Nat.le_add_left 128 _)
      have split : value * 2 ^ m = value % 128 * 2 ^ m + value / 128 * 2 ^ (m + 7) := by
        rw [Nat.pow_add, Nat.mul_comm (2 ^ m), ← Nat.mul_assoc, ← Nat.add_mul]
        congr 1
        omega
      have room : m + 7 < 63 := by
        refine (Nat.pow_lt_pow_iff_right (by decide : 1 < 2)).mp (Nat.lt_of_le_of_lt ?_ fits)
        rw [Nat.pow_add, Nat.mul_comm]
        exact Nat.mul_le_mul_right _ (by omega)
      rw [List.cons_append, decodePrefixIntMore, if_neg high, if_neg (by omega), digit,
        induction (value / 128) (by omega) _ (m + 7) _ (by omega) (by omega), split,
        List.length_cons, Nat.add_mod_right, Nat.mod_mod]
      simp only [Option.some.injEq, Prod.mk.injEq]
      omega

theorem decodePrefixInt_encode {bits flags value : Nat} (aligned : flags % 2 ^ bits = 0)
    (fits : flags + 2 ^ bits ≤ 256) (bound : value - (2 ^ bits - 1) < 2 ^ 63) (rest : Bytes) :
    decodePrefixInt (encodePrefixInt bits flags value ++ rest) bits =
      some (value, (encodePrefixInt bits flags value).length) := by
  have positive : 0 < 2 ^ bits := Nat.two_pow_pos bits
  have read : ∀ low < 2 ^ bits, (UInt8.ofNat (flags + low)).toNat % 2 ^ bits = low := by
    intro low small
    have byte : (UInt8.ofNat (flags + low)).toNat = flags + low :=
      UInt8.toNat_ofNat_of_lt' (show flags + low < 256 by omega)
    rw [byte, Nat.add_mod, aligned, Nat.zero_add, Nat.mod_mod, Nat.mod_eq_of_lt small]
  unfold encodePrefixInt
  split
  case isTrue last =>
    rw [List.singleton_append, decodePrefixInt]
    simp only [read value (by omega), if_pos last, List.length_singleton]
  case isFalse more =>
    rw [List.cons_append, decodePrefixInt]
    simp only [read _ (Nat.sub_lt positive Nat.one_pos), if_neg (Nat.lt_irrefl _)]
    rw [decodePrefixIntMore_encodeDigits _ _ 0 _ _ rfl (by omega), List.length_cons]
    simp only [Option.some.injEq, Prod.mk.injEq]
    omega

theorem decodeString_encode {bits flags : Nat} (aligned : flags % 2 ^ bits = 0)
    (fits : flags + 2 ^ bits ≤ 256) {text : Str} (bound : (utf8 text).length < 2 ^ 63)
    (rest : Bytes) : decodeString (encodeString bits flags text ++ rest) bits =
      some (text, (encodeString bits flags text).length) := by
  rw [decodeString, encodeString, List.append_assoc, decodePrefixInt_encode aligned fits (by omega)]
  simp only [List.length_append, List.drop_left, List.take_left, fromUtf8Lossy_utf8]
  rw [if_neg (by omega)]

/-- The first octet of an integer holds the flags. -/
theorem encodePrefixInt_eq_cons (bits flags value : Nat) : ∃ low < 2 ^ bits, ∃ tail,
    encodePrefixInt bits flags value = UInt8.ofNat (flags + low) :: tail := by
  have positive : 0 < 2 ^ bits := Nat.two_pow_pos bits
  unfold encodePrefixInt
  split
  · exact ⟨value, by omega, [], rfl⟩
  · exact ⟨2 ^ bits - 1, by omega, _, rfl⟩

/-! ## Lines -/

theorem flags_indexed : ∀ low < 2 ^ 6, UInt8.ofNat (0xC0 + low) &&& 0x80 ≠ 0 ∧
    UInt8.ofNat (0xC0 + low) &&& 0x40 ≠ 0 := by
  decide +kernel

theorem flags_nameReference : ∀ never : Bool, ∀ low < 2 ^ 4,
    ¬ UInt8.ofNat ((if never then 0x70 else 0x50) + low) &&& 0x80 ≠ 0 ∧
      UInt8.ofNat ((if never then 0x70 else 0x50) + low) &&& 0x40 ≠ 0 ∧
      UInt8.ofNat ((if never then 0x70 else 0x50) + low) &&& 0x10 ≠ 0 := by
  decide +kernel

theorem lt_of_entry {idx : Nat} {entry : String × String}
    (found : qpackStaticTable[idx]? = some entry) : idx < 2 ^ 63 := by
  have bound := (List.getElem?_eq_some_iff.mp found).1
  have size : qpackStaticTable.length = 99 := rfl
  omega

/-- A line of the static table is read as its field. -/
theorem qpackField_line {P : Platform} {kind : QpackKind} {field : Str × Str} {line : Bytes}
    (encoded : QpackLine kind field line) (known : kind ≠ .literalName)
    (bound : line.length < 2 ^ 63) (headers : Headers) (rest : Bytes) :
    ∃ byte tail, line = byte :: tail ∧ qpackField P headers byte (line ++ rest) =
      some (headers.insert field.1 field.2, line.length) := by
  cases encoded with
  | @indexed idx name value entry =>
    obtain ⟨low, small, tail, first⟩ := encodePrefixInt_eq_cons 6 0xC0 idx
    obtain ⟨high, static⟩ := flags_indexed low small
    refine ⟨_, tail, first, ?_⟩
    rw [qpackField, if_pos high, decodePrefixInt_encode (by decide) (by decide)
      ((Nat.sub_le _ _).trans_lt (lt_of_entry entry))]
    simp only [if_pos static, entry]
  | @nameReference idx name other entry never value =>
    have aligned : (if never then 0x70 else 0x50) % 2 ^ 4 = 0 := by cases never <;> rfl
    have fits : (if never then 0x70 else 0x50) + 2 ^ 4 ≤ 256 := by cases never <;> decide
    obtain ⟨low, small, tail, first⟩ :=
      encodePrefixInt_eq_cons 4 (if never then 0x70 else 0x50) idx
    obtain ⟨literal, reference, static⟩ := flags_nameReference never low small
    have short : (utf8 value).length < 2 ^ 63 := by
      simp only [encodeString, List.length_append] at bound
      omega
    refine ⟨_, tail ++ encodeString 7 0 value, by rw [first]; rfl, ?_⟩
    rw [qpackField, if_neg literal, if_pos reference, List.append_assoc,
      decodePrefixInt_encode aligned fits ((Nat.sub_le _ _).trans_lt (lt_of_entry entry))]
    dsimp only
    rw [List.drop_left, decodeString_encode rfl (by decide) short]
    simp only [if_pos static, entry, List.length_append]
  | literalName => exact absurd rfl known

theorem qpackLoop_lines {P : Platform} {allowed : QpackKind → Prop} {fields : List (Str × Str)}
    {lines : Bytes} (encoded : QpackLines allowed fields lines) (known : ¬ allowed .literalName)
    {fuel : Nat} (enough : lines.length ≤ fuel) (bound : lines.length < 2 ^ 63)
    (headers : Headers) : qpackLoop P fuel headers lines = fieldMap fields headers := by
  induction encoded generalizing fuel headers with
  | nil => cases fuel <;> rfl
  | @cons kind field fields line rest isAllowed line_ others induction =>
    have distinct : kind ≠ .literalName := by
      rintro rfl
      exact known isAllowed
    rw [List.length_append] at enough bound
    obtain ⟨byte, tail, rfl, read⟩ :=
      qpackField_line (P := P) line_ distinct (by omega) headers rest
    rw [List.length_cons] at enough
    obtain ⟨fuel, rfl⟩ : ∃ more, fuel = more + 1 := ⟨fuel - 1, by omega⟩
    rw [List.cons_append] at read ⊢
    rw [qpackLoop, read]
    dsimp only
    rw [← List.cons_append, List.drop_left]
    exact induction (by omega) (by omega) _

/-! ## Field sections -/

/-- Required Insert Count and Base are zero. -/
theorem decodeQpackHeaders_zero (P : Platform) (lines : Bytes) :
    decodeQpackHeaders P (0 :: 0 :: lines) = qpackLoop P (lines.length + 2) .empty lines := by
  have count : decodePrefixInt (0 :: 0 :: lines) 8 = some (0, 1) := rfl
  have base : decodePrefixInt ((0 :: 0 :: lines).drop 1) 7 = some (0, 1) := rfl
  rw [decodeQpackHeaders, if_neg (by simp), count]
  dsimp only
  rw [if_neg (by simp), base]
  rfl

/-- The field `a: b` with a literal name. -/
theorem literalName_line :
    QpackLine .literalName (str "a", str "b") [0x21, 0x61, 0x01, 0x62] :=
  QpackLine.literalName false (str "a") (str "b")

/-- Whatever representations an encoder uses, every encoding of every list of fields is decoded to
the map of the fields, exactly if it uses no line with a literal name. -/
theorem qpack_inverts_iff (P : Platform) (allowed : QpackKind → Prop) :
    (∀ fields lines, QpackLines allowed fields lines → (fields.map Prod.fst).Nodup →
      (∀ field ∈ fields, lowerCase field.1 = true) → (0 :: 0 :: lines).length < 2 ^ 63 →
        decodeQpackHeaders P (0 :: 0 :: lines) = fieldMap fields .empty) ↔
      ¬ allowed .literalName := by
  constructor
  · intro inverts isAllowed
    have decoded := inverts _ _ (.cons isAllowed literalName_line .nil) (by simp) (by decide)
      (by decide)
    have nothing : decodeQpackHeaders P (0 :: 0 :: ([0x21, 0x61, 0x01, 0x62] ++ [])) = .empty := rfl
    rw [nothing] at decoded
    exact absurd (congrArg Dict.size decoded) (by decide)
  · intro known fields lines encoded _ _ bound
    rw [List.length_cons, List.length_cons] at bound
    rw [decodeQpackHeaders_zero]
    exact qpackLoop_lines encoded known (by omega) (by omega) _

/-- The decoder reads the name from behind its first octet, and the field is lost. -/
theorem qpack_loses_literal_name :
    QpackLines (fun _ => True) [(str "a", str "b")] [0x21, 0x61, 0x01, 0x62] ∧
      decodeQpackHeaders asciiPlatform [0, 0, 0x21, 0x61, 0x01, 0x62] = .empty :=
  ⟨.cons trivial literalName_line .nil, rfl⟩

end ApiSensor
