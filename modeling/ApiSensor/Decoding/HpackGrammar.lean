import ApiSensor.Grpc
import Mathlib.Tactic.Ring

/-!
# Well-formed HPACK blocks

`validate_hpack_block` walks a block before the HPACK decoder sees it.  It accepts exactly the
concatenations of complete representations of RFC 7541 with integers of at most five octets.
-/

namespace ApiSensor

/-! ## Representations -/

/-- An integer (RFC 7541, 5.1) of at most five octets, minimal or not. -/
inductive HpackInt (bits : ℕ) : ℕ → Bytes → Prop
  | short {byte : UInt8} (low : byte.toNat % 2 ^ bits < 2 ^ bits - 1) :
      HpackInt bits (byte.toNat % 2 ^ bits) [byte]
  | extended {byte : UInt8} {digits : Bytes} {value : ℕ} (full : byte.toNat % 2 ^ bits = 2 ^ bits - 1)
      (encoded : Leb128 digits value) (few : digits.length ≤ 4) :
      HpackInt bits (2 ^ bits - 1 + value) (byte :: digits)

/-- A string literal (RFC 7541, 5.2), with or without Huffman coding. -/
inductive HpackString : Bytes → Prop
  | mk {length content : Bytes} (encoded : HpackInt 7 content.length length) :
      HpackString (length ++ content)

/-- An index and the strings behind it: a name if the index is 0, and a value. -/
inductive HpackLiteral (bits : ℕ) : Bytes → Prop
  | newName {index name value : Bytes} (encoded : HpackInt bits 0 index) (isName : HpackString name)
      (isValue : HpackString value) : HpackLiteral bits (index ++ (name ++ value))
  | indexedName {idx : ℕ} {index value : Bytes} (encoded : HpackInt bits idx index) (known : idx ≠ 0)
      (isValue : HpackString value) : HpackLiteral bits (index ++ value)

/-- The representations of RFC 7541, section 6, by the first bits of an octet. -/
inductive HpackEntry : Bytes → Prop
  | indexed {entry : Bytes} {idx : ℕ} (kind : entry.headD 0 &&& 0x80 = 0x80)
      (encoded : HpackInt 7 idx entry) : HpackEntry entry
  | incremental {entry : Bytes} (kind : entry.headD 0 &&& 0xC0 = 0x40)
      (literal : HpackLiteral 6 entry) : HpackEntry entry
  | sizeUpdate {entry : Bytes} {size : ℕ} (kind : entry.headD 0 &&& 0xE0 = 0x20)
      (encoded : HpackInt 5 size entry) : HpackEntry entry
  | withoutIndexing {entry : Bytes} (kind : entry.headD 0 &&& 0xF0 = 0)
      (literal : HpackLiteral 4 entry) : HpackEntry entry
  | neverIndexed {entry : Bytes} (kind : entry.headD 0 &&& 0xF0 = 0x10)
      (literal : HpackLiteral 4 entry) : HpackEntry entry

/-! ## Integers and strings -/

theorem continues_iff (byte : UInt8) : byte &&& 0x80 = 0 ↔ byte < 0x80 := by
  have table : ∀ code < 256, UInt8.ofNat code &&& 0x80 = 0 ↔ UInt8.ofNat code < 0x80 := by
    decide +kernel
  simpa using table byte.toNat byte.toNat_lt

theorem readHpackIntMore_encoded {digits : Bytes} {value : ℕ} (encoded : Leb128 digits value)
    {result shift total : ℕ} (few : total + digits.length ≤ 5) (tail : Bytes) :
    readHpackIntMore result shift total (digits ++ tail) =
      some (result + value * 2 ^ shift, total + digits.length) := by
  induction encoded generalizing result shift total with
  | last clear =>
    rw [List.singleton_append, readHpackIntMore, if_pos ((continues_iff _).mp clear)]
    rfl
  | @more byte rest value continues encoded induction =>
    have some := List.length_pos_iff.mpr encoded.ne_nil
    rw [List.length_cons] at few
    rw [List.cons_append, readHpackIntMore, if_neg (mt (continues_iff _).mpr continues),
      if_neg (by omega), induction (by omega), List.length_cons, Nat.pow_add]
    simp only [Option.some.injEq, Prod.mk.injEq]
    constructor
    · ring
    · omega

variable {n bits v : ℕ} {enc : Bytes}

variable {rest : Bytes}

theorem exists_of_readHpackIntMore {result shift total : ℕ}
    (read : readHpackIntMore result shift total rest = some (v, n)) :
    ∃ digits tail value, rest = digits ++ tail ∧ Leb128 digits value ∧
      (total ≤ 4 → total + digits.length ≤ 5) ∧ v = result + value * 2 ^ shift ∧
      n = total + digits.length := by
  induction rest generalizing result shift total with
  | nil => cases read
  | cons byte rest induction =>
    rw [readHpackIntMore] at read
    split_ifs at read with last limit
    · cases read
      exact ⟨[byte], rest, _, rfl, .last ((continues_iff _).mpr last), Nat.succ_le_succ, rfl, rfl⟩
    · obtain ⟨digits, tail, value, rfl, encoded, few, rfl, rfl⟩ := induction read
      refine ⟨byte :: digits, tail, _, rfl, .more (mt (continues_iff _).mp last) encoded, ?_, ?_, ?_⟩
      · rw [List.length_cons]
        omega
      · rw [Nat.pow_add]
        ring
      · rw [List.length_cons]
        omega

theorem readHpackInt_iff :
    readHpackInt rest bits = some (v, n) ↔
      ∃ enc tail, rest = enc ++ tail ∧ HpackInt bits v enc ∧ enc.length = n := by
  constructor
  · intro read
    cases rest with
    | nil => cases read
    | cons byte rest =>
      rw [readHpackInt] at read
      split_ifs at read with low
      · cases read
        exact ⟨[byte], rest, rfl, .short low, rfl⟩
      · obtain ⟨digits, tail, value, rfl, encoded, few, rfl, rfl⟩ := exists_of_readHpackIntMore read
        have full : byte.toNat % 2 ^ bits = 2 ^ bits - 1 := by
          have := Nat.mod_lt byte.toNat (Nat.two_pow_pos bits)
          omega
        refine ⟨byte :: digits, tail, rfl, ?_, by rw [List.length_cons, Nat.add_comm]⟩
        rw [Nat.pow_zero, Nat.mul_one]
        exact .extended full encoded (Nat.le_of_succ_le_succ (by simpa [Nat.add_comm] using few))
  · rintro ⟨enc, tail, rfl, encoded, rfl⟩
    cases encoded with
    | short low =>
      rw [List.singleton_append, readHpackInt, if_pos low]
      rfl
    | @extended byte digits value full encoded few =>
      rw [List.cons_append, readHpackInt, if_neg (by omega),
        readHpackIntMore_encoded encoded (by omega), List.length_cons, Nat.pow_zero, Nat.mul_one,
        Nat.add_comm 1]

theorem skipHpackString_iff :
    skipHpackString rest = some n ↔
      ∃ enc tail, rest = enc ++ tail ∧ HpackString enc ∧ enc.length = n := by
  constructor
  · intro skipped
    rw [skipHpackString] at skipped
    split at skipped
    · cases skipped
    · rename_i strLen consumed read
      obtain ⟨length, tail, rfl, encoded, rfl⟩ := readHpackInt_iff.mp read
      dsimp only at skipped
      split_ifs at skipped with outside
      cases skipped
      rw [List.length_append] at outside
      have content : (tail.take strLen).length = strLen := List.length_take_of_le (by omega)
      refine ⟨length ++ tail.take strLen, tail.drop strLen, ?_, .mk (by rwa [content]), ?_⟩
      · rw [List.append_assoc, List.take_append_drop]
      · rw [List.length_append, content]
  · rintro ⟨_, tail, rfl, ⟨encoded⟩, rfl⟩
    rename_i length content
    have read : readHpackInt (length ++ content ++ tail) 7 = some (content.length, length.length) :=
      readHpackInt_iff.mpr ⟨length, content ++ tail, List.append_assoc _ _ _, encoded, rfl⟩
    rw [skipHpackString, read]
    simp only [List.length_append]
    exact if_neg (by omega)

theorem skipHpackLiteral_iff :
    skipHpackLiteral rest bits = some n ↔
      ∃ enc tail, rest = enc ++ tail ∧ HpackLiteral bits enc ∧ enc.length = n := by
  constructor
  · intro skipped
    rw [skipHpackLiteral] at skipped
    split at skipped
    · cases skipped
    · rename_i idx consumed read
      obtain ⟨index, tail, rfl, encoded, rfl⟩ := readHpackInt_iff.mp read
      simp only [Option.bind_eq_some_iff, Option.map_eq_some_iff] at skipped
      obtain ⟨start, named, total, skipped, rfl⟩ := skipped
      obtain ⟨value, rest, split, isValue, rfl⟩ := skipHpackString_iff.mp skipped
      split_ifs at named with new
      · subst new
        obtain ⟨_, skippedName, rfl⟩ := Option.map_eq_some_iff.mp named
        rw [List.drop_left] at skippedName
        obtain ⟨name, behind, rfl, isName, rfl⟩ := skipHpackString_iff.mp skippedName
        rw [List.drop_length_add_append, List.drop_left] at split
        subst split
        exact ⟨_, rest, by simp only [List.append_assoc], .newName encoded isName isValue,
          by simp only [List.length_append, Nat.add_assoc]⟩
      · cases named
        rw [List.drop_left] at split
        subst split
        exact ⟨_, rest, (List.append_assoc _ _ _).symm, .indexedName encoded new isValue,
          List.length_append⟩
  · rintro ⟨enc, tail, rfl, literal, rfl⟩
    have string : ∀ {enc : Bytes} (tail : Bytes), HpackString enc →
        skipHpackString (enc ++ tail) = some enc.length :=
      fun tail isString => skipHpackString_iff.mpr ⟨_, tail, rfl, isString, rfl⟩
    cases literal with
    | @newName index name value encoded isName isValue =>
      have read : readHpackInt (index ++ (name ++ (value ++ tail))) bits = some (0, index.length) :=
        readHpackInt_iff.mpr ⟨index, _, rfl, encoded, rfl⟩
      rw [List.append_assoc, List.append_assoc, skipHpackLiteral, read]
      simp only [if_pos, List.drop_left, string _ isName, Option.map_some, Option.bind_some,
        List.drop_length_add_append, string _ isValue, List.length_append, Nat.add_assoc]
    | @indexedName idx index value encoded known isValue =>
      have read : readHpackInt (index ++ (value ++ tail)) bits = some (idx, index.length) :=
        readHpackInt_iff.mpr ⟨index, _, rfl, encoded, rfl⟩
      rw [List.append_assoc, skipHpackLiteral, read]
      simp only [if_neg known, List.drop_left, Option.map_some, Option.bind_some, string _ isValue,
        List.length_append]

/-! ## Blocks -/

theorem HpackInt.ne_nil (encoded : HpackInt bits v enc) : enc ≠ [] := by
  cases encoded <;> exact List.cons_ne_nil _ _

theorem HpackLiteral.ne_nil (literal : HpackLiteral bits enc) : enc ≠ [] := by
  cases literal with
  | newName encoded | indexedName encoded => exact List.append_ne_nil_of_left_ne_nil encoded.ne_nil _

/-- What has to follow a first octet. -/
def HpackShape (byte : UInt8) (enc : Bytes) : Prop :=
  if byte &&& 0x80 ≠ 0 then ∃ v, HpackInt 7 v enc
  else if byte &&& 0xC0 = 0x40 then HpackLiteral 6 enc
  else if byte &&& 0xE0 = 0x20 then ∃ v, HpackInt 5 v enc
  else HpackLiteral 4 enc

/-- The first bits of an octet tell the kinds apart. -/
theorem kind_cases : ∀ code < 256, let byte := UInt8.ofNat code
    (byte &&& 0x80 = 0x80 ↔ byte &&& 0x80 ≠ 0) ∧
      (byte &&& 0xC0 = 0x40 → byte &&& 0x80 = 0) ∧
      (byte &&& 0xE0 = 0x20 → byte &&& 0x80 = 0 ∧ byte &&& 0xC0 ≠ 0x40) ∧
      (byte &&& 0xF0 = 0 ∨ byte &&& 0xF0 = 0x10 ↔
        byte &&& 0x80 = 0 ∧ byte &&& 0xC0 ≠ 0x40 ∧ byte &&& 0xE0 ≠ 0x20) := by
  decide +kernel

theorem hpackEntry_iff : HpackEntry enc ↔ HpackShape (enc.headD 0) enc := by
  have kinds := kind_cases (enc.headD 0).toNat (enc.headD 0).toNat_lt
  simp only [UInt8.ofNat_toNat] at kinds
  obtain ⟨indexed, incremental, update, plain⟩ := kinds
  unfold HpackShape
  constructor
  · intro entry
    cases entry with
    | indexed kind encoded =>
      rw [if_pos (indexed.mp kind)]
      exact ⟨_, encoded⟩
    | incremental kind literal =>
      rw [if_neg (not_not.mpr (incremental kind)), if_pos kind]
      exact literal
    | sizeUpdate kind encoded =>
      obtain ⟨low, notLiteral⟩ := update kind
      rw [if_neg (not_not.mpr low), if_neg notLiteral, if_pos kind]
      exact ⟨_, encoded⟩
    | withoutIndexing kind literal =>
      obtain ⟨low, notLiteral, notUpdate⟩ := plain.mp (.inl kind)
      rwa [if_neg (not_not.mpr low), if_neg notLiteral, if_neg notUpdate]
    | neverIndexed kind literal =>
      obtain ⟨low, notLiteral, notUpdate⟩ := plain.mp (.inr kind)
      rwa [if_neg (not_not.mpr low), if_neg notLiteral, if_neg notUpdate]
  · intro shape
    split_ifs at shape with high incremental update
    · obtain ⟨v, encoded⟩ := shape
      exact .indexed (indexed.mpr high) encoded
    · exact .incremental incremental shape
    · obtain ⟨v, encoded⟩ := shape
      exact .sizeUpdate update encoded
    · rcases plain.mpr ⟨not_not.mp high, incremental, update⟩ with kind | kind
      · exact .withoutIndexing kind shape
      · exact .neverIndexed kind shape

theorem HpackShape.ne_nil {byte : UInt8} (shape : HpackShape byte enc) : enc ≠ [] := by
  unfold HpackShape at shape
  split_ifs at shape
  · exact shape.choose_spec.ne_nil
  · exact shape.ne_nil
  · exact shape.choose_spec.ne_nil
  · exact shape.ne_nil

theorem readHpackInt_snd_iff :
    (readHpackInt rest bits).map Prod.snd = some n ↔
      ∃ enc tail, rest = enc ++ tail ∧ (∃ v, HpackInt bits v enc) ∧ enc.length = n := by
  rw [Option.map_eq_some_iff]
  constructor
  · rintro ⟨⟨v, _⟩, read, rfl⟩
    obtain ⟨enc, tail, split, encoded, length⟩ := readHpackInt_iff.mp read
    exact ⟨enc, tail, split, ⟨v, encoded⟩, length⟩
  · rintro ⟨enc, tail, split, ⟨v, encoded⟩, length⟩
    exact ⟨(v, n), readHpackInt_iff.mpr ⟨enc, tail, split, encoded, length⟩, rfl⟩

theorem skipHpackEntry_iff {byte : UInt8} :
    skipHpackEntry byte (byte :: rest) = some n ↔
      ∃ enc tail, byte :: rest = enc ++ tail ∧ HpackEntry enc ∧ enc.length = n := by
  have shaped : skipHpackEntry byte (byte :: rest) = some n ↔
      ∃ enc tail, byte :: rest = enc ++ tail ∧ HpackShape byte enc ∧ enc.length = n := by
    unfold skipHpackEntry HpackShape
    split_ifs
    · exact readHpackInt_snd_iff
    · exact skipHpackLiteral_iff
    · exact readHpackInt_snd_iff
    · exact skipHpackLiteral_iff
  rw [shaped]
  refine exists_congr fun enc => exists_congr fun tail => and_congr_right fun split =>
    and_congr_left fun _ => ?_
  cases enc with
  | nil => exact ⟨fun shape => absurd rfl shape.ne_nil,
      fun entry => absurd rfl (hpackEntry_iff.mp entry).ne_nil⟩
  | cons first enc =>
    obtain ⟨rfl, -⟩ := List.cons.inj split
    exact (@hpackEntry_iff (byte :: enc)).symm

/-! ## Blocks -/

/-- A concatenation of representations. -/
def HpackBlock (block : Bytes) : Prop :=
  ∃ entries : List Bytes, (∀ entry ∈ entries, HpackEntry entry) ∧ block = entries.flatten

/-- The walker comes behind a representation, whatever follows. -/
theorem validateHpackLoop_append {entry : Bytes} (isEntry : HpackEntry entry) (rest : Bytes)
    {fuel : ℕ} : validateHpackLoop (fuel + 1) (entry ++ rest) = validateHpackLoop fuel rest := by
  cases entry with
  | nil => exact absurd rfl (hpackEntry_iff.mp isEntry).ne_nil
  | cons byte entry =>
    have skipped : skipHpackEntry byte (byte :: (entry ++ rest)) = some (byte :: entry).length :=
      skipHpackEntry_iff.mpr ⟨byte :: entry, rest, rfl, isEntry, rfl⟩
    rw [List.cons_append, validateHpackLoop, skipped]
    exact congrArg (validateHpackLoop fuel) List.drop_left

theorem validateHpackLoop_iff {fuel : ℕ} {block : Bytes} (enough : block.length ≤ fuel) :
    validateHpackLoop fuel block = true ↔ HpackBlock block := by
  induction fuel generalizing block with
  | zero =>
    obtain rfl := List.length_eq_zero_iff.mp (Nat.le_zero.mp enough)
    exact ⟨fun _ => ⟨[], by simp, rfl⟩, fun _ => rfl⟩
  | succ fuel induction =>
    cases block with
    | nil => exact ⟨fun _ => ⟨[], by simp, rfl⟩, fun _ => rfl⟩
    | cons byte more =>
      constructor
      · intro accepted
        rw [validateHpackLoop] at accepted
        split at accepted
        · cases accepted
        · rename_i consumed skipped
          obtain ⟨entry, tail, split, isEntry, rfl⟩ := skipHpackEntry_iff.mp skipped
          have shorter : tail.length ≤ fuel := by
            have := List.length_pos_iff.mpr (hpackEntry_iff.mp isEntry).ne_nil
            rw [split, List.length_append] at enough
            omega
          rw [split, List.drop_left] at accepted
          obtain ⟨entries, each, rfl⟩ := (induction shorter).mp accepted
          exact ⟨entry :: entries, List.forall_mem_cons.mpr ⟨isEntry, each⟩, split⟩
      · rintro ⟨entries, each, split⟩
        cases entries with
        | nil => cases split
        | cons entry entries =>
          obtain ⟨isEntry, each⟩ := List.forall_mem_cons.mp each
          have shorter : entries.flatten.length ≤ fuel := by
            have := List.length_pos_iff.mpr (hpackEntry_iff.mp isEntry).ne_nil
            rw [split, List.flatten_cons, List.length_append] at enough
            omega
          rw [split, List.flatten_cons, validateHpackLoop_append isEntry]
          exact (induction shorter).mpr ⟨entries, each, rfl⟩

theorem hpackBlock_append_iff {entry : Bytes} (isEntry : HpackEntry entry) (rest : Bytes) :
    HpackBlock (entry ++ rest) ↔ HpackBlock rest := by
  rw [← validateHpackLoop_iff (Nat.le_succ (entry ++ rest).length), validateHpackLoop_append isEntry]
  exact validateHpackLoop_iff (by rw [List.length_append]; omega)

/-- `validate_hpack_block` accepts exactly the concatenations of representations.  Behind an
accepted block the verdict is that on what follows. -/
theorem validate_hpack_block_iff (block : Bytes) :
    (validateHpackBlock block = true ↔ HpackBlock block) ∧
      (validateHpackBlock block = true → ∀ more,
        validateHpackBlock (block ++ more) = validateHpackBlock more) := by
  have accepts : ∀ block, validateHpackBlock block = true ↔ HpackBlock block := fun block =>
    validateHpackLoop_iff (Nat.le_refl _)
  refine ⟨accepts block, fun accepted more => Bool.eq_iff_iff.mpr ?_⟩
  obtain ⟨entries, each, rfl⟩ := (accepts block).mp accepted
  rw [accepts, accepts]
  clear accepted
  induction entries with
  | nil => exact .rfl
  | cons entry entries induction =>
    obtain ⟨isEntry, each⟩ := List.forall_mem_cons.mp each
    rw [List.flatten_cons, List.append_assoc, hpackBlock_append_iff isEntry]
    exact induction each

end ApiSensor
