import ApiSensor.Decoding.Memory
import ApiSensor.Redaction

/-!
# Spellings of field names

A name can be written with the escapes of JSON or with percent signs.  `canonical_field_name` reads
every such spelling, and whatever it reads, the name it makes is no longer than what it was given.
-/

namespace ApiSensor

/-! ## Spellings -/

/-- The short escapes of JSON. -/
def shortEscapes : List (Char × Char) :=
  [('"', '"'), ('\\', '\\'), ('/', '/'), ('b', '\x08'), ('f', '\x0c'), ('n', '\n'), ('r', '\r'),
    ('t', '\t')]

/-- The ways to write a character in a JSON string. -/
inductive JsonSpelling : Char → Str → Prop
  | raw {c : Char} (allowed : c ≠ '"' ∧ c ≠ '\\' ∧ 0x20 ≤ c.toNat) : JsonSpelling c [c]
  | short {letter c : Char} (listed : (letter, c) ∈ shortEscapes) : JsonSpelling c ['\\', letter]
  | hex {c : Char} {digits : Str} (four : digits.length = 4)
      (value : digits? 16 digits = some c.toNat) : JsonSpelling c ('\\' :: 'u' :: digits)

/-- The ways to write an ASCII character in a form, if percent, plus and backslash are encoded. -/
inductive PercentSpelling : Char → Str → Prop
  | raw {c : Char} (ascii : c.toNat < 128) (allowed : c ≠ '%' ∧ c ≠ '+' ∧ c ≠ '\\') :
      PercentSpelling c [c]
  | hex {c high low : Char} (ascii : c.toNat < 128)
      (value : digits? 16 [high, low] = some c.toNat) : PercentSpelling c ['%', high, low]

/-- A text written character by character. -/
inductive Spelled (spelling : Char → Str → Prop) : Str → Str → Prop
  | nil : Spelled spelling [] []
  | cons {c : Char} {text piece rest : Str} (here : spelling c piece)
      (later : Spelled spelling text rest) : Spelled spelling (c :: text) (piece ++ rest)

/-! ## JSON -/

theorem length_readHex_le (count code : Nat) (text : Str) :
    (readHex count code text).2.length ≤ text.length := by
  induction count generalizing code text with
  | zero => exact Nat.le_refl _
  | succ count induction =>
    cases text with
    | nil => exact Nat.le_refl _
    | cons c rest =>
      unfold readHex
      cases digit? 16 c with
      | none => simp
      | some digit => exact (induction _ _).trans (Nat.le_succ _)

/-- Four digits are read as the number they are. -/
theorem readHex_append {count code value : Nat} {digits : Str} (length : digits.length = count)
    (parsed : digits.foldlM (fun value c => (digit? 16 c).map (value * 16 + ·)) code = some value)
    (rest : Str) : readHex count code (digits ++ rest) = (some value, rest) := by
  induction digits generalizing count code with
  | nil =>
    cases length
    cases parsed
    rfl
  | cons c digits induction =>
    cases length
    rw [List.foldlM_cons] at parsed
    cases digit : digit? 16 c with
    | none => simp [digit] at parsed
    | some d =>
      rw [digit] at parsed
      rw [List.length_cons, List.cons_append, readHex, digit]
      exact induction rfl parsed

theorem jsonUnescape_cons (fuel : Nat) (c : Char) (rest : Str) :
    jsonUnescape (fuel + 1) (c :: rest) =
      if c ≠ '\\' then c :: jsonUnescape fuel rest
      else
        match rest with
        | [] => ['\\']
        | 'u' :: rest =>
          let (code, rest) := readHex 4 0 rest
          (code.bind charFromU32).toList ++ jsonUnescape fuel rest
        | other :: rest =>
          match jsonEscape other with
          | some c => c :: jsonUnescape fuel rest
          | none => '\\' :: other :: jsonUnescape fuel rest := rfl

variable {c : Char} {raw : Str} {byte : UInt8}

theorem jsonUnescape_fuel {fuel : Nat} (enough : raw.length ≤ fuel) :
    jsonUnescape fuel raw = jsonUnescapeName raw := by
  unfold jsonUnescapeName
  induction fuel using Nat.strongRecOn generalizing raw with
  | ind fuel induction =>
    cases raw with
    | nil => cases fuel <;> rfl
    | cons c rest =>
      cases fuel with
      | zero => simp at enough
      | succ fuel =>
        rw [List.length_cons] at enough
        have same : ∀ {part : Str}, part.length ≤ rest.length →
            jsonUnescape fuel part = jsonUnescape rest.length part := by
          intro part shorter
          rw [induction fuel (Nat.lt_succ_self _) (by omega),
            induction rest.length (by omega) shorter]
        rw [List.length_cons, jsonUnescape_cons, jsonUnescape_cons]
        split_ifs with plain
        · rw [same (Nat.le_refl _)]
        · split
          · rfl
          · next rest' =>
              have shorter := length_readHex_le 4 0 rest'
              dsimp only
              rw [same (by simp; omega)]
          · next other rest' _ =>
              have shorter : rest'.length ≤ (other :: rest').length := by simp
              rw [same shorter]

theorem jsonUnescapeName_plain (plain : c ≠ '\\') (rest : Str) :
    jsonUnescapeName (c :: rest) = c :: jsonUnescapeName rest := by
  rw [jsonUnescapeName, List.length_cons, jsonUnescape_cons, if_pos plain]
  rfl

theorem jsonUnescapeName_hex (rest : Str) :
    jsonUnescapeName ('\\' :: 'u' :: rest) =
      ((readHex 4 0 rest).1.bind charFromU32).toList ++ jsonUnescapeName (readHex 4 0 rest).2 := by
  have shorter := length_readHex_le 4 0 rest
  have unfolded : jsonUnescapeName ('\\' :: 'u' :: rest) =
      ((readHex 4 0 rest).1.bind charFromU32).toList ++
        jsonUnescape (rest.length + 1) (readHex 4 0 rest).2 := rfl
  rw [unfolded, jsonUnescape_fuel (by omega)]

theorem jsonUnescapeName_escape {letter : Char} (other : letter ≠ 'u') (rest : Str) :
    jsonUnescapeName ('\\' :: letter :: rest) =
      (jsonEscape letter).elim ['\\', letter] (fun c => [c]) ++ jsonUnescapeName rest := by
  have unfolded : jsonUnescapeName ('\\' :: letter :: rest) =
      match jsonEscape letter with
      | some c => c :: jsonUnescape (rest.length + 1) rest
      | none => '\\' :: letter :: jsonUnescape (rest.length + 1) rest := by
    rw [jsonUnescapeName, List.length_cons, jsonUnescape_cons, if_neg (not_not.mpr rfl)]
    split
    · next empty => cases empty
    · next same =>
        cases same
        exact absurd rfl other
    · next same =>
        cases same
        rfl
  rw [unfolded, jsonUnescape_fuel (Nat.le_succ _)]
  cases jsonEscape letter <;> rfl

/-- A written character is read as that character. -/
theorem jsonUnescapeName_append {piece : Str} (spelling : JsonSpelling c piece) (rest : Str) :
    jsonUnescapeName (piece ++ rest) = c :: jsonUnescapeName rest := by
  cases spelling with
  | raw allowed => exact jsonUnescapeName_plain allowed.2.1 rest
  | @short letter _ listed =>
    have table : ∀ entry ∈ shortEscapes,
        entry.1 ≠ 'u' ∧ jsonEscape entry.1 = some entry.2 := by decide
    obtain ⟨other, escape⟩ := table _ listed
    have read := jsonUnescapeName_escape other rest
    rwa [escape] at read
  | @hex _ digits four value =>
    have parsed : digits.foldlM (fun value c => (digit? 16 c).map (value * 16 + ·)) 0 =
        some c.toNat := by
      unfold digits? at value
      split_ifs at value
      exact value
    have code : charFromU32 c.toNat = some c := by
      have valid : c.toNat.isValidChar := c.valid
      unfold charFromU32
      rw [if_pos valid, Char.ofNat_toNat]
    rw [List.cons_append, List.cons_append, jsonUnescapeName_hex, readHex_append four parsed,
      Option.bind_some, code]
    rfl

theorem jsonUnescapeName_spelled {text : Str} (spelled : Spelled JsonSpelling text raw) :
    jsonUnescapeName raw = text := by
  induction spelled with
  | nil => rfl
  | cons here _ induction => rw [jsonUnescapeName_append here, induction]

/-- What is read of a hexadecimal escape, and how large it can be. -/
theorem readHex_spec (count code : Nat) (text : Str) : ∃ digits,
    text = digits ++ (readHex count code text).2 ∧
      ∀ value ∈ (readHex count code text).1,
        digits.length = count ∧ value < (code + 1) * 16 ^ count := by
  induction count generalizing code text with
  | zero => exact ⟨[], rfl, fun value same => ⟨rfl, by cases same; simp⟩⟩
  | succ count induction =>
    cases text with
    | nil => exact ⟨[], rfl, nofun⟩
    | cons c rest =>
      cases digit : digit? 16 c with
      | none =>
        refine ⟨[c], ?_, ?_⟩ <;> simp [readHex, digit]
      | some d =>
        have small : d < 16 := by
          unfold digit? at digit
          simpa using (Option.filter_eq_some_iff.mp digit).2
        have read : readHex (count + 1) code (c :: rest) =
            readHex count (code * 16 + d) rest := by
          rw [readHex, digit]
        obtain ⟨digits, split, bound⟩ := induction (code * 16 + d) rest
        rw [read]
        refine ⟨c :: digits, congrArg (c :: ·) split, fun value member => ?_⟩
        obtain ⟨length, less⟩ := bound value member
        refine ⟨congrArg (· + 1) length, less.trans_le ?_⟩
        calc (code * 16 + d + 1) * 16 ^ count
            ≤ ((code + 1) * 16) * 16 ^ count := Nat.mul_le_mul_right _ (by omega)
          _ = (code + 1) * 16 ^ (count + 1) := by rw [Nat.pow_succ]; ring

theorem utf8Size_le_of_lt (small : c.toNat < 0x10000) : c.utf8Size ≤ 3 := by
  have value : c.val.toNat < 0x10000 := small
  unfold Char.utf8Size
  dsimp only
  split_ifs with one two three
  · decide
  · decide
  · decide
  · exact absurd (UInt32.le_iff_toNat_le.mpr (Nat.le_of_lt_succ value)) three

/-- JSON escapes are no shorter than what they stand for. -/
theorem strLen_jsonUnescapeName_le (raw : Str) : strLen (jsonUnescapeName raw) ≤ strLen raw := by
  induction length : raw.length using Nat.strong_induction_on generalizing raw with
  | _ bound induction =>
    subst length
    cases raw with
    | nil => exact Nat.le_refl _
    | cons c rest =>
      by_cases plain : c = '\\'
      · subst plain
        cases rest with
        | nil => exact Nat.le_refl _
        | cons letter rest =>
          by_cases hex : letter = 'u'
          · subst hex
            obtain ⟨digits, split, bound⟩ := readHex_spec 4 0 rest
            have shorter := length_readHex_le 4 0 rest
            have later := induction (readHex 4 0 rest).2.length
              (by simp only [List.length_cons]; omega) _ rfl
            have written : strLen rest = strLen digits + strLen (readHex 4 0 rest).2 := by
              rw [← strLen_append, ← split]
            have read : strLen ((readHex 4 0 rest).1.bind charFromU32).toList ≤
                strLen digits := by
              cases code : (readHex 4 0 rest).1 with
              | none => exact Nat.zero_le _
              | some value =>
                obtain ⟨four, less⟩ := bound value code
                have enough := length_le_strLen digits
                rw [Option.bind_some, charFromU32]
                split_ifs with valid
                · have same : (Char.ofNat value).toNat = value := toNat_ofNat valid
                  have size := @utf8Size_le_of_lt (Char.ofNat value) (by omega)
                  have single : strLen [Char.ofNat value] = (Char.ofNat value).utf8Size :=
                    rfl
                  rw [Option.toList_some, single]
                  omega
                · exact Nat.zero_le _
            rw [jsonUnescapeName_hex, strLen_append, strLen_cons, strLen_cons]
            omega
          · have later := induction rest.length
              (by simp only [List.length_cons]; omega) rest rfl
            have read : strLen ((jsonEscape letter).elim ['\\', letter] fun c => [c]) ≤
                strLen ['\\', letter] := by
              unfold jsonEscape
              split <;> simp [strLen] <;> decide
            rw [jsonUnescapeName_escape hex, strLen_append]
            have written : strLen ('\\' :: letter :: rest) =
                strLen ['\\', letter] + strLen rest := strLen_append ['\\', letter] rest
            omega
      · have later := induction rest.length (by simp) rest rfl
        rw [jsonUnescapeName_plain plain, strLen_cons, strLen_cons]
        omega

/-! ## Percent signs -/

theorem percentDecode_plain (percent : byte ≠ 0x25) (plus : byte ≠ 0x2b) (rest : Bytes) :
    percentDecode (byte :: rest) = byte :: percentDecode rest := by
  rw [percentDecode.eq_def]
  split
  · next same => exact absurd (List.cons.inj same).1 percent
  · next same => exact absurd (List.cons.inj same).1 plus
  · next same =>
      cases same
      rfl
  · next same => cases same

theorem percentDecode_hex {high low h l : UInt8} (first : hexVal high = some h)
    (second : hexVal low = some l) (rest : Bytes) :
    percentDecode (0x25 :: high :: low :: rest) = (h <<< 4 ||| l) :: percentDecode rest := by
  rw [percentDecode, first, second]

/-- A percent sign is decoded with the two digits behind it, or stays. -/
theorem percentDecode_percent (rest : Bytes) :
    (∃ high low more h l, rest = high :: low :: more ∧ hexVal high = some h ∧
        hexVal low = some l) ∨
      percentDecode (0x25 :: rest) = 0x25 :: percentDecode rest := by
  match rest with
  | [] => exact .inr rfl
  | [byte] => exact .inr rfl
  | high :: low :: more =>
    cases first : hexVal high with
    | none => exact .inr (by rw [percentDecode, first])
    | some h =>
      cases second : hexVal low with
      | none => exact .inr (by rw [percentDecode, first, second])
      | some l => exact .inl ⟨high, low, more, h, l, rfl, first, second⟩

theorem ascii_of_hexVal {value : UInt8} (digit : hexVal byte = some value) :
    byte.toNat < 128 := by
  have table : ∀ code < 256, (hexVal (UInt8.ofNat code)).isSome = true → code < 128 := by
    decide +kernel
  refine table byte.toNat byte.toNat_lt ?_
  rw [UInt8.ofNat_toNat, digit]
  rfl

/-- A character other than the two signs is copied. -/
theorem percentDecode_encode (percent : c ≠ '%') (plus : c ≠ '+') (rest : Bytes) :
    percentDecode (String.utf8EncodeChar c ++ rest) =
      String.utf8EncodeChar c ++ percentDecode rest := by
  have others : ∀ byte ∈ String.utf8EncodeChar c, byte ≠ 0x25 ∧ byte ≠ 0x2b := by
    intro byte member
    constructor
    · rintro rfl
      exact percent (ofNat_of_mem_encode (by decide) member).symm
    · rintro rfl
      exact plus (ofNat_of_mem_encode (by decide) member).symm
  revert others
  generalize String.utf8EncodeChar c = bytes
  intro others
  induction bytes with
  | nil => rfl
  | cons byte bytes induction =>
    obtain ⟨here, later⟩ := List.forall_mem_cons.mp others
    rw [List.cons_append, percentDecode_plain here.1 here.2, induction later, List.cons_append]

theorem hexVal_ofNat {value : Nat} (digit : digit? 16 c = some value) :
    c.toNat < 128 ∧ value < 16 ∧ hexVal (UInt8.ofNat c.toNat) = some (UInt8.ofNat value) := by
  have ascii : c.toNat < 128 := by
    unfold digit? at digit
    obtain ⟨found, -⟩ := Option.filter_eq_some_iff.mp digit
    split_ifs at found with one two three
    · simp only [Bool.and_eq_true, decide_eq_true_eq, Char.le_def, UInt32.le_iff_toNat_le] at one
      exact Nat.lt_of_le_of_lt one.2 (by decide)
    · simp only [Bool.and_eq_true, decide_eq_true_eq, Char.le_def, UInt32.le_iff_toNat_le] at two
      exact Nat.lt_of_le_of_lt two.2 (by decide)
    · simp only [Bool.and_eq_true, decide_eq_true_eq, Char.le_def, UInt32.le_iff_toNat_le] at three
      exact Nat.lt_of_le_of_lt three.2 (by decide)
  have bare := toNat_byte (show c.toNat < 256 by omega)
  refine ⟨ascii, ?_, ?_⟩
  · unfold digit? at digit
    simpa using (Option.filter_eq_some_iff.mp digit).2
  · rw [hexVal, bare, Char.ofNat_toNat, digit]
    rfl

/-- The character that two digits stand for. -/
theorem byte_of_digits {h l code : Nat} (first : h < 16) (second : l < 16)
    (value : h * 16 + l = code) : UInt8.ofNat h <<< 4 ||| UInt8.ofNat l = UInt8.ofNat code := by
  have table : ∀ h < 16, ∀ l < 16,
      UInt8.ofNat h <<< 4 ||| UInt8.ofNat l = UInt8.ofNat (h * 16 + l) := by decide +kernel
  rw [table h first l second, value]

theorem digits_of_pair {high low : Char} {value : Nat}
    (parsed : digits? 16 [high, low] = some value) :
    ∃ h l, digit? 16 high = some h ∧ digit? 16 low = some l ∧ h * 16 + l = value := by
  cases first : digit? 16 high with
  | none => simp [digits?, first] at parsed
  | some h =>
    cases second : digit? 16 low with
    | none => simp [digits?, first, second] at parsed
    | some l => exact ⟨h, l, rfl, rfl, by simpa [digits?, first, second] using parsed⟩

/-- A written character is read as that character. -/
theorem percentDecode_append {piece : Str} (spelling : PercentSpelling c piece) (rest : Str) :
    percentDecode (utf8 (piece ++ rest)) =
      String.utf8EncodeChar c ++ percentDecode (utf8 rest) := by
  cases spelling with
  | raw ascii allowed =>
    rw [List.singleton_append, utf8_cons, percentDecode_encode allowed.1 allowed.2.1]
  | @hex high low ascii value =>
    obtain ⟨h, l, first, second, sum⟩ := digits_of_pair value
    obtain ⟨asciiHigh, smallHigh, valHigh⟩ := hexVal_ofNat first
    obtain ⟨asciiLow, smallLow, valLow⟩ := hexVal_ofNat second
    have bytes : utf8 (['%', high, low] ++ rest) =
        0x25 :: UInt8.ofNat high.toNat :: UInt8.ofNat low.toNat :: utf8 rest := by
      simp only [List.cons_append, List.nil_append, utf8_cons, utf8EncodeChar_ascii asciiHigh,
        utf8EncodeChar_ascii asciiLow]
      rfl
    rw [bytes, percentDecode_hex valHigh valLow, byte_of_digits smallHigh smallLow sum,
      utf8EncodeChar_ascii ascii]
    rfl

theorem percentDecode_spelled {text : Str} (spelled : Spelled PercentSpelling text raw) :
    percentDecode (utf8 raw) = utf8 text := by
  induction spelled with
  | nil => rfl
  | cons here _ induction => rw [percentDecode_append here, induction, utf8_cons]

theorem jsonUnescapeName_of_plain (plain : '\\' ∉ raw) :
    jsonUnescapeName raw = raw := by
  induction raw with
  | nil => rfl
  | cons c rest induction =>
    have here : c ≠ '\\' := fun same => plain (same ▸ List.mem_cons_self)
    have later : '\\' ∉ rest := fun member => plain (List.mem_cons_of_mem _ member)
    rw [jsonUnescapeName_plain here, induction later]

theorem backslash_not_mem_spelled {text : Str} (spelled : Spelled PercentSpelling text raw) :
    '\\' ∉ raw := by
  induction spelled with
  | nil => exact List.not_mem_nil
  | @cons c text piece rest here _ induction =>
    refine fun member => (List.mem_append.mp member).elim ?_ induction
    cases here with
    | raw _ allowed => exact fun same => allowed.2.2 (List.mem_singleton.mp same).symm
    | hex _ value =>
      obtain ⟨h, l, first, second, -⟩ := digits_of_pair value
      have noDigit : digit? 16 '\\' = none := by decide
      intro inside
      simp only [List.mem_cons, List.not_mem_nil, or_false] at inside
      rcases inside with same | rfl | rfl
      · exact absurd same (by decide)
      · exact absurd (noDigit.symm.trans first) nofun
      · exact absurd (noDigit.symm.trans second) nofun

/-! ## Lengths -/

/-- A piece of a decoded name: a character of the input or a byte that two digits stood for. -/
inductive Decoded where
  | char (c : Char)
  | byte (value : UInt8)

def Decoded.bytes : Decoded → Bytes
  | .char c => String.utf8EncodeChar c
  | .byte value => [value]

/-- The bytes of the input that a piece comes from. -/
def Decoded.spent : Decoded → Nat
  | .char c => c.utf8Size
  | .byte _ => 3

theorem Decoded.spent_byte (value : UInt8) : (Decoded.byte value).spent = 3 := rfl

theorem exists_of_utf8_cons {text : Str} {more : Bytes} (ascii : byte.toNat < 128)
    (encoded : utf8 text = byte :: more) :
    ∃ c rest, text = c :: rest ∧ c.utf8Size = 1 ∧ more = utf8 rest := by
  cases text with
  | nil => cases encoded
  | cons c rest =>
    rw [utf8_cons] at encoded
    obtain ⟨lead, tail, split, -⟩ := utf8Next_encode c []
    rw [split, List.cons_append, List.cons.injEq] at encoded
    have same : Char.ofNat byte.toNat = c :=
      ofNat_of_mem_encode ascii (by rw [split, encoded.1]; exact List.mem_cons_self)
    have small : c.toNat < 128 := by
      rw [← same, toNat_ofNat (by omega)]
      exact ascii
    have single := utf8EncodeChar_ascii small
    rw [split, List.cons.injEq] at single
    refine ⟨c, rest, rfl, ?_, ?_⟩
    · rw [← String.length_utf8EncodeChar, split, single.2]
      rfl
    · rw [← encoded.2, single.2, List.nil_append]

/-- A decoded name piece by piece. -/
theorem exists_decoded (text : Str) : ∃ pieces : List Decoded,
    percentDecode (utf8 text) = pieces.flatMap Decoded.bytes ∧
      (pieces.map Decoded.spent).sum = strLen text := by
  induction length : text.length using Nat.strong_induction_on generalizing text with
  | _ bound induction =>
    subst length
    cases text with
    | nil => exact ⟨[], rfl, rfl⟩
    | cons c rest =>
      obtain ⟨pieces, bytes, spent⟩ := induction rest.length (by simp) rest rfl
      by_cases plus : c = '+'
      · subst plus
        refine ⟨.char ' ' :: pieces, ?_, ?_⟩
        · rw [List.flatMap_cons, ← bytes]
          rfl
        · rw [List.map_cons, List.sum_cons, spent]
          rfl
      · by_cases percent : c = '%'
        · subst percent
          rcases percentDecode_percent (utf8 rest) with
            ⟨high, low, more, h, l, split, first, second⟩ | stays
          · obtain ⟨c, rest, rfl, size, split'⟩ :=
              exists_of_utf8_cons (ascii_of_hexVal first) split
            obtain ⟨c', rest, rfl, size', split''⟩ :=
              exists_of_utf8_cons (ascii_of_hexVal second) split'.symm
            obtain ⟨pieces, bytes, spent⟩ := induction rest.length (by simp; omega) rest rfl
            have input : utf8 ('%' :: c :: c' :: rest) = 0x25 :: high :: low :: utf8 rest := by
              rw [utf8_cons, split, split'']
              rfl
            refine ⟨.byte (h <<< 4 ||| l) :: pieces, ?_, ?_⟩
            · rw [input, percentDecode_hex first second, bytes]
              rfl
            · have sign : '%'.utf8Size = 1 := by decide
              simp only [List.map_cons, List.sum_cons, spent, strLen_cons, size, size', sign,
                Decoded.spent_byte]
              omega
          · refine ⟨.char '%' :: pieces, ?_, ?_⟩
            · rw [List.flatMap_cons, ← bytes]
              exact stays
            · rw [List.map_cons, List.sum_cons, spent]
              rfl
        · refine ⟨.char c :: pieces, ?_, ?_⟩
          · rw [utf8_cons, percentDecode_encode percent plus, bytes]
            rfl
          · rw [List.map_cons, List.sum_cons, spent]
            rfl

/-- Continuation bytes at the front are decoded bytes. -/
theorem exists_rest {pieces : List Decoded} {taken rest : Bytes}
    (continues : ∀ byte ∈ taken, isContinuation byte = true)
    (split : pieces.flatMap Decoded.bytes = taken ++ rest) : ∃ later : List Decoded,
    rest = later.flatMap Decoded.bytes ∧ later.length ≤ pieces.length ∧
      (pieces.map Decoded.spent).sum = 3 * taken.length + (later.map Decoded.spent).sum := by
  induction taken generalizing pieces with
  | nil => exact ⟨pieces, split.symm, Nat.le_refl _, by simp⟩
  | cons byte taken induction =>
    obtain ⟨here, others⟩ := List.forall_mem_cons.mp continues
    cases pieces with
    | nil => cases split
    | cons piece pieces =>
      cases piece with
      | char c =>
        obtain ⟨lead, tail, encoded, -⟩ := utf8Next_encode c []
        rw [List.flatMap_cons, Decoded.bytes, encoded] at split
        have same : lead = byte := (List.cons.inj split).1
        rw [← same, encode_ne_continuation encoded] at here
        cases here
      | byte value =>
        obtain ⟨later, same, shorter, spent⟩ := induction others (List.cons.inj split).2
        refine ⟨later, same, shorter.trans (Nat.le_succ _), ?_⟩
        simp only [List.map_cons, List.sum_cons, List.length_cons, spent, Decoded.spent_byte]
        omega

/-- Repairing decoded bytes takes no more room than the input they come from. -/
theorem strLen_fromUtf8Lossy_le (pieces : List Decoded) :
    strLen (fromUtf8Lossy (pieces.flatMap Decoded.bytes)) ≤ (pieces.map Decoded.spent).sum := by
  induction length : pieces.length using Nat.strong_induction_on generalizing pieces with
  | _ bound induction =>
    subst length
    cases pieces with
    | nil => exact Nat.le_refl _
    | cons piece pieces =>
      cases piece with
      | char c =>
        have later := induction pieces.length (by simp) pieces rfl
        have read : fromUtf8Lossy ((Decoded.char c :: pieces).flatMap Decoded.bytes) =
            c :: fromUtf8Lossy (pieces.flatMap Decoded.bytes) := by
          have chars := utf8Chars_utf8_append [c] (pieces.flatMap Decoded.bytes)
          have bytes : (Decoded.char c :: pieces).flatMap Decoded.bytes =
              utf8 [c] ++ pieces.flatMap Decoded.bytes := by
            simp [utf8, Decoded.bytes]
          rw [fromUtf8Lossy, bytes, chars]
          rfl
        rw [read, strLen_cons, List.map_cons, List.sum_cons]
        exact Nat.add_le_add_left later _
      | byte value =>
        obtain ⟨taken, split, continues, alone⟩ :=
          utf8Next_taken value (pieces.flatMap Decoded.bytes)
        obtain ⟨rest, same, shorter, spent⟩ := exists_rest continues split
        have later := induction rest.length (by simp; omega) rest rfl
        have read : fromUtf8Lossy ((Decoded.byte value :: pieces).flatMap Decoded.bytes) =
            (utf8Next value (pieces.flatMap Decoded.bytes)).1.getD '�' ::
              fromUtf8Lossy (rest.flatMap Decoded.bytes) := by
          have bytes : (Decoded.byte value :: pieces).flatMap Decoded.bytes =
              value :: pieces.flatMap Decoded.bytes := rfl
          have enough := length_utf8Next_le value (pieces.flatMap Decoded.bytes)
          rw [fromUtf8Lossy, bytes, List.length_cons, utf8Chars]
          dsimp only
          rw [utf8Chars_fuel enough, same]
          rfl
        have size : ((utf8Next value (pieces.flatMap Decoded.bytes)).1.getD '�').utf8Size ≤
            3 + 3 * taken.length := by
          cases char : (utf8Next value (pieces.flatMap Decoded.bytes)).1 with
          | none => exact (by decide : '�'.utf8Size ≤ 3).trans (Nat.le_add_right _ _)
          | some c =>
            have most := Char.utf8Size_le_four c
            cases taken with
            | nil =>
              obtain ⟨rfl, ascii⟩ := alone rfl c char
              have small : (Char.ofNat value.toNat).toNat < 0x10000 := by
                rw [toNat_ofNat (.inl (value.toNat_lt.trans (by decide)))]
                exact value.toNat_lt.trans (by decide)
              exact utf8Size_le_of_lt small
            | cons first more =>
              rw [Option.getD_some, List.length_cons]
              omega
        rw [read, strLen_cons, List.map_cons, List.sum_cons, spent, Decoded.spent_byte]
        omega

theorem strLen_percentDecodeName_le (raw : Str) : strLen (percentDecodeName raw) ≤ strLen raw := by
  obtain ⟨pieces, bytes, spent⟩ := exists_decoded raw
  rw [percentDecodeName, bytes, ← spent]
  exact strLen_fromUtf8Lossy_le pieces

/-- Every spelling of a name is read as the name, and no result is longer than what was read. -/
theorem canonicalFieldName_spelled :
    (∀ text raw, Spelled JsonSpelling text raw → canonicalFieldName raw false = text) ∧
      (∀ text raw, Spelled PercentSpelling text raw → canonicalFieldName raw true = text) ∧
      ∀ raw percent, strLen (canonicalFieldName raw percent) ≤ strLen raw := by
  refine ⟨fun text raw spelled => jsonUnescapeName_spelled spelled, fun text raw spelled => ?_,
    fun raw percent => ?_⟩
  · have plain := jsonUnescapeName_of_plain (backslash_not_mem_spelled spelled)
    have read : canonicalFieldName raw true = percentDecodeName (jsonUnescapeName raw) := rfl
    rw [read, plain, percentDecodeName, percentDecode_spelled spelled, fromUtf8Lossy_utf8]
  · have first := strLen_jsonUnescapeName_le raw
    cases percent with
    | false => exact first
    | true => exact (strLen_percentDecodeName_le _).trans first

/-- A name with an escape of each kind. -/
theorem canonicalFieldName_password :
    canonicalFieldName (str "p\\u0061ss\\/") false = str "pass/" ∧
      canonicalFieldName (str "p%61ss%2B") true = str "pass+" := by
  have json : Spelled JsonSpelling (str "pass/") (['p'] ++ (str "\\u0061" ++ (['s'] ++ (['s'] ++
      (['\\', '/'] ++ []))))) :=
    .cons (.raw (by decide)) (.cons (.hex rfl (by decide)) (.cons (.raw (by decide))
      (.cons (.raw (by decide)) (.cons (.short (by decide)) .nil))))
  have percent : Spelled PercentSpelling (str "pass+") (['p'] ++ (['%', '6', '1'] ++ (['s'] ++
      (['s'] ++ (['%', '2', 'B'] ++ []))))) :=
    .cons (.raw (by decide) (by decide)) (.cons (.hex (by decide) (by decide))
      (.cons (.raw (by decide) (by decide)) (.cons (.raw (by decide) (by decide))
        (.cons (.hex (by decide) (by decide)) .nil))))
  exact ⟨canonicalFieldName_spelled.1 _ _ json, canonicalFieldName_spelled.2.1 _ _ percent⟩

end ApiSensor
