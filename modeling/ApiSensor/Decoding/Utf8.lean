import ApiSensor.Text

/-!
# UTF-8 text on the wire

`from_utf8` inverts the encoding of characters, also in front of other bytes, and accepts nothing
else; the bytes of a text below 0x80 are its characters below 0x80.
-/

namespace ApiSensor

/-- The encoding of a text. -/
def utf8 (text : Str) : Bytes := text.flatMap String.utf8EncodeChar

@[simp]
theorem utf8_nil : utf8 [] = [] := rfl

@[simp]
theorem utf8_append (first second : Str) : utf8 (first ++ second) = utf8 first ++ utf8 second :=
  List.flatMap_append

theorem utf8_cons (c : Char) (text : Str) :
    utf8 (c :: text) = String.utf8EncodeChar c ++ utf8 text := rfl

theorem length_utf8 (text : Str) : (utf8 text).length = strLen text := by
  simp [utf8, strLen, List.length_flatMap]

theorem strLen_cons (c : Char) (text : Str) : strLen (c :: text) = c.utf8Size + strLen text :=
  List.sum_cons

theorem length_le_strLen (text : Str) : text.length ≤ strLen text := by
  induction text with
  | nil => exact Nat.le_refl _
  | cons c text induction =>
    have positive := Char.utf8Size_pos c
    rw [strLen_cons, List.length_cons]
    omega

/-! ## Single bytes -/

variable {lead second third byte : UInt8} {c : Char} {code : Nat} {input : Bytes}

/-- A byte as a continuation byte and by its low bits. -/
theorem byte_bits (byte : UInt8) :
    (isContinuation byte = true ↔ 128 ≤ byte.toNat ∧ byte.toNat < 192) ∧
      lowBits byte 0x3F = byte.toNat % 64 ∧ lowBits byte 0x1F = byte.toNat % 32 ∧
      lowBits byte 0x0F = byte.toNat % 16 ∧ lowBits byte 0x07 = byte.toNat % 8 := by
  have table : ∀ code < 256,
      (isContinuation (UInt8.ofNat code) = true ↔ 128 ≤ code ∧ code < 192) ∧
      lowBits (UInt8.ofNat code) 0x3F = code % 64 ∧ lowBits (UInt8.ofNat code) 0x1F = code % 32 ∧
      lowBits (UInt8.ofNat code) 0x0F = code % 16 ∧ lowBits (UInt8.ofNat code) 0x07 = code % 8 := by
    decide +kernel
  have known := table byte.toNat byte.toNat_lt
  rwa [UInt8.ofNat_toNat] at known

theorem secondByteOk_iff : secondByteOk lead second = true ↔
    128 ≤ second.toNat ∧ second.toNat < 192 ∧ (lead.toNat = 0xE0 → 0xA0 ≤ second.toNat) ∧
      (lead.toNat = 0xED → second.toNat < 0xA0) ∧ (lead.toNat = 0xF0 → 0x90 ≤ second.toNat) ∧
      (lead.toNat = 0xF4 → second.toNat < 0x90) := by
  simp only [secondByteOk, beq_iff_eq, ← UInt8.toNat_inj]
  split_ifs <;>
    simp only [Bool.and_eq_true, decide_eq_true_eq, UInt8.le_iff_toNat_le,
      UInt8.reduceToNat] at * <;>
    omega

theorem toNat_byte (small : code < 256) : (UInt8.ofNat code).toNat = code :=
  UInt8.toNat_ofNat_of_lt' small

/-! ## Characters -/

theorem toNat_valid (c : Char) :
    c.toNat < 0xD800 ∨ 0xDFFF < c.toNat ∧ c.toNat < 0x110000 := c.valid

theorem utf8EncodeChar_eq (c : Char) : String.utf8EncodeChar c =
    if c.toNat ≤ 127 then [UInt8.ofNat c.toNat]
    else if c.toNat ≤ 2047 then
      [UInt8.ofNat (c.toNat / 64 % 32 + 192), UInt8.ofNat (c.toNat % 64 + 128)]
    else if c.toNat ≤ 65535 then
      [UInt8.ofNat (c.toNat / 4096 % 16 + 224), UInt8.ofNat (c.toNat / 64 % 64 + 128),
        UInt8.ofNat (c.toNat % 64 + 128)]
    else
      [UInt8.ofNat (c.toNat / 262144 % 8 + 240), UInt8.ofNat (c.toNat / 4096 % 64 + 128),
        UInt8.ofNat (c.toNat / 64 % 64 + 128), UInt8.ofNat (c.toNat % 64 + 128)] := rfl

theorem utf8EncodeChar_ascii (ascii : c.toNat < 128) :
    String.utf8EncodeChar c = [UInt8.ofNat c.toNat] := by
  rw [utf8EncodeChar_eq, if_pos (Nat.le_of_lt_succ ascii)]

theorem utf8Next_two (first : 0xC2 ≤ lead.toNat ∧ lead.toNat ≤ 0xDF)
    (continues : isContinuation second = true) (rest : Bytes) :
    utf8Next lead (second :: rest) =
      (some (Char.ofNat (lowBits lead 0x1F * 64 + lowBits second 0x3F)), rest) := by
  simp only [utf8Next, Bool.and_eq_true, decide_eq_true_eq, UInt8.le_iff_toNat_le,
    UInt8.lt_iff_toNat_lt, UInt8.reduceToNat]
  rw [if_neg (by omega), if_pos first, if_pos continues]

theorem utf8Next_three (first : 0xE0 ≤ lead.toNat ∧ lead.toNat ≤ 0xEF)
    (ok : secondByteOk lead second = true) (continues : isContinuation third = true)
    (rest : Bytes) :
    utf8Next lead (second :: third :: rest) = (some (Char.ofNat (lowBits lead 0x0F * 4096 +
      lowBits second 0x3F * 64 + lowBits third 0x3F)), rest) := by
  simp only [utf8Next, Bool.and_eq_true, decide_eq_true_eq, UInt8.le_iff_toNat_le,
    UInt8.lt_iff_toNat_lt, UInt8.reduceToNat]
  rw [if_neg (by omega), if_neg (by omega), if_pos first, if_pos ok, if_pos continues]

theorem utf8Next_four {fourth : UInt8} (first : 0xF0 ≤ lead.toNat ∧ lead.toNat ≤ 0xF4)
    (ok : secondByteOk lead second = true) (continues : isContinuation third = true)
    (ends : isContinuation fourth = true) (rest : Bytes) :
    utf8Next lead (second :: third :: fourth :: rest) = (some (Char.ofNat (lowBits lead 0x07 *
      262144 + lowBits second 0x3F * 4096 + lowBits third 0x3F * 64 + lowBits fourth 0x3F)),
      rest) := by
  simp only [utf8Next, Bool.and_eq_true, decide_eq_true_eq, UInt8.le_iff_toNat_le,
    UInt8.lt_iff_toNat_lt, UInt8.reduceToNat]
  rw [if_neg (by omega), if_neg (by omega), if_neg (by omega), if_pos first, if_pos ok,
    if_pos continues, if_pos ends]

theorem isContinuation_byte (low : code < 64) :
    isContinuation (UInt8.ofNat (code + 128)) = true ∧
      lowBits (UInt8.ofNat (code + 128)) 0x3F = code := by
  obtain ⟨range, bits, -⟩ := byte_bits (UInt8.ofNat (code + 128))
  rw [range, bits, toNat_byte (by omega)]
  omega

/-- The bytes of a character, read back. -/
theorem utf8Next_encode (c : Char) (rest : Bytes) :
    ∃ lead tail, String.utf8EncodeChar c = lead :: tail ∧
      utf8Next lead (tail ++ rest) = (some c, rest) := by
  have valid := toNat_valid c
  have value : Char.ofNat c.toNat = c := Char.ofNat_toNat c
  rw [utf8EncodeChar_eq]
  generalize c.toNat = code at valid value
  obtain ⟨last, low⟩ := isContinuation_byte (show code % 64 < 64 by omega)
  obtain ⟨third, lower⟩ := isContinuation_byte (show code / 64 % 64 < 64 by omega)
  split_ifs with one two three <;> refine ⟨_, _, rfl, ?_⟩ <;>
    simp only [List.cons_append, List.nil_append]
  · have lead := toNat_byte (show code < 256 by omega)
    have ascii : UInt8.ofNat code < 0x80 := by
      rw [UInt8.lt_iff_toNat_lt, lead]
      exact Nat.lt_succ_of_le one
    rw [utf8Next.eq_def, if_pos ascii, lead, value]
  · have lead := toNat_byte (show code / 64 % 32 + 192 < 256 by omega)
    obtain ⟨-, -, high, -⟩ := byte_bits (UInt8.ofNat (code / 64 % 32 + 192))
    rw [utf8Next_two (by omega) last, high, low, lead,
      show (code / 64 % 32 + 192) % 32 * 64 + code % 64 = code by omega, value]
  · have lead := toNat_byte (show code / 4096 % 16 + 224 < 256 by omega)
    have second := toNat_byte (show code / 64 % 64 + 128 < 256 by omega)
    obtain ⟨-, -, -, high, -⟩ := byte_bits (UInt8.ofNat (code / 4096 % 16 + 224))
    have ok : secondByteOk (UInt8.ofNat (code / 4096 % 16 + 224))
        (UInt8.ofNat (code / 64 % 64 + 128)) = true := by
      rw [secondByteOk_iff, lead, second]
      omega
    rw [utf8Next_three (by omega) ok last, high, lower, low, lead,
      show (code / 4096 % 16 + 224) % 16 * 4096 + code / 64 % 64 * 64 + code % 64 = code by omega,
      value]
  · have lead := toNat_byte (show code / 262144 % 8 + 240 < 256 by omega)
    have second := toNat_byte (show code / 4096 % 64 + 128 < 256 by omega)
    obtain ⟨-, -, -, -, high⟩ := byte_bits (UInt8.ofNat (code / 262144 % 8 + 240))
    obtain ⟨-, middle⟩ := isContinuation_byte (show code / 4096 % 64 < 64 by omega)
    have ok : secondByteOk (UInt8.ofNat (code / 262144 % 8 + 240))
        (UInt8.ofNat (code / 4096 % 64 + 128)) = true := by
      rw [secondByteOk_iff, lead, second]
      omega
    rw [utf8Next_four (by omega) ok third last, high, middle, lower, low, lead,
      show (code / 262144 % 8 + 240) % 8 * 262144 + code / 4096 % 64 * 4096 + code / 64 % 64 * 64 +
        code % 64 = code by omega, value]

/-! ## Characters that were read -/

theorem toNat_ofNat (valid : code < 0xD800 ∨ 0xDFFF < code ∧ code < 0x110000) :
    (Char.ofNat code).toNat = code := by
  unfold Char.ofNat
  rw [dif_pos (show code.isValidChar from valid)]
  rfl

theorem utf8EncodeChar_ofNat (valid : code < 0xD800 ∨ 0xDFFF < code ∧ code < 0x110000) :
    String.utf8EncodeChar (Char.ofNat code) =
      if code ≤ 127 then [UInt8.ofNat code]
      else if code ≤ 2047 then
        [UInt8.ofNat (code / 64 % 32 + 192), UInt8.ofNat (code % 64 + 128)]
      else if code ≤ 65535 then
        [UInt8.ofNat (code / 4096 % 16 + 224), UInt8.ofNat (code / 64 % 64 + 128),
          UInt8.ofNat (code % 64 + 128)]
      else
        [UInt8.ofNat (code / 262144 % 8 + 240), UInt8.ofNat (code / 4096 % 64 + 128),
          UInt8.ofNat (code / 64 % 64 + 128), UInt8.ofNat (code % 64 + 128)] := by
  rw [utf8EncodeChar_eq, toNat_ofNat valid]

theorem eq_ofNat (same : byte.toNat = code) :
    byte = UInt8.ofNat code := by
  rw [← same, UInt8.ofNat_toNat]

theorem encode_two (first : 0xC2 ≤ lead.toNat ∧ lead.toNat ≤ 0xDF)
    (continues : isContinuation second = true) :
    String.utf8EncodeChar (Char.ofNat (lowBits lead 0x1F * 64 + lowBits second 0x3F)) =
      [lead, second] := by
  obtain ⟨-, -, high, -⟩ := byte_bits lead
  obtain ⟨range, low, -⟩ := byte_bits second
  rw [range] at continues
  rw [high, low, utf8EncodeChar_ofNat (by omega), if_neg (by omega), if_pos (by omega)]
  refine List.cons_eq_cons.mpr ⟨(eq_ofNat ?_).symm, List.cons_eq_cons.mpr
    ⟨(eq_ofNat ?_).symm, rfl⟩⟩ <;>
    omega

theorem encode_three (first : 0xE0 ≤ lead.toNat ∧ lead.toNat ≤ 0xEF)
    (ok : secondByteOk lead second = true) (continues : isContinuation third = true) :
    String.utf8EncodeChar (Char.ofNat (lowBits lead 0x0F * 4096 + lowBits second 0x3F * 64 +
      lowBits third 0x3F)) = [lead, second, third] := by
  obtain ⟨-, -, -, high, -⟩ := byte_bits lead
  obtain ⟨-, middle, -⟩ := byte_bits second
  obtain ⟨range, low, -⟩ := byte_bits third
  have bounds := secondByteOk_iff.mp ok
  rw [range] at continues
  rw [high, middle, low, utf8EncodeChar_ofNat (by omega), if_neg (by omega), if_neg (by omega),
    if_pos (by omega)]
  refine List.cons_eq_cons.mpr ⟨(eq_ofNat ?_).symm, List.cons_eq_cons.mpr ⟨(eq_ofNat ?_).symm,
    List.cons_eq_cons.mpr ⟨(eq_ofNat ?_).symm, rfl⟩⟩⟩ <;>
    omega

theorem encode_four {fourth : UInt8} (first : 0xF0 ≤ lead.toNat ∧ lead.toNat ≤ 0xF4)
    (ok : secondByteOk lead second = true) (continues : isContinuation third = true)
    (ends : isContinuation fourth = true) :
    String.utf8EncodeChar (Char.ofNat (lowBits lead 0x07 * 262144 + lowBits second 0x3F * 4096 +
      lowBits third 0x3F * 64 + lowBits fourth 0x3F)) = [lead, second, third, fourth] := by
  obtain ⟨-, -, -, -, high⟩ := byte_bits lead
  obtain ⟨-, middle, -⟩ := byte_bits second
  obtain ⟨range, low, -⟩ := byte_bits third
  obtain ⟨range', last, -⟩ := byte_bits fourth
  have bounds := secondByteOk_iff.mp ok
  rw [range] at continues
  rw [range'] at ends
  rw [high, middle, low, last, utf8EncodeChar_ofNat (by omega), if_neg (by omega),
    if_neg (by omega), if_neg (by omega)]
  refine List.cons_eq_cons.mpr ⟨(eq_ofNat ?_).symm, List.cons_eq_cons.mpr ⟨(eq_ofNat ?_).symm,
    List.cons_eq_cons.mpr ⟨(eq_ofNat ?_).symm, List.cons_eq_cons.mpr
      ⟨(eq_ofNat ?_).symm, rfl⟩⟩⟩⟩ <;>
    omega

/-- The bytes read for a character are its encoding. -/
theorem encode_of_utf8Next {rest left : Bytes} (reads : utf8Next lead rest = (some c, left)) :
    lead :: rest = String.utf8EncodeChar c ++ left := by
  unfold utf8Next at reads
  simp only [Bool.and_eq_true, decide_eq_true_eq, UInt8.le_iff_toNat_le, UInt8.lt_iff_toNat_lt,
    UInt8.reduceToNat] at reads
  split at reads
  · rename_i ascii
    cases reads
    rw [utf8EncodeChar_ofNat (by omega), if_pos (by omega), UInt8.ofNat_toNat]
    rfl
  split at reads
  · rename_i range
    split at reads
    · split at reads
      · rename_i continues
        cases reads
        rw [encode_two range continues]
        rfl
      · cases reads
    · cases reads
  split at reads
  · rename_i range
    split at reads
    · split at reads
      · rename_i ok
        split at reads
        · split at reads
          · rename_i continues
            cases reads
            rw [encode_three range ok continues]
            rfl
          · cases reads
        · cases reads
      · cases reads
    · cases reads
  split at reads
  · rename_i range
    split at reads
    · split at reads
      · rename_i ok
        split at reads
        · split at reads
          · rename_i continues
            split at reads
            · split at reads
              · rename_i ends
                cases reads
                rw [encode_four range ok continues ends]
                rfl
              · cases reads
            · cases reads
          · cases reads
        · cases reads
      · cases reads
    · cases reads
  · cases reads

/-! ## Texts -/

theorem length_utf8Next_le (lead : UInt8) (rest : Bytes) :
    (utf8Next lead rest).2.length ≤ rest.length := by
  unfold utf8Next
  split_ifs
  · exact Nat.le_refl _
  · split
    · split_ifs <;> simp
    · exact Nat.le_refl _
  · split
    · split_ifs
      · split
        · split_ifs <;> simp
          omega
        · simp
      · exact Nat.le_refl _
    · exact Nat.le_refl _
  · split
    · split_ifs
      · split
        · split_ifs
          · split
            · split_ifs <;> simp
              omega
            · simp
          · simp
        · simp
      · exact Nat.le_refl _
    · exact Nat.le_refl _
  · exact Nat.le_refl _

/-- What follows a lead byte in a piece are continuation bytes. -/
theorem utf8Next_taken (lead : UInt8) (rest : Bytes) : ∃ taken,
    rest = taken ++ (utf8Next lead rest).2 ∧ (∀ byte ∈ taken, isContinuation byte = true) ∧
      (taken = [] → ∀ c ∈ (utf8Next lead rest).1, c = Char.ofNat lead.toNat ∧ lead < 0x80) := by
  have second_ : ∀ {second : UInt8}, secondByteOk lead second = true →
      isContinuation second = true := fun {second} ok =>
    (byte_bits second).1.mpr ⟨(secondByteOk_iff.mp ok).1, (secondByteOk_iff.mp ok).2.1⟩
  unfold utf8Next
  split_ifs with ascii two three four
  · exact ⟨[], rfl, nofun, fun _ c same => ⟨(Option.some.inj same).symm, ascii⟩⟩
  · cases rest with
    | nil => exact ⟨[], rfl, nofun, nofun⟩
    | cons second rest =>
      dsimp only
      split_ifs with ok
      · exact ⟨[second], rfl, by simpa using ok, nofun⟩
      · exact ⟨[], rfl, nofun, nofun⟩
  · cases rest with
    | nil => exact ⟨[], rfl, nofun, nofun⟩
    | cons second rest =>
      dsimp only
      split_ifs with ok
      · cases rest with
        | nil => exact ⟨[second], rfl, by simpa using second_ ok, nofun⟩
        | cons third rest =>
          dsimp only
          split_ifs with ok'
          · exact ⟨[second, third], rfl, by simp [second_ ok, ok'], nofun⟩
          · exact ⟨[second], rfl, by simpa using second_ ok, nofun⟩
      · exact ⟨[], rfl, nofun, nofun⟩
  · cases rest with
    | nil => exact ⟨[], rfl, nofun, nofun⟩
    | cons second rest =>
      dsimp only
      split_ifs with ok
      · cases rest with
        | nil => exact ⟨[second], rfl, by simpa using second_ ok, nofun⟩
        | cons third rest =>
          dsimp only
          split_ifs with ok'
          · cases rest with
            | nil => exact ⟨[second, third], rfl, by simp [second_ ok, ok'], nofun⟩
            | cons fourth rest =>
              dsimp only
              split_ifs with ok''
              · exact ⟨[second, third, fourth], rfl, by simp [second_ ok, ok', ok''], nofun⟩
              · exact ⟨[second, third], rfl, by simp [second_ ok, ok'], nofun⟩
          · exact ⟨[second], rfl, by simpa using second_ ok, nofun⟩
      · exact ⟨[], rfl, nofun, nofun⟩
  · exact ⟨[], rfl, nofun, nofun⟩

/-- A character does not begin with a continuation byte. -/
theorem encode_ne_continuation {tail : Bytes} (encoded : String.utf8EncodeChar c = lead :: tail) :
    isContinuation lead = false := by
  refine Bool.eq_false_iff.mpr fun continues => ?_
  have bounds := (byte_bits lead).1.mp continues
  rw [utf8EncodeChar_eq] at encoded
  split_ifs at encoded with one two three <;>
  · rw [← (List.cons.inj encoded).1, toNat_byte (by omega)] at bounds
    omega

/-- Fuel for every byte is enough. -/
theorem utf8Chars_fuel {fuel : Nat} (enough : input.length ≤ fuel) :
    utf8Chars fuel input = utf8Chars input.length input := by
  induction fuel using Nat.strongRecOn generalizing input with
  | ind fuel induction =>
    cases input with
    | nil => cases fuel <;> rfl
    | cons lead rest =>
      cases fuel with
      | zero => simp at enough
      | succ fuel =>
        have shorter := length_utf8Next_le lead rest
        rw [List.length_cons] at enough
        rw [List.length_cons, utf8Chars, utf8Chars]
        dsimp only
        rw [induction fuel (Nat.lt_succ_self _) (by omega),
          induction rest.length (by omega) shorter]

theorem utf8Chars_utf8_append (text : Str) (rest : Bytes) :
    utf8Chars (utf8 text ++ rest).length (utf8 text ++ rest) =
      text.map some ++ utf8Chars rest.length rest := by
  induction text with
  | nil => rfl
  | cons c text induction =>
    obtain ⟨lead, tail, encoded, reads⟩ := utf8Next_encode c (utf8 text ++ rest)
    have input : utf8 (c :: text) ++ rest = lead :: (tail ++ (utf8 text ++ rest)) := by
      rw [utf8_cons, encoded]
      simp
    rw [input, List.length_cons, utf8Chars]
    dsimp only
    rw [reads, utf8Chars_fuel (by simp), induction]
    rfl

theorem fromUtf8_utf8_append (text : Str) (rest : Bytes) :
    fromUtf8 (utf8 text ++ rest) = (fromUtf8 rest).map (text ++ ·) := by
  have all : ∀ text : Str, (text.map some).mapM id = some text := by
    intro text
    induction text with
    | nil => rfl
    | cons c text induction => simp [induction]
  unfold fromUtf8
  rw [utf8Chars_utf8_append, List.mapM_append, all]
  cases (utf8Chars rest.length rest).mapM id <;> rfl

theorem fromUtf8_utf8 (text : Str) : fromUtf8 (utf8 text) = some text := by
  have decoded := fromUtf8_utf8_append text []
  rw [List.append_nil] at decoded
  rw [decoded]
  exact congrArg some (List.append_nil text)

/-- A byte below 0x80 stands for itself. -/
theorem fromUtf8Lossy_utf8 (text : Str) : fromUtf8Lossy (utf8 text) = text := by
  have chars := utf8Chars_utf8_append text []
  rw [List.append_nil] at chars
  rw [fromUtf8Lossy, chars]
  simp [utf8Chars, Function.comp_def]

theorem ofNat_of_mem_encode (ascii : byte.toNat < 128) (member : byte ∈ String.utf8EncodeChar c) :
    Char.ofNat byte.toNat = c := by
  have value : Char.ofNat c.toNat = c := Char.ofNat_toNat c
  rw [utf8EncodeChar_eq] at member
  generalize c.toNat = code at member value
  split_ifs at member with one two three
  · rw [List.mem_singleton] at member
    rw [member, toNat_byte (show code < 256 by omega), value]
  · simp only [List.mem_cons, List.not_mem_nil, or_false] at member
    rcases member with rfl | rfl <;> rw [toNat_byte (by omega)] at ascii <;> omega
  · simp only [List.mem_cons, List.not_mem_nil, or_false] at member
    rcases member with rfl | rfl | rfl <;> rw [toNat_byte (by omega)] at ascii <;> omega
  · simp only [List.mem_cons, List.not_mem_nil, or_false] at member
    rcases member with rfl | rfl | rfl | rfl <;> rw [toNat_byte (by omega)] at ascii <;> omega

theorem mem_of_mem_utf8 {text : Str} (ascii : byte.toNat < 128) (member : byte ∈ utf8 text) :
    Char.ofNat byte.toNat ∈ text := by
  obtain ⟨c, inText, inChar⟩ := List.mem_flatMap.mp member
  rw [ofNat_of_mem_encode ascii inChar]
  exact inText

theorem utf8_of_utf8Chars {fuel : Nat} {text : Str} (enough : input.length ≤ fuel)
    (decoded : (utf8Chars fuel input).mapM id = some text) : utf8 text = input := by
  induction fuel generalizing input text with
  | zero =>
    cases List.length_eq_zero_iff.mp (Nat.le_zero.mp enough)
    cases decoded
    rfl
  | succ fuel induction =>
    cases input with
    | nil =>
      cases decoded
      rfl
    | cons lead rest =>
      have shorter := length_utf8Next_le lead rest
      rw [List.length_cons] at enough
      rw [utf8Chars] at decoded
      simp only [List.mapM_cons, id] at decoded
      obtain ⟨c, reads, decoded⟩ := Option.bind_eq_some_iff.mp decoded
      obtain ⟨tail, tail_decoded, whole⟩ := Option.bind_eq_some_iff.mp decoded
      cases whole
      rw [utf8_cons, induction (by omega) tail_decoded]
      exact (encode_of_utf8Next (Prod.ext reads rfl)).symm

/-- What `from_utf8` accepts is the encoding of its result. -/
theorem utf8_of_fromUtf8 {text : Str} (decoded : fromUtf8 input = some text) :
    utf8 text = input :=
  utf8_of_utf8Chars (Nat.le_refl _) decoded

end ApiSensor
