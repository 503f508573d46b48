import ApiSensor.Decoding.Framing
import ApiSensor.Quic

/-!
# HTTP/3 frames

`parse_h3_frames` inverts the encoding of frames, with numbers in any of the lengths that RFC 9000
allows, and stops at a frame that is not complete.
-/

namespace ApiSensor

/-! ## Encodings -/

/-- A number in `2 ^ k` octets (RFC 9000, 16). -/
def encodeVarint (k value : ℕ) : Bytes :=
  UInt8.ofNat (k * 64 + value / 256 ^ (2 ^ k - 1)) :: toBeBytes (2 ^ k - 1) value

/-- The encodings of a number: with one, two, four or eight octets, if it fits. -/
inductive IsVarint62 (value : ℕ) : Bytes → Prop
  | mk {k : ℕ} (size : k ≤ 3) (fits : value < 2 ^ (8 * 2 ^ k - 2)) :
      IsVarint62 value (encodeVarint k value)

/-- The encodings of a frame. -/
inductive H3Frame.Encodes (frame : H3Frame) : Bytes → Prop
  | mk {type length : Bytes} (isType : IsVarint62 frame.frameType type)
      (isLength : IsVarint62 frame.payload.length length) :
      H3Frame.Encodes frame (type ++ (length ++ frame.payload))

/-- The encodings of frames one after the other. -/
inductive H3Encodes : List H3Frame → Bytes → Prop
  | nil : H3Encodes [] []
  | cons {frame : H3Frame} {frames : List H3Frame} {first rest : Bytes}
      (encoded : frame.Encodes first) (others : H3Encodes frames rest) :
      H3Encodes (frame :: frames) (first ++ rest)

/-! ## Numbers -/

theorem foldl_digits (start : ℕ) (digits : Bytes) :
    digits.foldl (fun val byte => val * 256 + byte.toNat) start =
      start * 256 ^ digits.length + fromBeBytes digits := by
  induction digits using List.reverseRecOn with
  | nil => simp [fromBeBytes]
  | append_singleton digits byte induction =>
    rw [List.foldl_append, fromBeBytes_append_singleton, induction, List.length_append, Nat.pow_add]
    simp only [List.foldl_cons, List.foldl_nil, List.length_singleton, Nat.pow_one]
    rw [Nat.add_mul, Nat.mul_assoc, Nat.add_assoc]

variable {encoded tail : Bytes}

theorem IsVarint62.first {value : ℕ} (isVarint : IsVarint62 value encoded) :
    ∃ first rest, encoded = first :: rest ∧ encoded.length = 2 ^ (first.toNat / 64) ∧
      rest.foldl (fun val byte => val * 256 + byte.toNat) (first.toNat % 64) = value := by
  obtain ⟨size, fits⟩ := isVarint
  rename_i k
  have widths : ∀ k ≤ 3, 2 ^ (8 * 2 ^ k - 2) = 64 * 256 ^ (2 ^ k - 1) := by decide
  have top : value / 256 ^ (2 ^ k - 1) < 64 := by
    rw [widths k size] at fits
    exact Nat.div_lt_of_lt_mul (by rwa [Nat.mul_comm])
  have parts : ∀ high < 64, (UInt8.ofNat (k * 64 + high)).toNat / 64 = k ∧
      (UInt8.ofNat (k * 64 + high)).toNat % 64 = high := by
    intro high lt
    rw [UInt8.toNat_ofNat_of_lt' (show k * 64 + high < 256 by omega)]
    omega
  obtain ⟨form, high⟩ := parts _ top
  refine ⟨_, _, rfl, ?_, ?_⟩
  · have positive := Nat.two_pow_pos k
    rw [form, encodeVarint, List.length_cons, length_toBeBytes]
    omega
  · rw [high, foldl_digits, length_toBeBytes, fromBeBytes_toBeBytes]
    exact Nat.div_add_mod' _ _

theorem decodeVarint_encoded {value : ℕ} (isVarint : IsVarint62 value encoded) (rest : Bytes) :
    decodeVarint (encoded ++ rest) = some (value, encoded.length) := by
  obtain ⟨first, digits, rfl, length, value_eq⟩ := isVarint.first
  rw [List.length_cons] at length
  simp only [List.cons_append, decodeVarint, List.length_cons, List.length_append, ← length,
    Nat.add_sub_cancel, List.take_left, value_eq]
  rw [if_neg (by omega)]

/-- A number that is cut off is not read. -/
theorem decodeVarint_cut {value : ℕ} (isVarint : IsVarint62 value encoded) (cut : tail <+: encoded)
    (short : tail.length < encoded.length) : decodeVarint tail = none := by
  obtain ⟨first, digits, rfl, length, -⟩ := isVarint.first
  cases tail with
  | nil => rfl
  | cons byte tail =>
    obtain ⟨rfl, -⟩ := List.cons_prefix_cons.mp cut
    rw [decodeVarint]
    exact if_pos (length ▸ short)

/-! ## Frames -/

theorem parseH3Frame_encoded {frame : H3Frame} (encodes : frame.Encodes encoded) (rest : Bytes) :
    parseH3Frame (encoded ++ rest) = some (frame, encoded.length) := by
  obtain ⟨isType, isLength⟩ := encodes
  rename_i type length
  simp only [List.append_assoc, parseH3Frame, decodeVarint_encoded isType, List.drop_left,
    decodeVarint_encoded isLength]
  rw [if_neg (by simp only [List.length_append]; omega)]
  rw [← List.append_assoc, List.drop_left' List.length_append, List.take_left, List.length_append,
    List.length_append, Nat.add_assoc]

theorem parseH3Frame_cut {frame : H3Frame} (encodes : frame.Encodes encoded)
    (cut : tail <+: encoded) (short : tail.length < encoded.length) : parseH3Frame tail = none := by
  obtain ⟨isType, isLength⟩ := encodes
  rename_i type length
  rcases Nat.lt_or_ge tail.length type.length with inType | behindType
  · have cut := List.prefix_of_prefix_length_le cut (List.prefix_append _ _) inType.le
    rw [parseH3Frame, decodeVarint_cut isType cut inType]
  · obtain ⟨tail, rfl⟩ := List.prefix_of_prefix_length_le (List.prefix_append _ _) cut behindType
    have cut := (List.prefix_append_right_inj type).mp cut
    simp only [parseH3Frame, decodeVarint_encoded isType, List.drop_left]
    rcases Nat.lt_or_ge tail.length length.length with inLength | behindLength
    · have cut := List.prefix_of_prefix_length_le cut (List.prefix_append _ _) inLength.le
      rw [decodeVarint_cut isLength cut inLength]
    · obtain ⟨tail, rfl⟩ := List.prefix_of_prefix_length_le (List.prefix_append _ _) cut behindLength
      simp only [decodeVarint_encoded isLength]
      rw [if_pos]
      simp only [List.length_append] at short ⊢
      omega

theorem h3FrameLoop_encoded {frames : List H3Frame} (encodes : H3Encodes frames encoded)
    (stops : parseH3Frame tail = none) {fuel : ℕ} (enough : (encoded ++ tail).length ≤ fuel) :
    h3FrameLoop fuel (encoded ++ tail) = frames := by
  induction encodes generalizing fuel with
  | nil =>
    cases fuel with
    | zero => rfl
    | succ fuel =>
      rw [List.nil_append, h3FrameLoop, stops]
      exact ite_self _
  | @cons frame frames first rest encoded others induction =>
    have parsed := parseH3Frame_encoded encoded (rest ++ tail)
    have positive : 0 < first.length := by
      obtain ⟨isType, -⟩ := encoded
      obtain ⟨_, _, rfl, -⟩ := isType.first
      exact Nat.zero_lt_succ _
    simp only [List.append_assoc, List.length_append] at enough ⊢
    obtain ⟨fuel, rfl⟩ : ∃ more, fuel = more + 1 := ⟨fuel - 1, by omega⟩
    have some : (first ++ (rest ++ tail)).isEmpty = false := by
      rw [List.isEmpty_eq_false_iff, ← List.length_pos_iff, List.length_append]
      omega
    rw [h3FrameLoop, some, if_neg Bool.false_ne_true, parsed]
    dsimp only
    rw [List.drop_left, induction (by rw [List.length_append]; omega)]

/-- The frames of a list, encoded one after the other, are found in front of a frame that is not
complete, and nothing else is. -/
theorem parse_h3_frames_inverts {frames : List H3Frame} {frame : H3Frame}
    {encoded further tail : Bytes} (encodes : H3Encodes frames encoded)
    (another : frame.Encodes further) (cut : tail <+: further) (proper : tail ≠ further) :
    parseH3Frames (encoded ++ tail) = frames := by
  have short : tail.length < further.length :=
    lt_of_le_of_ne cut.length_le fun same => proper (cut.eq_of_length same)
  exact h3FrameLoop_encoded encodes (parseH3Frame_cut another cut short) (Nat.le_refl _)

/-- A DATA frame whose type takes two octets. -/
def dataFrame : H3Frame := ⟨0, [104, 105]⟩

theorem parse_h3_frames_inverts_data :
    parseH3Frames ([0x40, 0, 2, 104, 105] ++ [0, 2, 104]) = [dataFrame] := by
  have zero : IsVarint62 dataFrame.frameType (encodeVarint 1 0) := .mk (by decide) (by decide)
  have zero' : IsVarint62 dataFrame.frameType (encodeVarint 0 0) := .mk (by decide) (by decide)
  have two : IsVarint62 dataFrame.payload.length (encodeVarint 0 2) := .mk (by decide) (by decide)
  exact parse_h3_frames_inverts (H3Encodes.cons (.mk zero two) .nil) (.mk zero' two)
    ⟨[105], rfl⟩ (by decide)

end ApiSensor
