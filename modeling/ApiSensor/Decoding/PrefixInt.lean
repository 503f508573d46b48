import ApiSensor.Decoding.Qpack
import ApiSensor.Runtime

/-!
# Prefix integers

The two decoders for the integers of RFC 7541 agree on what the stricter one accepts, and the other
one inverts the encoding, without a run-time fault.
-/

namespace ApiSensor

open Library Library.Checked

theorem returns_eq {α : Type} {program : Checked α} {result : α} :
    Returns program (· = result) ↔ program = .ok result := by
  simp [Returns]

/-- The octets of one integer are the same for both loops. -/
theorem decodePrefixIntLoop_of_hpack {block : Bytes} {pos fuel result shift total : ℕ}
    {read : ℕ × ℕ} (width : shift + 7 = 7 * total) (few : total ≤ 4)
    (returned : Returns (Runtime.readHpackIntLoop block pos fuel result shift total (pos + total))
      (· = some read)) :
    Returns (Runtime.decodePrefixIntLoop (block.drop pos) (10 - total) result shift total)
      (· = some read) := by
  induction fuel generalizing result shift total with
  | zero => simp [Runtime.readHpackIntLoop, Returns] at returned
  | succ fuel induction =>
    rw [show 10 - total = (9 - total) + 1 by omega]
    simp only [Runtime.readHpackIntLoop, Runtime.decodePrefixIntLoop, returns_ite, returns_ok,
      returns_bind, returns_index, returns_add, returns_sub, reduceCtorEq, imp_false,
      Nat.not_le, List.length_drop, List.getElem?_drop] at returned ⊢
    obtain ⟨inside, more⟩ := returned
    obtain ⟨byte, found, small, next, last, continues⟩ := more (by omega)
    refine ⟨by omega, fun _ => ⟨byte, found, small, by omega, fun ends => ?_, fun high => ?_⟩⟩
    · rw [(last ends).2.symm]
      simp
      omega
    · obtain ⟨again, rest⟩ := continues high
      refine ⟨by omega, fun _ => ?_⟩
      rw [show 9 - total = 10 - (total + 1) by omega]
      exact induction (by omega) (by omega) (rest (by omega))

theorem decodePrefixInt_of_readHpackInt {block : Bytes} {pos bits : ℕ} {read : ℕ × ℕ}
    (returned : Runtime.readHpackInt block pos bits = .ok (some read)) :
    Runtime.decodePrefixInt (block.drop pos) bits = .ok (some read) := by
  rw [← returns_eq] at returned ⊢
  simp only [Runtime.readHpackInt, Runtime.decodePrefixInt, returns_ite, returns_ok, returns_bind,
    returns_index, returns_add, reduceCtorEq, imp_false, Nat.not_le, List.getElem?_drop,
    List.isEmpty_iff, List.drop_eq_nil_iff] at returned ⊢
  obtain ⟨inside, more⟩ := returned
  obtain ⟨byte, found, whole, extended⟩ := more (by omega)
  refine ⟨by omega, fun _ => ⟨byte, found, whole, fun full => ?_⟩⟩
  have val_eq : byte.toNat % 2 ^ bits = 2 ^ bits - 1 := by
    have := Nat.mod_lt byte.toNat (Nat.two_pow_pos bits)
    omega
  rw [val_eq]
  exact decodePrefixIntLoop_of_hpack rfl (by decide) (extended full).2

/-- The checked loop computes the plain one. -/
theorem decodePrefixIntLoop_returns_more {buf : Bytes} {fuel val m i : ℕ} (room : m + 7 * fuel = 63)
    (some : 0 < fuel) (start : i + fuel = 10) (bound : val < 256 + 2 ^ m) :
    Returns (Runtime.decodePrefixIntLoop buf fuel val m i)
      (· = decodePrefixIntMore val m i (buf.drop i)) := by
  induction fuel generalizing val m i with
  | zero => omega
  | succ fuel induction =>
    rcases Nat.lt_or_ge i buf.length with inside | outside
    · have digit := Runtime.digit_lt (buf[i]) bound
      have high : 2 ^ (m + 7) ≤ 2 ^ 63 := Nat.pow_le_pow_right Nat.two_pos (by omega)
      simp only [Runtime.decodePrefixIntLoop, returns_ite, returns_ok, returns_bind,
        returns_index, returns_add, List.drop_eq_getElem_cons inside, decodePrefixIntMore]
      refine ⟨by omega, fun _ => ⟨buf[i], List.getElem?_eq_getElem inside, by omega, by omega,
        fun last => by rw [if_pos last], fun more => ⟨fun long => ?_, fun short => ?_⟩⟩⟩
      · rw [if_neg more, if_pos long]
      · rw [if_neg more, if_neg short]
        exact induction (by omega) (by omega) (by omega) digit
    · simp only [Runtime.decodePrefixIntLoop, returns_ite, returns_ok,
        List.drop_eq_nil_of_le outside, decodePrefixIntMore]
      exact ⟨fun _ => trivial, fun inside => absurd outside inside⟩

theorem decodePrefixInt_eq (buf : Bytes) (bits : ℕ) :
    Runtime.decodePrefixInt buf bits = .ok (decodePrefixInt buf bits) := by
  rw [← returns_eq]
  cases buf with
  | nil => exact returns_ok.mpr rfl
  | cons byte rest =>
    have bound : byte.toNat % 2 ^ bits < 256 + 2 ^ 0 := by
      have := byte.toNat_lt
      have := Nat.mod_le byte.toNat (2 ^ bits)
      omega
    have loop := @decodePrefixIntLoop_returns_more (byte :: rest) 9 _ 0 1 rfl (by decide) rfl bound
    refine returns_bind.mpr (returns_index.mpr ⟨byte, rfl, returns_ite.mpr ⟨fun whole => ?_,
      fun full => ?_⟩⟩)
    · rw [decodePrefixInt, if_pos whole]
      exact returns_ok.mpr rfl
    · rw [decodePrefixInt, if_neg full]
      exact loop

theorem lt_pow_length_encodeDigits (value : ℕ) : value < 128 ^ (encodeDigits value).length := by
  induction value using Nat.strongRecOn with
  | ind value induction =>
    rw [encodeDigits]
    split
    case isTrue last => simpa using last
    case isFalse more =>
      have less := induction (value / 128) (by omega)
      rw [List.length_cons, Nat.pow_succ]
      omega

/-- `decode_prefix_int` returns what `read_hpack_int` returns, and inverts the encoding of integers
with at most nine octets behind the first one. -/
theorem prefix_int_decoders :
    (∀ (block : Bytes) (pos bits : ℕ) (read : ℕ × ℕ), 1 ≤ bits → bits ≤ 7 →
      Runtime.readHpackInt block pos bits = .ok (some read) →
      Runtime.decodePrefixInt (block.drop pos) bits = .ok (some read)) ∧
    ∀ (bits flags value : ℕ) (rest : Bytes), 1 ≤ bits → bits ≤ 8 → flags % 2 ^ bits = 0 →
      flags + 2 ^ bits ≤ 256 → (encodePrefixInt bits flags value).length ≤ 10 →
      Runtime.decodePrefixInt (encodePrefixInt bits flags value ++ rest) bits =
        .ok (some (value, (encodePrefixInt bits flags value).length)) := by
  refine ⟨fun _ _ _ _ _ _ => decodePrefixInt_of_readHpackInt,
    fun bits flags value rest _ _ aligned fits short => ?_⟩
  rw [decodePrefixInt_eq, decodePrefixInt_encode aligned fits]
  unfold encodePrefixInt at short
  split at short
  · omega
  · have digits := lt_pow_length_encodeDigits (value - (2 ^ bits - 1))
    have nine : 128 ^ (encodeDigits (value - (2 ^ bits - 1))).length ≤ 128 ^ 9 :=
      Nat.pow_le_pow_right (by decide) (Nat.le_of_succ_le_succ short)
    omega

end ApiSensor
