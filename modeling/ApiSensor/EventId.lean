import ApiSensor.Text

/-!
# Event ids

An id is made of a nonce of the running sensor, the time stamp of the event and a counter.
-/

namespace ApiSensor

/-- A running sensor: the clock in nanoseconds when the nonce was first needed, and the process. -/
structure Incarnation where
  clock : UInt64
  pid : UInt32

def Incarnation.seed (run : Incarnation) : UInt64 := run.clock ^^^ (run.pid.toUInt64 <<< 32)

def Incarnation.processNonce (run : Incarnation) : UInt64 :=
  let h := run.seed
  let h := (h ^^^ (h >>> 30)) * 0xbf58476d1ce4e5b9
  let h := (h ^^^ (h >>> 27)) * 0x94d049bb133111eb
  h ^^^ (h >>> 31)

/-- A number that fits into so many hexadecimal digits, filled up with zeros. -/
def lowerHex : Nat → Nat → Str
  | 0, _ => []
  | width + 1, n => lowerHex width (n / 16) ++ [(n % 16).digitChar]

/-- The id that the given call of an incarnation returns; calls count from zero. -/
def makeEventId (run : Incarnation) (call : Nat) (tsMs : UInt64) : Str :=
  let n := UInt64.ofNat call
  lowerHex 16 run.processNonce.toNat ++ '-' :: lowerHex 12 (tsMs &&& 0xffffffffffff).toNat ++
    '-' :: lowerHex 10 (n &&& 0xffffffffff).toNat

theorem length_lowerHex (width n : Nat) : (lowerHex width n).length = width := by
  induction width generalizing n with
  | zero => rfl
  | succ width induction => simp [lowerHex, induction]

theorem lowerHex_inj (width n m : Nat) :
    lowerHex width n = lowerHex width m ↔ n % 16 ^ width = m % 16 ^ width := by
  induction width generalizing n m with
  | zero => simp [lowerHex, Nat.mod_one]
  | succ width induction =>
    have digit : ∀ a < 16, ∀ b < 16, a.digitChar = b.digitChar ↔ a = b := by decide
    rw [lowerHex, lowerHex, List.append_singleton_inj, induction,
      digit _ (Nat.mod_lt _ (by decide)) _ (Nat.mod_lt _ (by decide)),
      Nat.pow_succ', Nat.mod_mul, Nat.mod_mul]
    omega

theorem xorShift_inj {a b : UInt64} (shift : UInt64) (positive : shift.toNat % 64 ≠ 0) :
    a ^^^ (a >>> shift) = b ^^^ (b >>> shift) ↔ a = b := by
  refine ⟨fun same => ?_, fun same => by rw [same]⟩
  have shifted : (a ^^^ b) ^^^ ((a ^^^ b) >>> shift) = 0 := by
    rw [UInt64.shiftRight_xor]
    calc
      _ = (a ^^^ (a >>> shift)) ^^^ (b ^^^ (b >>> shift)) := by ac_rfl
      _ = 0 := UInt64.xor_eq_zero_iff.mpr same
  -- Only zero is its own half.
  have fixed := congrArg UInt64.toNat (UInt64.xor_eq_zero_iff.mp shifted)
  rw [UInt64.toNat_shiftRight, Nat.shiftRight_eq_div_pow, eq_comm, Nat.div_eq_self] at fixed
  refine UInt64.xor_eq_zero_iff.mp (UInt64.toNat_inj.mp (fixed.resolve_right ?_))
  exact (Nat.one_lt_two_pow positive).ne'

theorem processNonce_inj (run run' : Incarnation) :
    run.processNonce = run'.processNonce ↔ run.seed = run'.seed := by
  simp only [Incarnation.processNonce]
  have first : IsUnit (0xbf58476d1ce4e5b9 : UInt64) := .of_mul_eq_one 0x96de1b173f119089 rfl
  have second : IsUnit (0x94d049bb133111eb : UInt64) := .of_mul_eq_one 0x319642b2d24d8ec3 rfl
  rw [xorShift_inj 31 (by decide), second.mul_left_inj, xorShift_inj 27 (by decide),
    first.mul_left_inj, xorShift_inj 30 (by decide)]

/-- Two calls return the same id exactly if the seeds of the two incarnations are the same, the time
stamps differ by a multiple of `2 ^ 48` and the numbers of the calls by a multiple of `2 ^ 40`. -/
theorem makeEventId_eq_iff (run run' : Incarnation) (call call' : Nat) (tsMs tsMs' : UInt64) :
    makeEventId run call tsMs = makeEventId run' call' tsMs' ↔ run.seed = run'.seed ∧
      tsMs.toNat % 2 ^ 48 = tsMs'.toNat % 2 ^ 48 ∧ call % 2 ^ 40 = call' % 2 ^ 40 := by
  have split {xs ys xs' ys' : Str} (same : xs.length = xs'.length) :
      xs ++ ys = xs' ++ ys' ↔ xs = xs' ∧ ys = ys' :=
    ⟨fun both => List.append_inj both same, fun both => by rw [both.1, both.2]⟩
  have stamp (ts : UInt64) : (ts &&& 0xffffffffffff).toNat = ts.toNat % 2 ^ 48 :=
    (UInt64.toNat_and _ _).trans (Nat.and_two_pow_sub_one_eq_mod _ 48)
  have number (k : Nat) : (UInt64.ofNat k &&& 0xffffffffff).toNat = k % 2 ^ 40 :=
    ((UInt64.toNat_and _ _).trans (Nat.and_two_pow_sub_one_eq_mod _ 40)).trans
      (Nat.mod_mod_of_dvd k (by decide))
  rw [makeEventId, makeEventId, split (by simp [length_lowerHex]),
    split (by simp [length_lowerHex]), List.cons_inj_right, List.cons_inj_right, lowerHex_inj,
    lowerHex_inj, lowerHex_inj, stamp, stamp, number, number, ← processNonce_inj, and_assoc,
    ← UInt64.toNat_inj]
  have small := run.processNonce.toNat_lt
  have small' := run'.processNonce.toNat_lt
  omega

end ApiSensor
