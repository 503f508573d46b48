import ApiSensor.Http2

/-!
# Limits of the HTTP/2 parser

Whatever a direction is fed and however its frame limit is moved, it holds less than one frame and
one header block of limited size.  A direction that has failed holds nothing and says nothing more.
-/

namespace ApiSensor

open Library

/-- A call on a direction. -/
inductive DirectionCall where
  | feed (data : Bytes)
  | setMaxFrame (size : Nat)

namespace Http2Direction

variable {P : Platform}

/-- Make one call. -/
def call (dir : Http2Direction P) : DirectionCall → Http2Direction P × List H2Item
  | .feed data => dir.feed data
  | .setMaxFrame size => (dir.setMaxFrame size, [])

/-- Make calls one after the other. -/
def callAll (dir : Http2Direction P) : List DirectionCall → Http2Direction P × List H2Item
  | [] => (dir, [])
  | first :: calls =>
    let result := dir.call first
    let rest := callAll result.1 calls
    (rest.1, result.2 ++ rest.2)

/-- The limits a direction keeps. -/
structure Bounded (dir : Http2Direction P) : Prop where
  frame : dir.maxFrame ≤ h2MaxAcceptedFrame
  buf : dir.buf.length < 9 + h2MaxAcceptedFrame
  block : dir.blockLength ≤ h2MaxHeaderBlockBytes
  failed : dir.broken = true → dir.buffered = 0

theorem default_le_accepted : h2DefaultMaxFrameSize ≤ h2MaxAcceptedFrame := by decide

theorem bounded_new (expectPreface : Bool) : (new expectPreface : Http2Direction P).Bounded :=
  ⟨default_le_accepted, Nat.succ_pos _, Nat.zero_le _, fun _ => rfl⟩

variable {dir : Http2Direction P}

section

variable (bounded : dir.Bounded)
include bounded

theorem Bounded.setMaxFrame (size : Nat) :
    (dir.setMaxFrame size).Bounded := by
  refine ⟨?_, bounded.buf, bounded.block, bounded.failed⟩
  exact Nat.max_le.mpr ⟨default_le_accepted, Nat.min_le_right _ _⟩

theorem Bounded.fail : dir.fail.Bounded :=
  ⟨bounded.frame, Nat.succ_pos _, Nat.zero_le _, fun _ => rfl⟩

/-- A frame keeps the limits of a direction that works. -/
theorem Bounded.onFrame (working : dir.broken = false) (ftype flags : UInt8) (streamId : UInt32)
    (payload : Bytes) :
    (dir.onFrame ftype flags streamId payload).1.Bounded := by
  have works : ¬ dir.broken = true := by simp [working]
  have step := frameStep_onFrame dir ftype flags streamId payload
  generalize dir.onFrame ftype flags streamId payload = result at step ⊢
  cases step with
  | failed => exact bounded.fail
  | opened limit _ =>
    exact ⟨bounded.frame, bounded.buf, limit, fun broken => absurd broken works⟩
  | decoded block =>
    obtain ⟨hpack, same⟩ := finishBlock_fst { dir with continuation := none } block
    rw [same]
    exact ⟨bounded.frame, bounded.buf, Nat.zero_le _, fun broken => absurd broken works⟩
  | announced size closed =>
    exact ⟨bounded.frame, bounded.buf, Nat.zero_le _, fun broken => absurd broken works⟩
  | handed items closed => exact bounded

/-- What is left of the input is less than a frame. -/
theorem Bounded.withBuf (working : dir.broken = false) {rest : Bytes}
    (short : rest.length < 9 + h2MaxAcceptedFrame) :
    { dir with buf := rest }.Bounded :=
  ⟨bounded.frame, short, bounded.block, fun broken => absurd broken (by simp [working])⟩

theorem Bounded.frames (working : dir.broken = false) {fuel : Nat} {rest : Bytes}
    (enough : rest.length ≤ fuel) :
    (frames fuel dir rest).1.Bounded := by
  induction fuel generalizing dir rest with
  | zero =>
    have empty : rest = [] := List.eq_nil_of_length_eq_zero (Nat.le_zero.mp enough)
    subst empty
    exact bounded.withBuf working (by decide)
  | succ fuel ih =>
    unfold frames
    split
    · rename_i short
      exact bounded.withBuf working (by omega)
    · rename_i header
      dsimp only
      split
      · exact bounded.fail
      · rename_i accepted
        split
        · rename_i incomplete
          have frame := bounded.frame
          exact bounded.withBuf working (by omega)
        · have next := bounded.onFrame working (rest.getD 3 0) (rest.getD 4 0)
            (streamIdOf ((rest.drop 5).take 4)) ((rest.drop 9).take (frameLength rest))
          split
          · exact next
          · rename_i goes_on
            refine ih next (by simpa using goes_on) ?_
            rw [List.length_drop]
            omega

theorem Bounded.feed (data : Bytes) :
    (dir.feed data).1.Bounded := by
  unfold Http2Direction.feed
  split
  · exact bounded
  · rename_i works
    have working : dir.broken = false := by simpa using works
    dsimp only
    split
    · exact bounded.frames working (Nat.le_refl _)
    · split
      · split
        · have ready : { dir with prefaceDone := true }.Bounded :=
            ⟨bounded.frame, bounded.buf, bounded.block, bounded.failed⟩
          exact ready.frames working (Nat.le_refl _)
        · exact bounded.fail
      · rename_i short
        split
        · have preface : http2ConnectionPreface.length < 9 + h2MaxAcceptedFrame := by decide
          exact bounded.withBuf working (by omega)
        · exact bounded.fail

theorem Bounded.callAll (calls : List DirectionCall) :
    (dir.callAll calls).1.Bounded := by
  induction calls generalizing dir with
  | nil => exact bounded
  | cons first calls ih =>
    cases first with
    | feed data => exact ih (bounded.feed data)
    | setMaxFrame size => exact ih (bounded.setMaxFrame size)

end

/-- A direction that has failed stays so and produces nothing. -/
theorem callAll_of_broken (broken : dir.broken = true) (calls : List DirectionCall) :
    (dir.callAll calls).1.broken = true ∧ (dir.callAll calls).2 = [] := by
  induction calls generalizing dir with
  | nil => exact ⟨broken, rfl⟩
  | cons first calls ih =>
    cases first with
    | feed data =>
      have silent : dir.feed data = (dir, []) := by rw [feed, if_pos broken]
      simp only [callAll, call, silent, List.nil_append]
      exact ih broken
    | setMaxFrame size =>
      have still : (dir.setMaxFrame size).broken = true := broken
      exact ih still

/-- After any calls on a new direction, its open header block and its trailing buffer are within
their limits, a further feed holds at most what it brings, and if the direction has failed it holds
nothing then and after any later calls, which produce no item. -/
theorem callAll_bounded (expectPreface : Bool) (calls : List DirectionCall) :
    let dir := ((new expectPreface : Http2Direction P).callAll calls).1
    dir.blockLength ≤ h2MaxHeaderBlockBytes ∧ dir.buf.length < 9 + h2MaxAcceptedFrame ∧
      (∀ data, (dir.feed data).1.buffered ≤ dir.buffered + data.length) ∧
      (dir.broken = true → dir.buffered = 0 ∧ ∀ later,
        (dir.callAll later).1.buffered = 0 ∧ (dir.callAll later).2 = []) := by
  intro dir
  have bounded : dir.Bounded := (bounded_new expectPreface).callAll calls
  refine ⟨bounded.block, bounded.buf, dir.buffered_feed_le, fun broken => ?_⟩
  refine ⟨bounded.failed broken, fun later => ?_⟩
  obtain ⟨still, silent⟩ := callAll_of_broken broken later
  exact ⟨(bounded.callAll later).failed still, silent⟩

end Http2Direction

end ApiSensor
