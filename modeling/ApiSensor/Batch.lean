import Mathlib.Algebra.Order.BigOperators.Group.List
import Mathlib.Algebra.Ring.Nat
import Mathlib.Tactic.SplitIfs

/-!
# Batches for the ingest service

`Batch` collects events until it reaches its number of events or its number of bytes.  One `push`
can return the batch that was there, the batch that it completes, or both.  Sizes and limits are
`usize`, whose sum wraps.
-/

namespace ApiSensor

/-- Events awaiting one ingest request. -/
structure Batch (ε : Type) where
  events : List ε
  bytes : UInt64
  maxEvents : UInt64
  maxBytes : UInt64
  /-- `EXPORT_OVERSIZED_DROPS`; `EVENTS_DROPPED` grows with it. -/
  oversizedDrops : UInt64

namespace Batch

variable {ε : Type}

def new (maxEvents maxBytes : UInt64) : Batch ε := ⟨[], 0, max maxEvents 1, maxBytes, 0⟩

def take (batch : Batch ε) : List ε × Batch ε :=
  (batch.events, { batch with events := [], bytes := 0 })

/-- The second half of `push`: the event is added, and a batch that has reached a limit is taken. -/
def add (batch : Batch ε) (ev : ε) (size : UInt64) : List (List ε) × Batch ε :=
  let batch := { batch with events := batch.events ++ [ev], bytes := batch.bytes + size }
  if batch.maxEvents.toNat ≤ batch.events.length ∨ batch.maxBytes ≤ batch.bytes then
    ([batch.take.1], batch.take.2)
  else ([], batch)

/-- Add an event and return the batches that are ready to send, oldest first. -/
def push (batch : Batch ε) (ev : ε) (size : UInt64) : List (List ε) × Batch ε :=
  if batch.maxBytes < size then
    ([], { batch with oversizedDrops := batch.oversizedDrops + 1 })
  else if batch.events ≠ [] ∧ batch.maxBytes < batch.bytes + size then
    let (ready, after) := batch.take.2.add ev size
    (batch.take.1 :: ready, after)
  else batch.add ev size

/-- The calls a batch gets; an event is pushed with its size. -/
inductive Call (ε : Type) where
  | push (ev : ε) (size : UInt64)
  | take

/-- What a call returns, and the batch afterwards.  The events of the batch carry their sizes. -/
def exec (batch : Batch (ε × UInt64)) : Call ε → List (List (ε × UInt64)) × Batch (ε × UInt64)
  | .push ev size => batch.push (ev, size) size
  | .take => ([batch.take.1], batch.take.2)

/-- The batches returned by each of the calls, and the batch afterwards. -/
def run (batch : Batch (ε × UInt64)) :
    List (Call ε) → List (Call ε × List (List (ε × UInt64))) × Batch (ε × UInt64)
  | [] => ([], batch)
  | call :: calls =>
    let (ready, next) := batch.exec call
    let (returned, final) := next.run calls
    ((call, ready) :: returned, final)

/-- The total size of some events. -/
def totalSize (events : List (ε × UInt64)) : Nat := (events.map fun item => item.2.toNat).sum

/-- The event of a push that can be sent at all. -/
def sendable (maxBytes : UInt64) : Call ε → List (ε × UInt64)
  | .push ev size => if size ≤ maxBytes then [(ev, size)] else []
  | .take => []

/-- A batch that is within its limits. -/
structure Sound (maxEvents maxBytes : UInt64) (events : List (ε × UInt64)) : Prop where
  nonempty : events ≠ []
  count : events.length ≤ max maxEvents.toNat 1
  size : totalSize events ≤ maxBytes.toNat

/-- What is kept between two calls: nothing, or less than either limit. -/
def Below (maxEvents maxBytes : UInt64) (events : List (ε × UInt64)) : Prop :=
  events = [] ∨ events.length < max maxEvents.toNat 1 ∧ totalSize events < maxBytes.toNat

/-- Batching conserves events, their order and the limits. -/
structure Conserves (maxEvents maxBytes : UInt64) (calls : List (Call ε)) : Prop where
  /-- Every batch returned by a push is within the limits. -/
  sound : ∀ entry ∈ ((new maxEvents maxBytes).run calls).1, entry.1 ≠ .take →
    ∀ ready ∈ entry.2, Sound maxEvents maxBytes ready
  /-- What was returned and what is kept are the events pushed, without those too large to send. -/
  all : (((new maxEvents maxBytes).run calls).1.flatMap fun entry => entry.2.flatten) ++
    ((new maxEvents maxBytes).run calls).2.events = calls.flatMap (sendable maxBytes)
  /-- What is kept is below the limits. -/
  below : Below maxEvents maxBytes ((new maxEvents maxBytes).run calls).2.events

/-! ## One call -/

@[simp]
theorem totalSize_append (first second : List (ε × UInt64)) :
    totalSize (first ++ second) = totalSize first + totalSize second := by
  simp [totalSize]

@[simp]
theorem totalSize_nil : totalSize ([] : List (ε × UInt64)) = 0 := rfl

@[simp]
theorem totalSize_singleton (item : ε × UInt64) : totalSize [item] = item.2.toNat := by
  simp [totalSize]

/-- The state of a batch between two calls: the bytes are the total size, and below the limits. -/
structure Settled (maxEvents maxBytes : UInt64) (batch : Batch (ε × UInt64)) : Prop where
  maxEvents_ : batch.maxEvents.toNat = max maxEvents.toNat 1
  maxBytes_ : batch.maxBytes = maxBytes
  bytes : batch.bytes.toNat = totalSize batch.events
  below : Below maxEvents maxBytes batch.events

/-- Limits under which no sum of sizes wraps. -/
def Tame (maxEvents maxBytes : UInt64) : Prop := maxBytes.toNat ≤ 2 ^ 63 ∨ maxEvents.toNat ≤ 1

section Calls

variable {maxEvents maxBytes : UInt64} {batch : Batch (ε × UInt64)}

theorem toNat_max (first second : UInt64) : (max first second).toNat =
    max first.toNat second.toNat := by
  rw [UInt64.max_def, Nat.max_def]
  simp only [UInt64.le_iff_toNat_le]
  split_ifs <;> rfl

theorem settled_new : Settled maxEvents maxBytes (new maxEvents maxBytes : Batch (ε × UInt64)) where
  maxEvents_ := toNat_max maxEvents 1
  maxBytes_ := rfl
  bytes := rfl
  below := .inl rfl

section

variable (settled : Settled maxEvents maxBytes batch)
include settled

theorem Settled.take :
    Settled maxEvents maxBytes batch.take.2 where
  maxEvents_ := settled.maxEvents_
  maxBytes_ := settled.maxBytes_
  bytes := rfl
  below := .inl rfl

/-- A batch that has anything in it is within the limits. -/
theorem Settled.sound (some_ : batch.events ≠ []) :
    Sound maxEvents maxBytes batch.events := by
  obtain ⟨count, size⟩ := settled.below.resolve_left some_
  exact ⟨some_, count.le, size.le⟩

/-- A sendable event does not make the sum wrap. -/
theorem Settled.toNat_add (tame : Tame maxEvents maxBytes) {size : UInt64}
    (small : size.toNat ≤ maxBytes.toNat) :
    (batch.bytes + size).toNat = totalSize batch.events + size.toNat := by
  have word := size.toNat_lt
  have bounded : batch.bytes.toNat + size.toNat < 2 ^ 64 := by
    rcases settled.below with empty | ⟨count, bytes⟩
    · rw [settled.bytes, empty, totalSize_nil]
      omega
    · rw [settled.bytes]
      rcases tame with moderate | single
      · omega
      · -- a batch of one event is never kept
        have none_ : batch.events = [] := List.eq_nil_of_length_eq_zero (by omega)
        rw [none_, totalSize_nil]
        omega
  rw [UInt64.toNat_add, Nat.mod_eq_of_lt bounded, settled.bytes]

end

/-- What a call does to a settled batch. -/
structure Step (maxEvents maxBytes : UInt64) (batch : Batch (ε × UInt64))
    (added : List (ε × UInt64)) (result : List (List (ε × UInt64)) × Batch (ε × UInt64)) :
    Prop where
  sound : ∀ ready ∈ result.1, Sound maxEvents maxBytes ready
  all : result.1.flatten ++ result.2.events = batch.events ++ added
  settled : Settled maxEvents maxBytes result.2

section

variable (settled : Settled maxEvents maxBytes batch)
include settled

theorem Settled.step_add (item : ε × UInt64)
    (exact_ : (batch.bytes + item.2).toNat = totalSize batch.events + item.2.toNat)
    (fits : totalSize batch.events + item.2.toNat ≤ maxBytes.toNat) :
    Step maxEvents maxBytes batch [item] (batch.add item item.2) := by
  have count : batch.events.length + 1 ≤ max maxEvents.toNat 1 := by
    rcases settled.below with empty | ⟨count, -⟩
    · simp [empty]
    · exact count
  unfold add
  dsimp only
  split_ifs with full
  · refine ⟨fun ready member => ?_, by simp [Batch.take], ?_⟩
    · rw [List.mem_singleton.mp member]
      exact ⟨by simp [Batch.take], by simpa [Batch.take] using count,
        by simpa [Batch.take] using fits⟩
    · exact ⟨settled.maxEvents_, settled.maxBytes_, rfl, .inl rfl⟩
  · rw [not_or, settled.maxEvents_, settled.maxBytes_, UInt64.le_iff_toNat_le, exact_] at full
    refine ⟨by simp, by simp, settled.maxEvents_, settled.maxBytes_, ?_, .inr ⟨?_, ?_⟩⟩
    · simpa using exact_
    · exact Nat.lt_of_not_le full.1
    · simpa using Nat.lt_of_not_le full.2

theorem Settled.step_push (tame : Tame maxEvents maxBytes) (ev : ε) (size : UInt64) :
    Step maxEvents maxBytes batch (sendable maxBytes (.push ev size))
      (batch.push (ev, size) size) := by
  by_cases large : maxBytes < size
  · rw [push, settled.maxBytes_, if_pos large, sendable, if_neg (UInt64.not_le.mpr large)]
    exact ⟨by simp, by simp, settled.maxEvents_, rfl, settled.bytes, settled.below⟩
  have small : size.toNat ≤ maxBytes.toNat := UInt64.le_iff_toNat_le.mp (UInt64.not_lt.mp large)
  rw [push, settled.maxBytes_, if_neg large, sendable, if_pos (UInt64.not_lt.mp large)]
  split_ifs with late
  · -- the event does not fit, so the batch that is there goes first
    have alone := settled.take.toNat_add tame small
    have rest := settled.take.step_add (ev, size) alone (by simpa [Batch.take] using small)
    refine ⟨fun ready member => ?_, ?_, rest.settled⟩
    · rcases List.mem_cons.mp member with rfl | later
      · exact settled.sound late.1
      · exact rest.sound ready later
    · have all := rest.all
      simp only [Batch.take, List.nil_append] at all
      simpa [Batch.take] using all
  · have sum := settled.toNat_add tame small
    refine settled.step_add (ev, size) sum ?_
    by_cases empty : batch.events = []
    · simpa [empty] using small
    · have within := UInt64.not_lt.mp fun less => late ⟨empty, less⟩
      rwa [UInt64.le_iff_toNat_le, sum] at within

/-- A call on a settled batch.  What `take` returns can be empty. -/
theorem Settled.exec (tame : Tame maxEvents maxBytes) (call : Call ε) :
    (call ≠ .take → ∀ ready ∈ (batch.exec call).1, Sound maxEvents maxBytes ready) ∧
      (batch.exec call).1.flatten ++ (batch.exec call).2.events =
        batch.events ++ sendable maxBytes call ∧
      Settled maxEvents maxBytes (batch.exec call).2 := by
  cases call with
  | push ev size =>
    have step := settled.step_push tame ev size
    exact ⟨fun _ => step.sound, step.all, step.settled⟩
  | take => exact ⟨fun other => absurd rfl other, by simp [Batch.exec, Batch.take, sendable],
      settled.take⟩

end

end Calls

/-! ## Sequences of calls -/

theorem Settled.run {maxEvents maxBytes : UInt64} {batch : Batch (ε × UInt64)}
    (settled : Settled maxEvents maxBytes batch) (tame : Tame maxEvents maxBytes)
    (calls : List (Call ε)) :
    (∀ entry ∈ (batch.run calls).1, entry.1 ≠ .take →
        ∀ ready ∈ entry.2, Sound maxEvents maxBytes ready) ∧
      ((batch.run calls).1.flatMap fun entry => entry.2.flatten) ++ (batch.run calls).2.events =
        batch.events ++ calls.flatMap (sendable maxBytes) ∧
      Settled maxEvents maxBytes (batch.run calls).2 := by
  induction calls generalizing batch with
  | nil => exact ⟨by simp [Batch.run], by simp [Batch.run], settled⟩
  | cons call calls induction =>
    obtain ⟨sound, all, next⟩ := settled.exec tame call
    obtain ⟨later, rest, final⟩ := induction next
    refine ⟨fun entry member => ?_, ?_, final⟩
    · rcases List.mem_cons.mp member with rfl | member
      · exact sound
      · exact later entry member
    · simp only [Batch.run, List.flatMap_cons, List.append_assoc, rest]
      rw [← List.append_assoc, all, List.append_assoc]

/-- Half the address space. -/
def half : UInt64 := 0x8000000000000000

theorem toNat_half : half.toNat = 2 ^ 63 := rfl

theorem half_add_half : half + half = 0 := rfl

section Wrapping

variable [Inhabited ε] {maxEvents maxBytes : UInt64}

/-- Two events of half the address space each. -/
def halves : List (Call ε) := [.push default half, .push default half]

/-- What is in the batch after the first half. -/
def oneHalf (maxEvents maxBytes : UInt64) : Batch (ε × UInt64) :=
  ⟨[(default, half)], half, max maxEvents 1, maxBytes, 0⟩

/-- What is in the batch after both, whose sizes add up to nothing. -/
def bothHalves (maxEvents maxBytes : UInt64) : Batch (ε × UInt64) :=
  ⟨[(default, half), (default, half)], 0, max maxEvents 1, maxBytes, 0⟩

theorem totalSize_bothHalves :
    totalSize (bothHalves maxEvents maxBytes : Batch (ε × UInt64)).events = 2 ^ 64 := by
  simp [totalSize, bothHalves, toNat_half]

theorem push_new (large : 2 ^ 63 < maxBytes.toNat) (several : 1 < maxEvents.toNat) :
    (new maxEvents maxBytes : Batch (ε × UInt64)).push (default, half) half =
      ([], oneHalf maxEvents maxBytes) := by
  have fits : ¬ maxBytes < half := by
    rw [UInt64.lt_iff_toNat_lt, toNat_half]
    exact not_lt.mpr large.le
  have room : ¬ ((max maxEvents 1).toNat ≤ 1 ∨ maxBytes ≤ half) := by
    rw [toNat_max, UInt64.le_iff_toNat_le, toNat_half]
    exact not_or.mpr ⟨not_le.mpr (lt_max_of_lt_left several), not_le.mpr large⟩
  simp [push, new, add, fits, room, oneHalf]

/-- Neither limit stops the second half. -/
theorem push_oneHalf (large : 2 ^ 63 < maxBytes.toNat) :
    (oneHalf maxEvents maxBytes : Batch (ε × UInt64)).push (default, half) half =
      if (max maxEvents 1).toNat ≤ 2 then
        ([(bothHalves maxEvents maxBytes).events], (bothHalves maxEvents maxBytes).take.2)
      else ([], bothHalves maxEvents maxBytes) := by
  have fits : ¬ maxBytes < half := by
    rw [UInt64.lt_iff_toNat_lt, toNat_half]
    exact not_lt.mpr large.le
  have positive : ¬ maxBytes ≤ 0 := by
    rw [UInt64.le_iff_toNat_le, UInt64.toNat_zero]
    omega
  have wraps : ¬ maxBytes < 0 := fun less => positive (UInt64.le_of_lt less)
  simp [push, oneHalf, add, fits, half_add_half, wraps, positive, bothHalves, take]

theorem not_conserves_halves (large : 2 ^ 63 < maxBytes.toNat) (several : 1 < maxEvents.toNat) :
    ¬ Conserves maxEvents maxBytes (halves : List (Call ε)) := by
  intro conserves
  have word := maxBytes.toNat_lt
  have total := @totalSize_bothHalves ε _ maxEvents maxBytes
  have sound := conserves.sound
  have below := conserves.below
  simp only [halves, run, exec, push_new large several, push_oneHalf large]
    at sound below
  split_ifs at sound below
  · have within := (sound _ (List.mem_cons_of_mem _ List.mem_cons_self) (by simp) _
      List.mem_cons_self).size
    omega
  · rcases below with empty | ⟨-, size⟩
    · exact absurd empty (by simp [bothHalves])
    · have huge : totalSize (bothHalves maxEvents maxBytes : Batch (ε × UInt64)).events <
          maxBytes.toNat := size
      omega

end Wrapping

/-- Batching conserves events, order and limits in every sequence of calls exactly if the limits
keep the sum of two sizes from wrapping. -/
theorem batch_conserves_iff [Inhabited ε] (maxEvents maxBytes : UInt64) :
    (∀ calls : List (Call ε), Conserves maxEvents maxBytes calls) ↔
      maxBytes.toNat ≤ 2 ^ 63 ∨ maxEvents.toNat ≤ 1 := by
  constructor
  · intro always
    by_contra wild
    rw [not_or, not_le, not_le] at wild
    exact not_conserves_halves wild.1 wild.2 (always halves)
  · intro tame calls
    obtain ⟨sound, all, settled⟩ := settled_new.run tame calls
    exact ⟨sound, all, settled.below⟩

/-- Two events of half the address space each are returned as one batch. -/
theorem batch_exceeds_max_bytes :
    (((new 2 0xffffffffffffffff).run [.push "a" half, .push "b" half]).1.map Prod.snd =
        [[], [[("a", half), ("b", half)]]]) ∧
      (0xffffffffffffffff : UInt64).toNat < totalSize [("a", half), ("b", half)] := by
  decide +kernel

end Batch

end ApiSensor
