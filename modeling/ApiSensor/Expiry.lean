import ApiSensor.Stream.Measure

/-!
# Expiry of pending requests

`PendingStreams::expire_take` looks at every request.  `PendingQueue::expire_take` stops at the
first request that is not stale, so a stale request behind it stays: timestamps are those of the
wall clock and need not be sorted.
-/

namespace ApiSensor

open Library

variable {P : Platform}

/-- `expire_take` returns the stale requests, keeps the others in their order, and lowers the charge
by the size of what it returns. -/
structure PendingQueue.TakesStale (nowMs ttlMs : Nat) (queue : PendingQueue P) : Prop where
  taken : (queue.expireTake nowMs ttlMs).1 = queue.items.filter (ParsedRequest.expired nowMs ttlMs)
  kept : (queue.expireTake nowMs ttlMs).2.items =
    queue.items.filter fun req => !req.expired nowMs ttlMs
  bytes : (queue.expireTake nowMs ttlMs).2.bytes + requestBytes P (queue.expireTake nowMs ttlMs).1 =
    queue.bytes

/-- The same for requests by stream.  They are returned in the order of their streams. -/
structure PendingStreams.TakesStale (nowMs ttlMs : Nat) (streams : PendingStreams P) : Prop where
  taken : (expireTake streams nowMs ttlMs).1.Perm
    (streams.map.values.filter (ParsedRequest.expired nowMs ttlMs))
  kept : (expireTake streams nowMs ttlMs).2.map.entries =
    streams.map.entries.filter fun entry => !entry.2.expired nowMs ttlMs
  bytes : (expireTake streams nowMs ttlMs).2.bytes +
    requestBytes P (expireTake streams nowMs ttlMs).1 = streams.bytes

/-- No stale item stands behind one that is not stale. -/
def StaleFirst {α : Type} (stale : α → Bool) (items : List α) : Prop :=
  items.Pairwise fun earlier later => stale later = true → stale earlier = true

section Front

variable {α : Type} {stale : α → Bool} {items : List α}

theorem staleFirst_of_fresh (fresh : ∀ item ∈ items, ¬ stale item = true) :
    StaleFirst stale items :=
  List.pairwise_iff_forall_sublist.mpr fun inside later =>
    absurd later (fresh _ (inside.subset (by simp)))

/-- The front of the list is all that is stale. -/
theorem StaleFirst.split (sorted : StaleFirst stale items) :
    items.takeWhile stale = items.filter stale ∧
      items.dropWhile stale = items.filter fun item => !stale item := by
  induction items with
  | nil => exact ⟨rfl, rfl⟩
  | cons item items induction =>
    obtain ⟨behind, sorted⟩ := List.pairwise_cons.mp sorted
    cases here : stale item with
    | true => simp [here, induction sorted]
    | false =>
      have fresh : ∀ later ∈ items, stale later = false := by
        intro later member
        exact Bool.eq_false_iff.mpr fun old => by simpa [here] using behind later member old
      have none : items.filter stale = [] :=
        List.filter_eq_nil_iff.mpr fun later member => by simp [fresh later member]
      have all : (items.filter fun item => !stale item) = items :=
        List.filter_eq_self.mpr fun later member => by simp [fresh later member]
      simp [here, none, all]

theorem staleFirst_of_takeWhile (exact : items.takeWhile stale = items.filter stale) :
    StaleFirst stale items := by
  induction items with
  | nil => exact .nil
  | cons item items induction =>
    cases here : stale item with
    | true =>
      rw [List.takeWhile_cons_of_pos here, List.filter_cons_of_pos here, List.cons.injEq] at exact
      exact List.pairwise_cons.mpr ⟨fun _ _ _ => here, induction exact.2⟩
    | false =>
      refine staleFirst_of_fresh (List.filter_eq_nil_iff.mp ?_)
      rw [← exact, List.takeWhile_cons_of_neg (by simp [here])]

end Front

theorem PendingStreams.takesStale (nowMs ttlMs : Nat) (streams : PendingStreams P) :
    PendingStreams.TakesStale nowMs ttlMs streams where
  taken := by
    have sorted := List.perm_insertionSort
      (fun first second : UInt32 × ParsedRequest => first.1 ≤ second.1)
      (streams.map.retain fun _ req => req.expired nowMs ttlMs).entries
    refine (sorted.map Prod.snd).trans ?_
    rw [Dict.values, List.filter_map]
    exact .refl _
  kept := rfl
  bytes := by
    have split := weigh_expireTake (ParsedRequest.approxBytes P) streams nowMs ttlMs
    have left := (expireTake streams nowMs ttlMs).2.accounted
    rw [left, streams.accounted, Nat.add_comm]
    exact split

/-- `expire_take` of a queue takes exactly the stale requests if and only if none of them stands
behind one that is not stale.  `expire_take` of streams always does. -/
theorem expire_take_exact_iff (nowMs ttlMs : Nat) (queue : PendingQueue P)
    (streams : PendingStreams P) :
    (queue.TakesStale nowMs ttlMs ↔ StaleFirst (ParsedRequest.expired nowMs ttlMs) queue.items) ∧
      PendingStreams.TakesStale nowMs ttlMs streams := by
  refine ⟨⟨fun takes => staleFirst_of_takeWhile takes.taken, fun sorted => ?_⟩,
    PendingStreams.takesStale nowMs ttlMs streams⟩
  obtain ⟨taken, kept⟩ := sorted.split
  refine ⟨taken, kept, ?_⟩
  have split := PendingQueue.weigh_expireTake (ParsedRequest.approxBytes P) queue nowMs ttlMs
  rw [(queue.expireTake nowMs ttlMs).2.accounted, queue.accounted, Nat.add_comm]
  exact split

/-- A request that was seen at a time. -/
def seenAt (tsMs : Nat) : ParsedRequest :=
  ⟨str "GET", str "/", none, .empty, tsMs, {}, []⟩

/-- The clock was set back by 100 ms between two requests.  The second one is stale at 1060 ms with
a time to live of 50 ms and stays behind the first one. -/
def clockSetBack : PendingQueue asciiPlatform :=
  ⟨[seenAt 1100, seenAt 1000], _, rfl⟩

theorem stale_request_kept : (seenAt 1000).expired 1060 50 = true ∧
    (clockSetBack.expireTake 1060 50).1 = [] ∧ ¬ clockSetBack.TakesStale 1060 50 := by
  refine ⟨by decide, by decide, fun takes => ?_⟩
  exact absurd takes.taken (by decide)

end ApiSensor
