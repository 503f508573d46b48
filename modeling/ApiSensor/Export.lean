import ApiSensor.Library.Run
import Mathlib.Algebra.Order.BigOperators.Group.List
import Mathlib.Tactic.Ring

/-!
# The export queue

`ExportSender::try_send` reserves the size of an event, queues the event and gives the reservation
back if the channel refuses it; `ExportReceiver::recv` releases the reservation of what it takes.
Producers and the consumer share the budget, the channel and some counters, and every access to
them is one atomic step.  The scheduler decides who moves, whether a weak exchange fails for no
reason and whether the channel refuses.
-/

namespace ApiSensor
namespace Export

open Library

/-- The number of values of `usize`. -/
def wordSize : Nat := 2 ^ 64

def checkedAdd (a b : Nat) : Option Nat := if a + b < wordSize then some (a + b) else none

def wrappingSub (a b : Nat) : Nat := (a + (wordSize - b % wordSize)) % wordSize

def wrappingAdd (a b : Nat) : Nat := (a + b) % wordSize

/-- What the threads share: the budget, the bounded channel and the counters. -/
structure Shared (ε : Type) where
  used : Nat
  limit : Nat
  queue : List (ε × Nat)
  capacity : Nat
  /-- `EXPORT_QUEUE_BYTES`. -/
  queueBytes : Nat
  /-- `EXPORT_QUEUE_BYTE_DROPS`. -/
  queueByteDrops : Nat
  /-- `EVENTS_DROPPED`. -/
  eventsDropped : Nat
  deriving DecidableEq

/-- A call of `try_send`, by the step it takes next. -/
inductive TrySend (ε : Type) where
  /-- `Budget::reserve` loads the value in use. -/
  | load (ev : ε)
  /-- The loop of `Budget::reserve` with the value it knows. -/
  | exchange (ev : ε) (cur : Nat)
  /-- The reservation is made and the counter of queued bytes is to be stored. -/
  | publish (ev : ε) (next : Nat)
  | send (ev : ε)
  /-- The channel has refused the event. -/
  | release (ev : ε)
  | publishRelease (ev : ε) (prev : Nat)
  /-- The budget has refused the event. -/
  | countByteDrop (ev : ε)
  | countDrop (ev : ε)
  | returned (ev : ε) (ok : Bool)
  deriving DecidableEq

/-- The consumer, by the step it takes next. -/
inductive Recv (ε : Type) where
  | wait
  | release (item : ε × Nat)
  | publishRelease (item : ε × Nat) (prev : Nat)
  deriving DecidableEq

/-- All threads.  Calls are numbered in the order in which they are made. -/
structure System (ε : Type) where
  shared : Shared ε
  calls : List (TrySend ε)
  recv : Recv ε
  /-- What `recv` has returned. -/
  received : List (ε × Nat)
  deriving DecidableEq

/-- What the scheduler can choose. -/
inductive Act (ε : Type) where
  | call (ev : ε)
  /-- A call takes a step; an unlucky exchange or send fails. -/
  | send (index : Nat) (lucky : Bool)
  | recv
  deriving DecidableEq

variable {ε : Type} (size : ε → Nat)

/-- `export_channel`. -/
def exportChannel (maxEvents maxBytes : Nat) : System ε where
  shared := ⟨0, maxBytes, [], max maxEvents 1, 0, 0, 0⟩
  calls := []
  recv := .wait
  received := []

/-- The next step of `try_send`. -/
def TrySend.step (lucky : Bool) (shared : Shared ε) : TrySend ε → Option (Shared ε × TrySend ε)
  | .load ev => some (shared, .exchange ev shared.used)
  | .exchange ev cur =>
    match (checkedAdd cur (size ev)).filter (· ≤ shared.limit) with
    | none => some (shared, .countByteDrop ev)
    | some next =>
      if lucky && shared.used = cur then some ({ shared with used := next }, .publish ev next)
      else some (shared, .exchange ev shared.used)
  | .publish ev next => some ({ shared with queueBytes := next }, .send ev)
  | .send ev =>
    if lucky && shared.queue.length < shared.capacity then
      some ({ shared with queue := shared.queue ++ [(ev, size ev)] }, .returned ev true)
    else some (shared, .release ev)
  | .release ev =>
    some ({ shared with used := wrappingSub shared.used (size ev) },
      .publishRelease ev shared.used)
  | .publishRelease ev prev => some ({ shared with queueBytes := prev - size ev }, .countDrop ev)
  | .countByteDrop ev =>
    some ({ shared with queueByteDrops := wrappingAdd shared.queueByteDrops 1 }, .countDrop ev)
  | .countDrop ev =>
    some ({ shared with eventsDropped := wrappingAdd shared.eventsDropped 1 },
      .returned ev false)
  | .returned _ _ => none

/-- The next step of `recv`; on an empty channel there is none. -/
def Recv.step (st : System ε) : Option (System ε) :=
  match st.recv with
  | .wait =>
    match st.shared.queue with
    | [] => none
    | item :: rest => some { st with
        shared := { st.shared with queue := rest }
        recv := .release item }
  | .release item => some { st with
      shared := { st.shared with used := wrappingSub st.shared.used item.2 }
      recv := .publishRelease item st.shared.used }
  | .publishRelease item prev => some { st with
      shared := { st.shared with queueBytes := prev - item.2 }
      recv := .wait
      received := st.received ++ [item] }

/-- One atomic step. -/
def System.exec (st : System ε) : Act ε → Option (System ε)
  | .call ev => some { st with calls := st.calls ++ [.load ev] }
  | .send index lucky => do
      let (shared, call) ← (← st.calls[index]?).step size lucky st.shared
      return { st with shared, calls := st.calls.set index call }
  | .recv => Recv.step st

/-- The steps of the queue. -/
def Step (st : System ε) (act : Act ε) (after : System ε) : Prop := st.exec size act = some after

/-! ## What is reserved -/

/-- What a call has reserved and neither queued nor released. -/
def TrySend.reserved : TrySend ε → Nat
  | .publish ev _ | .send ev | .release ev => size ev
  | _ => 0

/-- What the consumer has taken and not released. -/
def Recv.held : Recv ε → Nat
  | .release item => size item.1
  | _ => 0

/-- The sizes of the queued events. -/
def Shared.queued (shared : Shared ε) : Nat := (shared.queue.map fun item => size item.1).sum

/-- The sizes of all queued events and of those reserved but not yet queued or released. -/
def System.charged (st : System ε) : Nat :=
  st.shared.queued size + (st.calls.map (TrySend.reserved size)).sum + st.recv.held size

/-- Events travel with their sizes. -/
def Measured (item : ε × Nat) : Prop := item.2 = size item.1

/-- The budget in use is what is charged, and within its limit. -/
structure System.Balanced (limit : Nat) (st : System ε) : Prop where
  exact_ : st.shared.used = st.charged size
  queue : ∀ item ∈ st.shared.queue, Measured size item
  taken : ∀ item, st.recv = .release item → Measured size item
  limit_ : st.shared.limit = limit
  within : st.shared.used ≤ limit
  word : st.shared.used < wordSize

theorem wrappingSub_of_le {a b : Nat} (enough : b ≤ a) (word : a < wordSize) :
    wrappingSub a b = a - b := by
  unfold wrappingSub
  rw [Nat.mod_eq_of_lt (enough.trans_lt word), ← Nat.add_sub_assoc (enough.trans word.le),
    Nat.sub_add_comm enough, Nat.add_mod_right, Nat.mod_eq_of_lt (by omega)]

variable {limit : Nat} {lucky : Bool} {shared after : Shared ε} {next : TrySend ε} {st : System ε}

theorem checkedAdd_filter_eq_some {a b next : Nat}
    (passes : (checkedAdd a b).filter (· ≤ limit) = some next) :
    next = a + b ∧ next ≤ limit ∧ next < wordSize := by
  obtain ⟨added, within⟩ := Option.filter_eq_some_iff.mp passes
  unfold checkedAdd at added
  split_ifs at added with word
  cases added
  exact ⟨rfl, by simpa using within, word⟩

variable {size}

/-- The exchange is refused, fails or makes the reservation. -/
theorem TrySend.step_exchange {ev : ε} {cur : Nat}
    (step : (exchange ev cur).step size lucky shared = some (after, next)) :
    (after = shared ∧ (next = .countByteDrop ev ∨ next = .exchange ev shared.used)) ∨
      (shared.used = cur ∧ cur + size ev ≤ shared.limit ∧ cur + size ev < wordSize ∧
        after = { shared with used := cur + size ev } ∧ next = .publish ev (cur + size ev)) := by
  simp only [TrySend.step] at step
  split at step
  · cases step
    exact .inl ⟨rfl, .inl rfl⟩
  · next sum passes =>
      obtain ⟨rfl, within, small⟩ := checkedAdd_filter_eq_some passes
      split_ifs at step with exchanged
      · cases step
        exact .inr ⟨by simpa using (Bool.and_eq_true_iff.mp exchanged).2, within, small, rfl, rfl⟩
      · cases step
        exact .inl ⟨rfl, .inr rfl⟩

/-- What one step of a call does to the budget and the queue: what leaves the one account enters
another, and a new reservation is within the limit. -/
theorem TrySend.step_spec {call : TrySend ε}
    (step : call.step size lucky shared = some (after, next))
    (covered : call.reserved size ≤ shared.used) (word : shared.used < wordSize) :
    after.used + (shared.queued size + call.reserved size) =
        shared.used + (after.queued size + next.reserved size) ∧
      after.limit = shared.limit ∧ (after.used ≤ shared.used ∨ after.used ≤ shared.limit) ∧
      after.used < wordSize ∧
      ∀ item ∈ after.queue, item ∈ shared.queue ∨ Measured size item := by
  cases call with
  | exchange ev cur =>
    rcases step_exchange step with ⟨rfl, rfl | rfl⟩ | ⟨same, within, small, rfl, rfl⟩
    · exact ⟨rfl, rfl, .inl le_rfl, word, fun _ => .inl⟩
    · exact ⟨rfl, rfl, .inl le_rfl, word, fun _ => .inl⟩
    · refine ⟨?_, rfl, .inr within, small, fun _ => .inl⟩
      simp only [reserved, Shared.queued, same]
      omega
  | send ev =>
    simp only [TrySend.step] at step
    split_ifs at step with room
    · cases step
      refine ⟨?_, rfl, .inl le_rfl, word, fun item member => ?_⟩
      · simp [reserved, Shared.queued]
      · rcases List.mem_append.mp member with old | new
        · exact .inl old
        · exact .inr (List.mem_singleton.mp new ▸ rfl)
    · cases step
      exact ⟨rfl, rfl, .inl le_rfl, word, fun _ => .inl⟩
  | release ev =>
    cases step
    have enough : size ev ≤ shared.used := covered
    refine ⟨?_, rfl, .inl ?_, ?_, fun _ => .inl⟩ <;>
      simp only [reserved, Shared.queued, wrappingSub_of_le enough word] <;> omega
  | load _ | publish _ _ | publishRelease _ _ | countByteDrop _ | countDrop _ =>
    cases step
    exact ⟨rfl, rfl, .inl le_rfl, word, fun _ => .inl⟩
  | returned _ _ => cases step

theorem sum_map_set {α : Type} {items : List α} {index : Nat} {item : α}
    (here : items[index]? = some item) (f : α → Nat) (new : α) :
    ((items.set index new).map f).sum + f item = (items.map f).sum + f new := by
  induction items generalizing index with
  | nil => simp at here
  | cons first rest induction =>
    cases index with
    | zero =>
      cases here
      simp only [List.set_cons_zero, List.map_cons, List.sum_cons]
      omega
    | succ index =>
      have later := @induction index here
      simp only [List.set_cons_succ, List.map_cons, List.sum_cons]
      omega

theorem le_sum_map {α : Type} {items : List α} {index : Nat} {item : α}
    (here : items[index]? = some item) (f : α → Nat) : f item ≤ (items.map f).sum :=
  List.single_le_sum (fun _ _ => Nat.zero_le _) _
    (List.mem_map_of_mem (List.mem_of_getElem? here))

namespace System

variable {limit : Nat} {st after : System ε}

variable {index : Nat}

theorem exec_send {lucky : Bool} (step : st.exec size (.send index lucky) = some after) :
    ∃ call shared next, st.calls[index]? = some call ∧
      call.step size lucky st.shared = some (shared, next) ∧
      after = { st with shared, calls := st.calls.set index next } := by
  simp only [exec, Option.bind_eq_bind, Option.bind_eq_some_iff] at step
  obtain ⟨call, here, ⟨shared, next⟩, moved, same⟩ := step
  cases same
  exact ⟨call, shared, next, here, moved, rfl⟩

section

variable (balanced : st.Balanced size limit)
include balanced

theorem Balanced.reserved_le {call : TrySend ε} (here : st.calls[index]? = some call) :
    call.reserved size ≤ st.shared.used := by
  have part := le_sum_map here (TrySend.reserved size)
  rw [balanced.exact_, charged]
  omega

theorem Balanced.held_le :
    st.recv.held size ≤ st.shared.used := by
  rw [balanced.exact_, charged]
  omega

theorem balanced_send {lucky : Bool} (step : st.exec size (.send index lucky) = some after) :
    after.Balanced size limit := by
  obtain ⟨call, shared, next, here, moved, rfl⟩ := exec_send step
  obtain ⟨account, limit_, bound, word, queue⟩ :=
    TrySend.step_spec moved (balanced.reserved_le here) balanced.word
  have exact_ := balanced.exact_
  have sums := sum_map_set here (TrySend.reserved size) next
  refine ⟨?_, fun item member => ?_, balanced.taken, limit_.trans balanced.limit_, ?_, word⟩
  · simp only [charged] at exact_ ⊢
    omega
  · exact (queue item member).elim (balanced.queue item) id
  · have within := balanced.within
    rw [balanced.limit_] at bound
    exact bound.elim (fun less => less.trans within) id

theorem balanced_recv (step : Recv.step st = some after) :
    after.Balanced size limit := by
  have exact_ := balanced.exact_
  obtain ⟨shared, calls, recv, received⟩ := st
  cases recv with
  | wait =>
    cases queue : shared.queue with
    | nil => simp [Recv.step, queue] at step
    | cons item rest =>
      simp only [Recv.step, queue, Option.some.injEq] at step
      subst step
      have measured : ∀ other ∈ item :: rest, Measured size other := queue ▸ balanced.queue
      obtain ⟨first, others⟩ := List.forall_mem_cons.mp measured
      refine ⟨?_, others, fun item' same => ?_, balanced.limit_, balanced.within, balanced.word⟩
      · simp only [charged, Shared.queued, Recv.held, queue, List.map_cons, List.sum_cons]
          at exact_ ⊢
        omega
      · cases same
        exact first
  | release item =>
    cases step
    have measured : item.2 = size item.1 := balanced.taken item rfl
    have enough : size item.1 ≤ shared.used := balanced.held_le
    have less : wrappingSub shared.used item.2 = shared.used - size item.1 := by
      rw [measured, wrappingSub_of_le enough balanced.word]
    have within : shared.used ≤ limit := balanced.within
    have word : shared.used < wordSize := balanced.word
    refine ⟨?_, balanced.queue, nofun, balanced.limit_, ?_, ?_⟩
    · simp only [charged, Shared.queued, Recv.held] at exact_ ⊢
      omega
    · exact less.trans_le ((Nat.sub_le _ _).trans within)
    · exact less.trans_lt ((Nat.sub_le _ _).trans_lt word)
  | publishRelease item prev =>
    cases step
    exact ⟨exact_, balanced.queue, nofun, balanced.limit_, balanced.within, balanced.word⟩

theorem balanced_step {act : Act ε} (step : Step size st act after) :
    after.Balanced size limit := by
  cases act with
  | call ev =>
    cases step
    refine ⟨?_, balanced.queue, balanced.taken, balanced.limit_, balanced.within, balanced.word⟩
    rw [balanced.exact_]
    simp [charged, TrySend.reserved]
  | send index lucky => exact balanced_send balanced step
  | recv => exact balanced_recv balanced step

end

theorem balanced_exportChannel (maxEvents maxBytes : Nat) :
    (exportChannel maxEvents maxBytes).Balanced size maxBytes :=
  ⟨rfl, nofun, nofun, rfl, Nat.zero_le _, (by decide : 0 < wordSize)⟩

theorem balanced_run {trace : List (System ε × Act ε)} (run : Run (Step size) st trace after)
    (balanced : st.Balanced size limit) : after.Balanced size limit :=
  run.invariant (Balanced size limit) (fun _ _ _ _ step before => balanced_step before step)
    balanced

end System

/-! ## What one call changes -/

/-- Whether a step is one of a given call. -/
def Act.isOf (index : Nat) : Act ε → Bool
  | .send index' _ => index' = index
  | _ => false

/-- What one step adds to the budget in use. -/
def change (size : ε → Nat) (entry : System ε × Act ε) : Int :=
  (entry.1.exec size entry.2).elim 0 fun after => after.shared.used - entry.1.shared.used

/-- What the steps of one call add to the budget in use. -/
def changeBy (size : ε → Nat) (index : Nat) (trace : List (System ε × Act ε)) : Int :=
  ((trace.filter fun entry => entry.2.isOf index).map (change size)).sum

/-- What a call has added so far.  The reservation of a queued event is left to the consumer. -/
def TrySend.added (size : ε → Nat) : TrySend ε → Nat
  | .returned ev true => size ev
  | call => call.reserved size

theorem TrySend.used_step {call : TrySend ε}
    (step : call.step size lucky shared = some (after, next))
    (covered : call.reserved size ≤ shared.used) (word : shared.used < wordSize) :
    after.used + call.added size = shared.used + next.added size := by
  cases call with
  | exchange ev cur =>
    rcases step_exchange step with ⟨rfl, rfl | rfl⟩ | ⟨same, -, -, rfl, rfl⟩
    · rfl
    · rfl
    · simp only [added, reserved, same]
      omega
  | send ev =>
    simp only [TrySend.step] at step
    split_ifs at step <;> cases step <;> rfl
  | release ev =>
    cases step
    have enough : size ev ≤ shared.used := covered
    simp only [added, reserved, wrappingSub_of_le enough word]
    omega
  | load _ | publish _ _ | publishRelease _ _ | countByteDrop _ | countDrop _ =>
    cases step
    rfl
  | returned _ _ => cases step

/-- What a call has added, where it has been made. -/
def System.addedBy (size : ε → Nat) (st : System ε) (index : Nat) : Nat :=
  (st.calls[index]?).elim 0 (TrySend.added size)

theorem System.addedBy_step {after : System ε} {act : Act ε} (balanced : st.Balanced size limit)
    (step : Step size st act after) (index : Nat) :
    (after.addedBy size index : Int) =
      st.addedBy size index + if act.isOf index then change size (st, act) else 0 := by
  have moved : st.exec size act = some after := step
  cases act with
  | call ev =>
    cases step
    simp only [Act.isOf, Bool.false_eq_true, if_false, add_zero, Nat.cast_inj, addedBy]
    rcases lt_trichotomy index st.calls.length with old | rfl | beyond
    · rw [List.getElem?_append_left old]
    · simp [TrySend.added, TrySend.reserved]
    · rw [List.getElem?_eq_none (by simpa using Nat.succ_le_of_lt beyond), List.getElem?_eq_none beyond.le]
  | send index' lucky =>
    obtain ⟨call, shared, next, here, stepped, rfl⟩ := exec_send moved
    by_cases same : index' = index
    · subst same
      have used := TrySend.used_step stepped (balanced.reserved_le here) balanced.word
      have inside : index' < st.calls.length := (List.getElem?_eq_some_iff.mp here).1
      have now : (st.calls.set index' next)[index']? = some next := by
        rw [List.getElem?_set_self inside]
      simp only [addedBy, Act.isOf, decide_true, if_true, change, moved, here, now,
        Option.elim_some]
      omega
    · have now : (st.calls.set index' next)[index]? = st.calls[index]? :=
        List.getElem?_set_ne same
      simp only [addedBy, Act.isOf, same, decide_false, Bool.false_eq_true, if_false, add_zero,
        now]
  | recv =>
    have calls : after.calls = st.calls := by
      simp only [System.exec, Recv.step] at moved
      split at moved
      · split at moved <;> cases moved
        rfl
      · cases moved
        rfl
      · cases moved
        rfl
    simp [addedBy, Act.isOf, calls]

theorem System.addedBy_run {after : System ε} {trace : List (System ε × Act ε)}
    (run : Run (Step size) st trace after) (balanced : st.Balanced size limit) (index : Nat) :
    (after.addedBy size index : Int) = st.addedBy size index + changeBy size index trace := by
  induction run with
  | nil => simp [changeBy]
  | @cons st next after act trace step rest induction =>
    have first := addedBy_step balanced step index
    have later := induction (balanced_step balanced step)
    have sum : changeBy size index ((st, act) :: trace) =
        (if act.isOf index then change size (st, act) else 0) + changeBy size index trace := by
      unfold changeBy
      rw [List.filter_cons]
      split_ifs <;> simp
    rw [later, first, sum]
    ring

/-- In every state that any interleaving reaches the budget in use is what is queued or reserved,
and it is within its limit.  No release takes more than there is, and the steps of a call that
returns false have changed nothing in the end. -/
theorem budget_exact (size : ε → Nat) (maxEvents maxBytes : Nat) {st : System ε}
    {trace : List (System ε × Act ε)}
    (run : Run (Step size) (exportChannel maxEvents maxBytes) trace st) :
    st.shared.used = st.charged size ∧ st.shared.used ≤ maxBytes ∧
      (∀ (index : Nat) ev, st.calls[index]? = some (TrySend.release ev) → size ev ≤ st.shared.used) ∧
      (∀ item, st.recv = Recv.release item → item.2 ≤ st.shared.used) ∧
      ∀ (index : Nat) ev, st.calls[index]? = some (TrySend.returned ev false) →
        changeBy size index trace = 0 := by
  have start := @System.balanced_exportChannel ε size maxEvents maxBytes
  have balanced := System.balanced_run run start
  refine ⟨balanced.exact_, balanced.within, fun index ev here => ?_, fun item here => ?_,
    fun index ev here => ?_⟩
  · exact balanced.reserved_le here
  · have held := balanced.held_le
    rw [here] at held
    exact (balanced.taken item here).trans_le held
  · have added := System.addedBy_run run start index
    simpa [System.addedBy, here, TrySend.added, TrySend.reserved, exportChannel] using added.symm

/-- Steps one after the other, with the states they are taken in. -/
def execAll (size : ε → Nat) (st : System ε) :
    List (Act ε) → Option (List (System ε × Act ε) × System ε)
  | [] => some ([], st)
  | act :: acts => do
      let (trace, final) ← execAll size (← st.exec size act) acts
      return ((st, act) :: trace, final)

theorem run_of_execAll {final : System ε} {acts : List (Act ε)} {trace : List (System ε × Act ε)}
    (executed : execAll size st acts = some (trace, final)) :
    Run (Step size) st trace final := by
  induction acts generalizing st trace with
  | nil =>
    cases executed
    exact .nil _
  | cons act acts induction =>
    simp only [execAll, Option.bind_eq_bind, Option.bind_eq_some_iff] at executed
    obtain ⟨next, step, ⟨rest, last⟩, later, same⟩ := executed
    cases same
    exact .cons step (induction later)

/-- Two calls that run into each other: the second exchange fails once, and the channel has room
for one event. -/
def racingActs : List (Act Nat) :=
  [.call 4, .call 5, .send 0 true, .send 1 true, .send 0 true, .send 1 true, .send 1 true,
    .send 0 true, .send 0 true, .send 1 true, .send 1 true, .recv, .send 1 true, .recv,
    .send 1 true, .send 1 true]

theorem budget_exact_racing :
    ∃ trace st, Run (Step id) (exportChannel 1 10) trace st ∧
      st.calls = [.returned 4 true, .returned 5 false] ∧ st.shared.used = st.charged id ∧
      st.shared.used ≤ 10 ∧ changeBy id 1 trace = 0 := by
  obtain ⟨trace, st, executed, calls⟩ : ∃ trace st,
      execAll id (exportChannel 1 10) racingActs = some (trace, st) ∧
        st.calls = [.returned 4 true, .returned 5 false] := ⟨_, _, rfl, rfl⟩
  have run := run_of_execAll executed
  obtain ⟨same, within, -, -, undone⟩ := budget_exact id 1 10 run
  exact ⟨trace, st, run, calls, same, within, undone 1 5 (by rw [calls]; rfl)⟩

end Export
end ApiSensor
