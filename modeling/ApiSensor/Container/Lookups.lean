import ApiSensor.Container.Threads
import Mathlib.Data.List.Perm.Subperm

/-!
# Lookups of containers

The pending set holds the cgroups whose lookup is in the channel or with the worker, so a cgroup has
at most one lookup outstanding and no cgroup stays pending.
-/

namespace ApiSensor

open Library

/-- The cgroup that the worker is busy with. -/
def Worker.processing : Worker → List UInt64
  | .idle => []
  | .fetching req => [req.cgroupId]
  | .storing cgroupId _ => [cgroupId]
  | .unmarking cgroupId => [cgroupId]
  | .failing cgroupId => [cgroupId]

theorem Worker.length_processing (worker : Worker) : worker.processing.length ≤ 1 := by
  cases worker <;> simp [Worker.processing]

namespace ResolverSystem

/-- The cgroups whose lookup is in the channel. -/
def queued (sys : ResolverSystem) : List UInt64 :=
  sys.resolver.lookups.map ContainerLookupRequest.cgroupId

/-- The pending set is what is queued or being processed, each cgroup once. -/
structure Tracked (sys : ResolverSystem) : Prop where
  pending : sys.resolver.pending.Perm (sys.queued ++ sys.worker.processing)
  once : sys.resolver.pending.Nodup
  capacity : sys.resolver.lookups.length ≤ lookupCapacity

theorem tracked_start (nodeName : Str) (world : World) : (start nodeName world).Tracked where
  pending := .nil
  once := List.nodup_nil
  capacity := Nat.zero_le _

variable {sys : ResolverSystem}

/-- The set never comes near its cap. -/
theorem Tracked.length_pending (tracked : sys.Tracked) :
    sys.resolver.pending.length < maxPendingLookups := by
  have whole := tracked.pending.length_eq
  have capacity := tracked.capacity
  have busy := sys.worker.length_processing
  simp only [List.length_append, queued, List.length_map] at whole
  simp only [lookupCapacity] at capacity
  simp only [maxPendingLookups]
  omega

/-- Steps that leave the set, the channel and the worker alone. -/
theorem Tracked.congr {after : ResolverSystem} (tracked : sys.Tracked)
    (pending : after.resolver.pending = sys.resolver.pending)
    (lookups : after.resolver.lookups = sys.resolver.lookups)
    (worker : after.worker.processing = sys.worker.processing) : after.Tracked where
  pending := by
    rw [pending, queued, lookups, worker]
    exact tracked.pending
  once := pending ▸ tracked.once
  capacity := lookups ▸ tracked.capacity

/-! ## The steps of a call -/

theorem lookupStep_frame (sys : ResolverSystem) (ev : TlsEventHeader) (now : Nat) :
    (sys.lookupStep ev now).1.resolver.pending = sys.resolver.pending ∧
      (sys.lookupStep ev now).1.resolver.lookups = sys.resolver.lookups ∧
      (sys.lookupStep ev now).1.worker = sys.worker := by
  unfold lookupStep
  split
  · exact ⟨rfl, rfl, rfl⟩
  · split <;> exact ⟨rfl, rfl, rfl⟩

/-- What a request does to the set and the channel, as long as the set is not full. -/
theorem requestLookup_cases {resolver : ContainerResolver} (small : resolver.pending.length <
      maxPendingLookups) (moment : LookupMoment) (cgroupId : UInt64) (containerIdFull : Str) :
    (resolver.requestLookup moment cgroupId containerIdFull = resolver ∧
        (cgroupId ∈ resolver.pending ∨ moment.room = false)) ∨
      (cgroupId ∉ resolver.pending ∧ moment.room = true ∧
        resolver.requestLookup moment cgroupId containerIdFull =
          { resolver with
            pending := resolver.pending ++ [cgroupId]
            lookups := resolver.lookups ++ [⟨cgroupId, containerIdFull⟩] }) := by
  rw [ContainerResolver.requestLookup]
  by_cases member : cgroupId ∈ resolver.pending
  · rw [if_pos member]
    exact .inl ⟨rfl, .inl member⟩
  · rw [if_neg member, if_neg (not_le.mpr small)]
    cases room : moment.room with
    | false => exact .inl ⟨rfl, .inr rfl⟩
    | true => exact .inr ⟨member, rfl, rfl⟩

theorem Tracked.request (tracked : sys.Tracked) (cgroupId : UInt64) (id : Str)
    (context : ContainerContext) :
    (sys.callStep (.request cgroupId id context)).1.Tracked := by
  rw [callStep]
  rcases requestLookup_cases tracked.length_pending ⟨sys.clock, none, sys.resolver.room⟩ cgroupId
    id with ⟨same, -⟩ | ⟨absent, room, added⟩
  · rw [same]
    exact tracked
  · rw [added]
    have space : sys.resolver.lookups.length < lookupCapacity := of_decide_eq_true room
    refine ⟨?_, ?_, ?_⟩
    · have moved := tracked.pending.append_right [cgroupId]
      refine moved.trans ?_
      simp only [queued, List.map_append, List.map_cons, List.map_nil, List.append_assoc]
      exact List.perm_append_comm.append_left _
    · exact tracked.once.append (List.nodup_singleton _) (by simpa using absent)
    · simpa using Nat.succ_le_of_lt space

theorem Tracked.callStep (tracked : sys.Tracked) (call : ResolveCall) :
    (sys.callStep call).1.Tracked := by
  cases call with
  | lookup ev now =>
    obtain ⟨pending, lookups, worker⟩ := sys.lookupStep_frame ev now
    exact tracked.congr pending lookups (by rw [ResolverSystem.callStep, worker])
  | identify _ _ | insert _ _ _ | returned _ => exact tracked.congr rfl rfl rfl
  | request cgroupId id context => exact tracked.request cgroupId id context

/-! ## The steps of the worker -/

theorem Tracked.receive (tracked : sys.Tracked) :
    (sys.exec .receive).Tracked := by
  rw [exec]
  split
  · rename_i req rest idle lookups
    have pending := tracked.pending
    have capacity := tracked.capacity
    simp only [queued, lookups, idle, Worker.processing, List.append_nil, List.map_cons,
      List.length_cons] at pending capacity
    refine ⟨?_, tracked.once, (Nat.le_succ _).trans capacity⟩
    exact pending.trans (List.perm_append_singleton _ _).symm
  · exact tracked

theorem processing_answer (sys : ResolverSystem) (result : Option ContainerMetadata) :
    (sys.exec (.answer result)).worker.processing = sys.worker.processing ∧
      (sys.exec (.answer result)).resolver = sys.resolver := by
  cases busy : sys.worker with
  | fetching req => cases result <;> simp [exec, busy, Worker.processing]
  | idle | storing _ _ | unmarking _ | failing _ => simp [exec, busy]

/-- Only the lookup that is finished leaves the set. -/
theorem Tracked.unmark (tracked : sys.Tracked) {cgroupId : UInt64}
    (busy : sys.worker.processing = [cgroupId]) : (sys.unmark cgroupId).Tracked := by
  have pending := tracked.pending
  rw [busy] at pending
  have nodup := pending.nodup_iff.mp tracked.once
  have absent : cgroupId ∉ sys.queued := fun member =>
    (List.nodup_append.mp nodup).2.2 cgroupId member cgroupId (List.mem_singleton_self _) rfl
  have removed := pending.filter (fun id => id ≠ cgroupId)
  have others : sys.queued.filter (fun id => id ≠ cgroupId) = sys.queued :=
    List.filter_eq_self.mpr fun id member => decide_eq_true fun same => absent (same ▸ member)
  rw [List.filter_append, others] at removed
  refine ⟨?_, tracked.once.filter _, tracked.capacity⟩
  simpa [ResolverSystem.unmark, ContainerResolver.markLookupFailed, queued,
    Worker.processing] using removed

theorem storeStep_frame (sys : ResolverSystem) (cgroupId : UInt64)
    (metadata : ContainerMetadata) :
    (sys.storeStep cgroupId metadata).resolver.pending = sys.resolver.pending ∧
      (sys.storeStep cgroupId metadata).resolver.lookups = sys.resolver.lookups ∧
      (sys.storeStep cgroupId metadata).worker = .unmarking cgroupId := by
  unfold storeStep
  split <;> exact ⟨rfl, rfl, rfl⟩

theorem Tracked.work (tracked : sys.Tracked) : (sys.exec .work).Tracked := by
  cases busy : sys.worker with
  | idle | fetching _ => simpa only [exec, busy] using tracked
  | storing cgroupId metadata =>
    obtain ⟨pending, lookups, worker⟩ := sys.storeStep_frame cgroupId metadata
    simp only [exec, busy]
    exact tracked.congr pending lookups (by rw [worker, busy]; rfl)
  | unmarking cgroupId | failing cgroupId =>
    simp only [exec, busy]
    exact tracked.unmark (by rw [busy]; rfl)

/-! ## Whole runs -/

theorem Tracked.exec (tracked : sys.Tracked) (act : ResolverAct) :
    (sys.exec act).Tracked := by
  cases act with
  | tick _ | change _ | call _ => exact tracked.congr rfl rfl rfl
  | step index =>
    simp only [ResolverSystem.exec]
    split
    · exact tracked
    · exact (tracked.callStep _).congr rfl rfl rfl
  | receive => exact tracked.receive
  | answer result =>
    obtain ⟨worker, resolver⟩ := sys.processing_answer result
    exact tracked.congr (by rw [resolver]) (by rw [resolver]) worker
  | work => exact tracked.work

/-- In every state of every run the pending set is exactly what is queued or being processed, each
cgroup once, and the branch that evicts a pending cgroup is out of reach. -/
theorem pending_exactly_outstanding (nodeName : Str) (world : World) (acts : List ResolverAct) :
    let sys := (start nodeName world).run acts
    (∀ cgroupId, cgroupId ∈ sys.resolver.pending ↔
        cgroupId ∈ sys.queued ∨ cgroupId ∈ sys.worker.processing) ∧
      (sys.queued ++ sys.worker.processing).Nodup ∧ sys.resolver.pending.Nodup ∧
      sys.resolver.pending.length < maxPendingLookups := by
  have tracked : ((start nodeName world).run acts).Tracked :=
    run_invariant (fun _ act tracked => tracked.exec act) (tracked_start nodeName world) acts
  refine ⟨fun cgroupId => ?_, ?_, tracked.once, tracked.length_pending⟩
  · rw [tracked.pending.mem_iff, List.mem_append]
  · exact tracked.pending.nodup_iff.mp tracked.once

end ResolverSystem

end ApiSensor
