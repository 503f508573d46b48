import ApiSensor.Container.Lookups

/-!
# Retried lookups

A call that finds a fresh entry asks for a lookup only if the entry knows the container.  An entry
that was created before the container could be found is used again and again, and nothing tells it
that the container can be found by now.
-/

namespace ApiSensor

open Library

def CacheNote.cgroupId : CacheNote → UInt64
  | .created cgroupId _ => cgroupId
  | .stored cgroupId _ => cgroupId

/-- The context of an entry has the fields of some metadata. -/
structure ContainerCacheEntry.Carries (entry : ContainerCacheEntry)
    (metadata : ContainerMetadata) : Prop where
  podName : entry.context.podName = metadata.podName
  podNamespace : entry.context.podNamespace = metadata.podNamespace
  containerName : entry.context.containerName = metadata.containerName
  serviceName : entry.context.serviceName = metadata.serviceName
  workloadType : entry.context.workloadType = metadata.workloadType

/-- What a note says about the entry as long as it is the latest one. -/
def CacheNote.Describes (entry : ContainerCacheEntry) : CacheNote → Prop
  | .created _ info => entry.unresolvedId = info.bind CgroupInfo.containerIdFull
  | .stored _ metadata => entry.unresolvedId = none ∧ entry.Carries metadata

namespace ResolverSystem

/-- What an act does to the cache, its history and the calls. -/
inductive Effect (sys : ResolverSystem) : ResolverAct → ResolverSystem → Prop
  | quiet {act : ResolverAct} {after : ResolverSystem}
      (cache : after.resolver.cache = sys.resolver.cache) (notes : after.notes = sys.notes)
      (calls : after.calls = sys.calls) (clock : sys.clock ≤ after.clock) : Effect sys act after
  | called (ev : TlsEventHeader) :
      Effect sys (.call ev) { sys with calls := sys.calls ++ [.lookup ev sys.clock] }
  | moved {index : Nat} {call : ResolveCall} (here : sys.calls[index]? = some call) :
      Effect sys (.step index)
        { (sys.callStep call).1 with calls := sys.calls.set index (sys.callStep call).2 }
  | stored {cgroupId : UInt64} {metadata : ContainerMetadata} {entry : ContainerCacheEntry}
      (found : sys.resolver.cache.get? cgroupId = some entry) :
      Effect sys .work
        { sys with
          resolver := { sys.resolver with
            cache := sys.resolver.cache.insert cgroupId
              (ContainerResolver.store sys.clock metadata entry) }
          worker := .unmarking cgroupId
          notes := .stored cgroupId metadata :: sys.notes }

theorem effect_exec (sys : ResolverSystem) (act : ResolverAct) : Effect sys act (sys.exec act) := by
  cases act with
  | tick elapsed => exact .quiet rfl rfl rfl (Nat.le_add_right _ _)
  | change _ => exact .quiet rfl rfl rfl le_rfl
  | call ev => exact .called ev
  | step index =>
    cases here : sys.calls[index]? with
    | none =>
      simp only [exec, here]
      exact .quiet rfl rfl rfl le_rfl
    | some call =>
      simp only [exec, here]
      exact .moved here
  | receive =>
    rw [exec]
    split <;> exact .quiet rfl rfl rfl le_rfl
  | answer result =>
    cases busy : sys.worker with
    | fetching req =>
      cases result <;> simp only [exec, busy] <;> exact .quiet rfl rfl rfl le_rfl
    | idle | storing _ _ | unmarking _ | failing _ =>
      simp only [exec, busy]
      exact .quiet rfl rfl rfl le_rfl
  | work =>
    cases busy : sys.worker with
    | idle | fetching _ | unmarking _ | failing _ =>
      simp only [exec, busy]
      exact .quiet rfl rfl rfl le_rfl
    | storing cgroupId metadata =>
      simp only [exec, busy, storeStep]
      cases found : sys.resolver.cache.get? cgroupId with
      | none => exact .quiet rfl rfl rfl le_rfl
      | some entry => exact .stored found

/-- The last thing that happened to the entry of a cgroup. -/
def latest (sys : ResolverSystem) (cgroupId : UInt64) : Option CacheNote :=
  sys.notes.find? fun note => note.cgroupId = cgroupId

/-- The history describes the cache. -/
def Described (sys : ResolverSystem) : Prop :=
  ∀ cgroupId entry, sys.resolver.cache.get? cgroupId = some entry →
    ∃ note, sys.latest cgroupId = some note ∧ note.Describes entry

theorem refresh_frame (now : Nat) (entry : ContainerCacheEntry) :
    (ContainerResolver.refresh now entry).1.unresolvedId = entry.unresolvedId ∧
      (ContainerResolver.refresh now entry).1.context = entry.context := by
  unfold ContainerResolver.refresh
  cases entry.unresolvedId with
  | none => exact ⟨rfl, rfl⟩
  | some id =>
    dsimp only
    split_ifs
    · exact ⟨rfl, rfl⟩
    · exact ⟨rfl, rfl⟩

variable {sys : ResolverSystem} {entry : ContainerCacheEntry}

theorem describes_refresh {note : CacheNote} (describes : note.Describes entry) (now : Nat) :
    note.Describes (ContainerResolver.refresh now entry).1 := by
  obtain ⟨id, context⟩ := refresh_frame now entry
  cases note with
  | created cgroupId info => exact id.trans describes
  | stored cgroupId metadata =>
    obtain ⟨resolved, carries⟩ := describes
    refine ⟨id.trans resolved, ?_⟩
    constructor <;> rw [context]
    · exact carries.podName
    · exact carries.podNamespace
    · exact carries.containerName
    · exact carries.serviceName
    · exact carries.workloadType

theorem described_start (nodeName : Str) (world : World) : (start nodeName world).Described :=
  fun _ _ found => absurd found (by simp [start, ContainerResolver.new])

variable {index : Nat} {after : ResolverSystem}

section

variable (described : sys.Described)
include described

/-- Steps that leave the cache and its history alone. -/
theorem Described.congr (cache : after.resolver.cache = sys.resolver.cache)
    (notes : after.notes = sys.notes) :
    after.Described := by
  intro cgroupId entry found
  rw [latest, notes]
  exact described cgroupId entry (cache ▸ found)

theorem Described.lookupStep (ev : TlsEventHeader) (now : Nat) :
    (sys.lookupStep ev now).1.Described := by
  by_cases outside : ev.cgroupId = 0
  · rw [ResolverSystem.lookupStep, if_pos outside]
    exact described
  cases cached : sys.resolver.cached now ev.cgroupId with
  | some entry =>
    rw [lookupStep_hit outside cached]
    intro cgroupId other found
    rw [Dict.get?_insert] at found
    split_ifs at found with same
    · cases found
      subst same
      obtain ⟨note, latest, describes⟩ :=
        described ev.cgroupId entry (Option.filter_eq_some_iff.mp cached).1
      exact ⟨note, latest, describes_refresh describes now⟩
    · exact described cgroupId other found
  | none =>
    rw [lookupStep_miss outside cached]
    intro cgroupId other found
    rcases sys.resolver.get?_makeRoom now cgroupId with gone | kept
    · exact absurd (gone.symm.trans found) (by simp)
    · exact described cgroupId other (kept.symm.trans found)

theorem Described.insertStep (ev : TlsEventHeader) (now : Nat) (info : Option CgroupInfo) :
    (sys.insertStep ev now info).1.Described := by
  intro cgroupId entry found
  simp only [ResolverSystem.insertStep, Dict.get?_insert] at found
  split_ifs at found with same
  · cases found
    subst same
    refine ⟨.created ev.cgroupId info, ?_, rfl⟩
    simp [latest, ResolverSystem.insertStep, CacheNote.cgroupId]
  · obtain ⟨note, latest, describes⟩ := described cgroupId entry found
    refine ⟨note, ?_, describes⟩
    rw [← latest]
    exact List.find?_cons_of_neg (by simp [CacheNote.cgroupId, Ne.symm same])

theorem Described.callStep (call : ResolveCall) :
    (sys.callStep call).1.Described := by
  cases call with
  | lookup ev now => exact described.lookupStep ev now
  | insert ev now info => exact described.insertStep ev now info
  | request cgroupId id context =>
    exact described.congr (ContainerResolver.cache_requestLookup _ _ _ _) rfl
  | identify _ _ | returned _ => exact described.congr rfl rfl

theorem Described.effect {act : ResolverAct} (effect : sys.Effect act after) : after.Described := by
  cases effect with
  | quiet cache notes _ _ => exact described.congr cache notes
  | called ev => exact described.congr rfl rfl
  | moved _ => exact (described.callStep _).congr rfl rfl
  | @stored cgroupId metadata entry found =>
    intro other entry found
    rw [Dict.get?_insert] at found
    split_ifs at found with same
    · cases found
      subst same
      refine ⟨.stored other metadata, ?_, rfl, ⟨rfl, rfl, rfl, rfl, rfl⟩⟩
      simp [latest, CacheNote.cgroupId]
    · obtain ⟨note, latest, describes⟩ := described other entry found
      refine ⟨note, ?_, describes⟩
      rw [← latest]
      exact List.find?_cons_of_neg (by simp [CacheNote.cgroupId, Ne.symm same])

end

/-! ## A call in time -/

/-- A call that is about to look up the cache, with everything that asks for a lookup: the entry is
in use, no metadata has come for it, its deadline has passed, a scan would find the container and is
due, no lookup is outstanding and the channel has room.  `info` is what was known of the container
when the entry was created. -/
structure Due (sys : ResolverSystem) (index : Nat) (ev : TlsEventHeader) (now : Nat)
    (entry : ContainerCacheEntry) (info : Option CgroupInfo) : Prop where
  call : sys.calls[index]? = some (.lookup ev now)
  inside : ev.cgroupId ≠ 0
  cached : sys.resolver.cache.get? ev.cgroupId = some entry
  used : now - entry.lastSeen < containerTtl
  unanswered : sys.latest ev.cgroupId = some (.created ev.cgroupId info)
  deadline : entry.retryAt ≤ now
  discoverable : ((sys.world.tree.get? ev.cgroupId).bind parseCgroupPath).isSome
  cooled : sys.index.due now
  free : ev.cgroupId ∉ sys.resolver.pending
  room : sys.resolver.room

/-- The call queues a lookup: whatever the other threads do after it has left the cache, when it
moves again with no lookup outstanding and room in the channel, its lookup enters the channel. -/
def Queues (sys : ResolverSystem) (index : Nat) (cgroupId : UInt64) : Prop :=
  ∀ others : List ResolverAct, .step index ∉ others →
    let later := (sys.exec (.step index)).run others
    cgroupId ∉ later.resolver.pending → later.resolver.room →
      ∃ id, (later.exec (.step index)).resolver.lookups =
        later.resolver.lookups ++ [⟨cgroupId, id⟩]

/-- The other threads do not move a call. -/
theorem Effect.calls_of_ne {act : ResolverAct} (effect : sys.Effect act after) {call : ResolveCall}
    (here : sys.calls[index]? = some call) (other : act ≠ .step index) :
    after.calls[index]? = some call := by
  cases effect with
  | quiet _ _ calls _ => exact calls ▸ here
  | called ev => exact List.getElem?_append_left (List.getElem?_eq_some_iff.mp here).1 ▸ here
  | @moved moved _ _ =>
    have distinct : moved ≠ index := fun same => other (same ▸ rfl)
    exact (List.getElem?_set_ne distinct).trans here
  | stored _ => exact here

theorem calls_run {call : ResolveCall} (here : sys.calls[index]? = some call)
    {acts : List ResolverAct} (others : .step index ∉ acts) :
    (sys.run acts).calls[index]? = some call := by
  induction acts generalizing sys with
  | nil => exact here
  | cons act acts induction =>
    rw [List.mem_cons, not_or] at others
    exact induction ((sys.effect_exec act).calls_of_ne here (Ne.symm others.1)) others.2

/-- The step of a call that finds a fresh entry past its deadline. -/
theorem exec_due {ev : TlsEventHeader} {now : Nat} {info : Option CgroupInfo}
    (due : sys.Due index ev now entry info) :
    (sys.exec (.step index)).calls[index]? =
        some (afterCache ev.cgroupId entry.unresolvedId entry.context) ∧
      (sys.exec (.step index)).resolver.pending = sys.resolver.pending ∧
      (sys.exec (.step index)).resolver.lookups = sys.resolver.lookups := by
  have cached : sys.resolver.cached now ev.cgroupId = some entry := by
    rw [ContainerResolver.cached, due.cached, Option.filter_some, if_pos]
    exact decide_eq_true due.used
  have retry : (ContainerResolver.refresh now entry).2 = entry.unresolvedId := by
    unfold ContainerResolver.refresh
    cases entry.unresolvedId with
    | none => rfl
    | some id =>
      dsimp only
      rw [if_pos due.deadline]
  have step : sys.callStep (.lookup ev now) = sys.lookupStep ev now := rfl
  have inside := (List.getElem?_eq_some_iff.mp due.call).1
  refine ⟨?_, ?_, ?_⟩ <;> simp only [exec, due.call, step, lookupStep_hit due.inside cached, retry]
  exact List.getElem?_set_self inside

/-- A request enters the channel if nothing is in its way. -/
theorem lookups_request (tracked : sys.Tracked) {cgroupId : UInt64} {id : Str}
    {context : ContainerContext} (here : sys.calls[index]? = some (.request cgroupId id context))
    (free : cgroupId ∉ sys.resolver.pending) (room : sys.resolver.room) :
    (sys.exec (.step index)).resolver.lookups = sys.resolver.lookups ++ [⟨cgroupId, id⟩] := by
  simp only [exec, here, callStep]
  rcases requestLookup_cases tracked.length_pending ⟨sys.clock, none, sys.resolver.room⟩ cgroupId
    id with ⟨-, member | full⟩ | ⟨-, -, added⟩
  · exact absurd member free
  · exact absurd (room.symm.trans full) (by simp)
  · rw [added]

theorem queues_iff (tracked : sys.Tracked) {ev : TlsEventHeader} {now : Nat}
    {info : Option CgroupInfo} (due : sys.Due index ev now entry info) :
    sys.Queues index ev.cgroupId ↔ entry.unresolvedId.isSome := by
  obtain ⟨next, pending, lookups⟩ := exec_due due
  constructor
  · intro queues
    have room : (sys.exec (.step index)).resolver.room := by
      rw [ContainerResolver.room, lookups]
      exact due.room
    obtain ⟨id, added⟩ := queues [] List.not_mem_nil (pending ▸ due.free) room
    cases known : entry.unresolvedId with
    | some id => rfl
    | none =>
      -- the call has returned, so that its step does nothing
      rw [known, afterCache] at next
      simp only [run_nil] at added
      generalize sys.exec (.step index) = later at next added
      simp only [exec, next, callStep] at added
      exact absurd (congrArg List.length added) (by simp)
  · intro known others away later free room
    obtain ⟨id, known⟩ := Option.isSome_iff_exists.mp known
    rw [known, afterCache] at next
    have tracked' : later.Tracked :=
      run_invariant (fun _ act tracked => tracked.exec act) (tracked.exec _) others
    exact ⟨id, lookups_request tracked' (calls_run next away) free room⟩

/-- In every state of every run, a call for a cgroup without metadata that is due queues a lookup
exactly if the container was known when the entry was created. -/
theorem busy_cgroup_retried_iff (nodeName : Str) (world : World) (acts : List ResolverAct)
    {index : Nat} {ev : TlsEventHeader} {now : Nat} {entry : ContainerCacheEntry}
    {info : Option CgroupInfo}
    (due : ((start nodeName world).run acts).Due index ev now entry info) :
    ((start nodeName world).run acts).Queues index ev.cgroupId ↔
      (info.bind CgroupInfo.containerIdFull).isSome := by
  have tracked : ((start nodeName world).run acts).Tracked :=
    run_invariant (fun _ act tracked => tracked.exec act) (tracked_start nodeName world) acts
  have described : ((start nodeName world).run acts).Described :=
    run_invariant (fun sys act described => described.effect (sys.effect_exec act))
      (described_start nodeName world) acts
  obtain ⟨note, latest, describes⟩ := described ev.cgroupId entry due.cached
  cases due.unanswered.symm.trans latest
  rw [queues_iff tracked due, describes]

/-! ## A container that is found late -/

/-- An event of a cgroup. -/
def inCgroup (cgroupId : UInt64) : TlsEventHeader := { TlsEventHeader.blank with cgroupId }

/-- A container identifier of 32 digits. -/
def someContainer : Str := List.replicate 32 'a'

/-- A cgroup tree without containers, and one with a container. -/
def emptyWorld : World := ⟨.empty, fun _ => none⟩

def foundWorld : World :=
  ⟨Dict.empty.insert 7 (str "/kubepods/" ++ someContainer), fun _ => none⟩

/-- The first call comes at once, and the second one five seconds later, when a scan finds the
container.  The lookup of the first call has failed by then. -/
def busyActs : List ResolverAct :=
  [.call (inCgroup 7), .step 0, .step 0, .step 0, .step 0, .receive, .answer none, .work,
    .tick 5000, .change foundWorld, .call (inCgroup 7)]

/-- The entry that the first call has left. -/
def leftEntry (containerId : Str) (unresolvedId : Option Str) : ContainerCacheEntry :=
  ⟨⟨none, none, containerId, none, str "n", none, none⟩, 0, unresolvedId, 1000, 0⟩

theorem due_found : ((start (str "n") foundWorld).run busyActs).Due 1 (inCgroup 7) 5000
    (leftEntry (shortId someContainer) (some someContainer))
    (some ⟨some someContainer, some (shortId someContainer)⟩) := by
  constructor
  · rfl
  · decide
  · rfl
  · decide
  · rfl
  · decide
  · rfl
  · rfl
  · decide
  · rfl

theorem busy_cgroup_retried_after_failure :
    ((start (str "n") foundWorld).run busyActs).Queues 1 7 :=
  (busy_cgroup_retried_iff (str "n") foundWorld busyActs due_found).mpr rfl

/-- The container is found by a scan before the second call, which does not look for it. -/
theorem busy_cgroup_not_retried :
    ((start (str "n") emptyWorld).run busyActs).Due 1 (inCgroup 7) 5000
        (leftEntry (str "unknown") none) none ∧
      ¬ ((start (str "n") emptyWorld).run busyActs).Queues 1 7 := by
  have due : ((start (str "n") emptyWorld).run busyActs).Due 1 (inCgroup 7) 5000
      (leftEntry (str "unknown") none) none := by
    constructor
    · rfl
    · decide
    · rfl
    · decide
    · rfl
    · decide
    · rfl
    · rfl
    · decide
    · rfl
  have tracked := run_invariant (fun _ act tracked => tracked.exec act)
    (tracked_start (str "n") emptyWorld) busyActs
  exact ⟨due, fun queues => absurd ((queues_iff tracked due).mp queues) (by decide)⟩

end ResolverSystem

end ApiSensor
