import ApiSensor.Container.Retry

/-!
# Metadata and late inserts

A call that has missed the cache inserts its entry without looking again, so metadata that came in
between is overwritten.  Metadata stored while no such call is under way stays until its entry has
been unused for the time to live.
-/

namespace ApiSensor

open Library

/-- The call has missed the cache for a cgroup and has not inserted its entry yet. -/
def ResolveCall.Missed (cgroupId : UInt64) : ResolveCall → Prop
  | .identify ev _ => ev.cgroupId = cgroupId
  | .insert ev _ _ => ev.cgroupId = cgroupId
  | .lookup _ _ => False
  | .request _ _ _ => False
  | .returned _ => False

/-- Metadata that says nothing. -/
def ContainerMetadata.nothing : ContainerMetadata := ⟨none, none, none, none, none⟩

/-- The metadata stored for a cgroup, if the note is about that. -/
def CacheNote.metadata? (cgroupId : UInt64) : CacheNote → Option ContainerMetadata
  | .created _ _ => none
  | .stored other metadata => if other = cgroupId then some metadata else none

namespace ResolverSystem

/-- What `update_from_cri` has stored last for a cgroup. -/
def lastStored (sys : ResolverSystem) (cgroupId : UInt64) : Option ContainerMetadata :=
  sys.notes.findSome? (CacheNote.metadata? cgroupId)

/-- The entry of a cgroup has been used within the time to live. -/
def Unexpired (sys : ResolverSystem) (cgroupId : UInt64) : Prop :=
  ∀ entry, sys.resolver.cache.get? cgroupId = some entry →
    sys.clock - entry.lastSeen < containerTtl

/-- The entry of a cgroup carries some metadata. -/
def Holds (sys : ResolverSystem) (cgroupId : UInt64) (metadata : ContainerMetadata) : Prop :=
  ∃ entry, sys.resolver.cache.get? cgroupId = some entry ∧ entry.Carries metadata

/-- From a state on, the entry of a cgroup holds some metadata for as long as nothing else is
stored, until it has been unused for the time to live. -/
def KeptFrom (sys : ResolverSystem) (cgroupId : UInt64) (metadata : ContainerMetadata) : Prop :=
  ∀ later : List ResolverAct,
    (∀ early act rest, later = early ++ act :: rest → (sys.run early).Unexpired cgroupId) →
    (sys.run later).lastStored cgroupId = some metadata → (sys.run later).Holds cgroupId metadata

/-- Calls read the clock before they look up the cache. -/
def Timely (sys : ResolverSystem) : Prop :=
  ∀ ev now, .lookup ev now ∈ sys.calls → now ≤ sys.clock

/-- What is kept of a cgroup: its entry carries what was stored last, if that is one of some
protected values.  Unless no call is on its way to overwrite it, only saying nothing is protected. -/
structure Guarded (protect : ContainerMetadata → Prop) (cgroupId : UInt64) (sys : ResolverSystem) :
    Prop where
  present : (sys.resolver.cache.get? cgroupId).isSome
  carries : ∀ metadata, protect metadata → sys.lastStored cgroupId = some metadata →
    sys.Holds cgroupId metadata
  safe : (∀ call ∈ sys.calls, ¬ call.Missed cgroupId) ∨
    ∀ metadata, protect metadata → metadata = .nothing
  timely : sys.Timely

/-! ## One step -/

section Steps

variable {protect : ContainerMetadata → Prop} {cgroupId : UInt64} {sys after : ResolverSystem}

/-- Steps that leave the entry of the cgroup alone, or use it. -/
theorem Guarded.frame (guarded : sys.Guarded protect cgroupId)
    (entries : ∀ entry, sys.resolver.cache.get? cgroupId = some entry →
      ∃ entry', after.resolver.cache.get? cgroupId = some entry' ∧ entry'.context = entry.context)
    (stored : after.lastStored cgroupId = sys.lastStored cgroupId)
    (calls : ∀ call ∈ after.calls, call.Missed cgroupId → ∃ call' ∈ sys.calls,
      call'.Missed cgroupId) (timely : after.Timely) : after.Guarded protect cgroupId where
  present := by
    obtain ⟨entry, found⟩ := Option.isSome_iff_exists.mp guarded.present
    obtain ⟨entry', found', -⟩ := entries entry found
    simp [found']
  carries metadata protected_ last := by
    obtain ⟨entry, found, carries⟩ := guarded.carries metadata protected_ (stored ▸ last)
    obtain ⟨entry', found', context⟩ := entries entry found
    refine ⟨entry', found', ?_⟩
    constructor <;> rw [context]
    · exact carries.podName
    · exact carries.podNamespace
    · exact carries.containerName
    · exact carries.serviceName
    · exact carries.workloadType
  safe := by
    refine guarded.safe.imp_left fun none_ call member missed => ?_
    obtain ⟨call', member', missed'⟩ := calls call member missed
    exact none_ call' member' missed'
  timely

theorem lookup_ne_callStep (sys : ResolverSystem) (call : ResolveCall) (ev : TlsEventHeader)
    (now : Nat) : .lookup ev now ≠ (sys.callStep call).2 := by
  have after (cgroupId : UInt64) (retry : Option Str) (context : ContainerContext) :
      .lookup ev now ≠ afterCache cgroupId retry context := by
    cases retry <;> exact ResolveCall.noConfusion
  cases call with
  | lookup ev' now' =>
    simp only [callStep, lookupStep]
    split
    · exact ResolveCall.noConfusion
    · split
      · exact after _ _ _
      · exact ResolveCall.noConfusion
  | insert _ _ _ => exact after _ _ _
  | identify _ _ | request _ _ _ | returned _ => exact ResolveCall.noConfusion

theorem clock_callStep (sys : ResolverSystem) (call : ResolveCall) :
    (sys.callStep call).1.clock = sys.clock := by
  cases call with
  | lookup ev now =>
    simp only [callStep, lookupStep]
    split
    · rfl
    · split <;> rfl
  | identify _ _ | insert _ _ _ | request _ _ _ | returned _ => rfl

theorem Timely.effect {act : ResolverAct} (timely : sys.Timely) (effect : sys.Effect act after) :
    after.Timely := by
  cases effect with
  | quiet _ _ calls clock =>
    exact fun ev now member => (timely ev now (calls ▸ member)).trans clock
  | called ev =>
    intro ev' now member
    rcases List.mem_append.mp member with old | new
    · exact timely ev' now old
    · cases List.mem_singleton.mp new
      exact le_rfl
  | @moved index call here =>
    intro ev now member
    rcases List.mem_or_eq_of_mem_set member with old | new
    · exact (timely ev now old).trans_eq (sys.clock_callStep call).symm
    · exact absurd new (sys.lookup_ne_callStep call ev now)
  | stored _ => exact timely

/-- A fresh entry survives when a call makes room. -/
theorem get?_makeRoom_of_fresh {resolver : ContainerResolver} {entry : ContainerCacheEntry}
    {now : Nat} (found : resolver.cache.get? cgroupId = some entry)
    (fresh : ContainerResolver.isFresh now entry) :
    (resolver.makeRoom now).get? cgroupId = some entry := by
  unfold ContainerResolver.makeRoom
  split_ifs
  · exact Dict.get?_retain_eq_some.mpr ⟨found, fresh⟩
  · exact found

theorem not_missed_afterCache (other : UInt64) (retry : Option Str) (context : ContainerContext) :
    ¬ (afterCache other retry context).Missed cgroupId := by
  cases retry <;> exact id

/-- A lookup finds the entry of the cgroup, or leaves it alone. -/
theorem lookupStep_of_fresh (ev : TlsEventHeader) {now : Nat} {entry : ContainerCacheEntry}
    (found : sys.resolver.cache.get? cgroupId = some entry)
    (fresh : ContainerResolver.isFresh now entry) :
    (∃ entry', (sys.lookupStep ev now).1.resolver.cache.get? cgroupId = some entry' ∧
        entry'.context = entry.context) ∧
      (sys.lookupStep ev now).1.notes = sys.notes ∧
      ¬ (sys.lookupStep ev now).2.Missed cgroupId := by
  by_cases outside : ev.cgroupId = 0
  · rw [lookupStep, if_pos outside]
    exact ⟨⟨entry, found, rfl⟩, rfl, id⟩
  cases cached : sys.resolver.cached now ev.cgroupId with
  | some seen =>
    rw [lookupStep_hit outside cached]
    refine ⟨?_, rfl, not_missed_afterCache _ _ _⟩
    by_cases same : cgroupId = ev.cgroupId
    · subst same
      obtain rfl := Option.some.inj (found.symm.trans (Option.filter_eq_some_iff.mp cached).1)
      exact ⟨_, Dict.get?_insert_self _ _ _, (refresh_frame now entry).2⟩
    · exact ⟨entry, (Dict.get?_insert_of_ne _ same _).trans found, rfl⟩
  | none =>
    rw [lookupStep_miss outside cached]
    refine ⟨⟨entry, get?_makeRoom_of_fresh found fresh, rfl⟩, rfl, fun same => ?_⟩
    have missed : sys.resolver.cached now cgroupId = none := same ▸ cached
    rw [ContainerResolver.cached, found, Option.filter_some, if_pos fresh] at missed
    cases missed

/-- A call that moves leaves what was stored last, and the entry of the cgroup unless it is the one
that overwrites it. -/
theorem Guarded.callStep (guarded : sys.Guarded protect cgroupId)
    (unexpired : sys.Unexpired cgroupId) {index : Nat} {call : ResolveCall}
    (here : sys.calls[index]? = some call) (keeps : ∀ ev now info, call = .insert ev now info →
      ev.cgroupId ≠ cgroupId) :
    (∀ entry, sys.resolver.cache.get? cgroupId = some entry →
        ∃ entry', (sys.callStep call).1.resolver.cache.get? cgroupId = some entry' ∧
          entry'.context = entry.context) ∧
      (sys.callStep call).1.lastStored cgroupId = sys.lastStored cgroupId ∧
      ((sys.callStep call).2.Missed cgroupId → call.Missed cgroupId) := by
  cases call with
  | lookup ev now =>
    obtain ⟨entry, found⟩ := Option.isSome_iff_exists.mp guarded.present
    have before := guarded.timely ev now (List.mem_of_getElem? here)
    have fresh : ContainerResolver.isFresh now entry :=
      decide_eq_true ((Nat.sub_le_sub_right before _).trans_lt (unexpired entry found))
    obtain ⟨same, notes, hit⟩ := lookupStep_of_fresh ev found fresh
    refine ⟨fun other found' => ?_, ?_, fun missed => absurd missed hit⟩
    · cases Option.some.inj (found.symm.trans found')
      exact same
    · rw [lastStored, ResolverSystem.callStep, notes]
      rfl
  | insert ev now info =>
    refine ⟨fun entry found => ⟨entry, ?_, rfl⟩, rfl,
      fun missed => absurd missed (not_missed_afterCache _ _ _)⟩
    exact (Dict.get?_insert_of_ne _ (Ne.symm (keeps ev now info rfl)) _).trans found
  | request other id context =>
    refine ⟨fun entry found => ⟨entry, ?_, rfl⟩, rfl, fun missed => missed⟩
    exact (congrArg (·.get? cgroupId)
      (ContainerResolver.cache_requestLookup _ _ _ _)).trans found
  | identify _ _ | returned _ => exact ⟨fun entry found => ⟨entry, found, rfl⟩, rfl, id⟩

/-- What a state guards, the next one does, if the entry has not expired. -/
theorem Guarded.effect {act : ResolverAct} (guarded : sys.Guarded protect cgroupId)
    (unexpired : sys.Unexpired cgroupId) (effect : sys.Effect act after) :
    after.Guarded protect cgroupId := by
  have timely := guarded.timely.effect effect
  cases effect with
  | quiet cache notes calls _ =>
    refine guarded.frame (fun entry found => ⟨entry, cache ▸ found, rfl⟩) ?_
      (fun call member missed => ⟨call, calls ▸ member, missed⟩) timely
    rw [lastStored, notes]
    rfl
  | called ev =>
    refine guarded.frame (fun entry found => ⟨entry, found, rfl⟩) rfl (fun call member missed => ?_)
      timely
    rcases List.mem_append.mp member with old | new
    · exact ⟨call, old, missed⟩
    · cases List.mem_singleton.mp new
      exact missed.elim
  | @moved index call here =>
    by_cases overwrites : ∃ ev now info, call = .insert ev now info ∧ ev.cgroupId = cgroupId
    · obtain ⟨ev, now, info, rfl, rfl⟩ := overwrites
      -- such a call is on its way only if nothing but saying nothing is protected
      have weak := guarded.safe.resolve_left fun none_ =>
        none_ _ (List.mem_of_getElem? here) rfl
      have found := Dict.get?_insert_self sys.resolver.cache ev.cgroupId
        (sys.resolver.firstEntry ⟨now, info, sys.resolver.room⟩)
      refine ⟨?_, fun metadata protected_ _ => ?_, .inr weak, timely⟩
      · exact Option.isSome_iff_exists.mpr ⟨_, found⟩
      · rw [weak metadata protected_]
        exact ⟨_, found, rfl, rfl, rfl, rfl, rfl⟩
    · obtain ⟨entries, stored, missed⟩ := guarded.callStep unexpired here
        fun ev now info same cgroup => overwrites ⟨ev, now, info, same, cgroup⟩
      refine guarded.frame entries stored (fun other member missed' => ?_) timely
      rcases List.mem_or_eq_of_mem_set member with old | rfl
      · exact ⟨other, old, missed'⟩
      · exact ⟨call, List.mem_of_getElem? here, missed missed'⟩
  | @stored other metadata entry found =>
    by_cases same : other = cgroupId
    · subst same
      have found := Dict.get?_insert_self sys.resolver.cache other
        (ContainerResolver.store sys.clock metadata entry)
      refine ⟨Option.isSome_iff_exists.mpr ⟨_, found⟩, fun last _ stored => ?_, guarded.safe, timely⟩
      have now : lastStored { sys with notes := .stored other metadata :: sys.notes } other =
          some metadata := by simp [lastStored, CacheNote.metadata?]
      cases Option.some.inj (stored.symm.trans now)
      exact ⟨_, found, rfl, rfl, rfl, rfl, rfl⟩
    · refine guarded.frame (fun entry found => ⟨entry, ?_, rfl⟩) ?_
        (fun call member missed => ⟨call, member, missed⟩) timely
      · exact (Dict.get?_insert_of_ne _ (Ne.symm same) _).trans found
      · simp [lastStored, CacheNote.metadata?, same]

end Steps

/-! ## Whole runs -/

variable {sys : ResolverSystem} {metadata : ContainerMetadata}

theorem Guarded.run {protect : ContainerMetadata → Prop} {cgroupId : UInt64}
    (guarded : sys.Guarded protect cgroupId) {later : List ResolverAct}
    (unexpired : ∀ early act rest, later = early ++ act :: rest →
      (sys.run early).Unexpired cgroupId) : (sys.run later).Guarded protect cgroupId := by
  induction later generalizing sys with
  | nil => exact guarded
  | cons act later induction =>
    have first := unexpired [] act later rfl
    refine induction (guarded.effect first (sys.effect_exec act)) fun early act' rest split => ?_
    exact unexpired (act :: early) act' rest (congrArg (act :: ·) split)

theorem timely_run (nodeName : Str) (world : World) (acts : List ResolverAct) :
    ((start nodeName world).run acts).Timely :=
  run_invariant (fun sys act timely => timely.effect (sys.effect_exec act))
    (fun _ _ member => absurd member List.not_mem_nil) acts

/-- The state after the worker has stored metadata. -/
theorem exec_storing {cgroupId : UInt64} (storing : sys.worker = .storing cgroupId metadata)
    (present : (sys.resolver.cache.get? cgroupId).isSome) :
    (sys.exec .work).Holds cgroupId metadata ∧
      (sys.exec .work).lastStored cgroupId = some metadata ∧
      (sys.exec .work).calls = sys.calls ∧ (sys.exec .work).Unexpired cgroupId := by
  obtain ⟨entry, found⟩ := Option.isSome_iff_exists.mp present
  have stored := Dict.get?_insert_self sys.resolver.cache cgroupId
    (ContainerResolver.store sys.clock metadata entry)
  simp only [exec, storing, storeStep, found]
  refine ⟨⟨_, stored, rfl, rfl, rfl, rfl, rfl⟩, ?_, trivial, fun entry' found' => ?_⟩
  · simp [lastStored, CacheNote.metadata?]
  · cases Option.some.inj (stored.symm.trans found')
    simp [ContainerResolver.store, containerTtl]

theorem KeptFrom.exec {cgroupId : UInt64} (kept : sys.KeptFrom cgroupId metadata)
    (unexpired : sys.Unexpired cgroupId) (act : ResolverAct) :
    (sys.exec act).KeptFrom cgroupId metadata := by
  intro later fresh last
  refine kept (act :: later) (fun early next rest split => ?_) last
  cases early with
  | nil => exact unexpired
  | cons first early =>
    obtain ⟨rfl, tail⟩ := List.cons_eq_cons.mp split
    exact fresh early next rest tail

/-- A late insert leaves an entry that carries nothing. -/
theorem eq_nothing_of_insert {index : Nat} {ev : TlsEventHeader} {now : Nat}
    {info : Option CgroupInfo} (here : sys.calls[index]? = some (.insert ev now info))
    (kept : sys.KeptFrom ev.cgroupId metadata) (unexpired : sys.Unexpired ev.cgroupId)
    (stored : sys.lastStored ev.cgroupId = some metadata) : metadata = .nothing := by
  have same : (sys.exec (.step index)).lastStored ev.cgroupId = some metadata := by
    rw [← stored]
    simp only [exec, here, callStep, insertStep, lastStored]
    rfl
  obtain ⟨entry, found, carries⟩ := kept.exec unexpired (.step index) [] (by simp) same
  simp only [run_nil, exec, here, callStep, insertStep, Dict.get?_insert_self,
    Option.some.injEq] at found
  subst found
  obtain ⟨podName, podNamespace, containerName, serviceName, workloadType⟩ := metadata
  obtain ⟨rfl, rfl, rfl, rfl, rfl⟩ := carries
  rfl

theorem eq_nothing_of_missed {cgroupId : UInt64} (kept : sys.KeptFrom cgroupId metadata)
    (unexpired : sys.Unexpired cgroupId) (stored : sys.lastStored cgroupId = some metadata)
    {index : Nat} {call : ResolveCall} (here : sys.calls[index]? = some call)
    (missed : call.Missed cgroupId) : metadata = .nothing := by
  cases call with
  | insert ev now info =>
    cases missed
    exact eq_nothing_of_insert here kept unexpired stored
  | identify ev now =>
    cases missed
    have inside := (List.getElem?_eq_some_iff.mp here).1
    have next : (sys.exec (.step index)).calls[index]? = some (.insert ev now
        (cgroupInfoFor sys.world sys.clock sys.index ev).1) := by
      simp only [exec, here, callStep]
      exact List.getElem?_set_self inside
    have same : (sys.exec (.step index)).resolver = sys.resolver ∧
        (sys.exec (.step index)).clock = sys.clock ∧
        (sys.exec (.step index)).notes = sys.notes := by
      simp only [exec, here, callStep, and_self]
    refine eq_nothing_of_insert next (kept.exec unexpired _) ?_ ?_
    · rw [Unexpired, same.1, same.2.1]
      exact unexpired
    · rw [lastStored, same.2.2]
      exact stored
  | lookup _ _ | request _ _ _ | returned _ => exact missed.elim

/-- From any state in which `update_from_cri` is about to store metadata, the entry keeps it in
every continuation until it has been unused for the time to live, exactly if no call that has missed
the cache for this cgroup is under way (or there is nothing to keep). -/
theorem metadata_kept_iff (nodeName : Str) (world : World) (acts : List ResolverAct)
    {cgroupId : UInt64} {metadata : ContainerMetadata}
    (storing : ((start nodeName world).run acts).worker = .storing cgroupId metadata)
    (present : (((start nodeName world).run acts).resolver.cache.get? cgroupId).isSome) :
    (((start nodeName world).run acts).exec .work).KeptFrom cgroupId metadata ↔
      (∀ call ∈ ((start nodeName world).run acts).calls, ¬ call.Missed cgroupId) ∨
        metadata = .nothing := by
  have timely := timely_run nodeName world acts
  generalize (start nodeName world).run acts = sys at timely storing present ⊢
  obtain ⟨holds, stored, calls, unexpired⟩ := exec_storing storing present
  constructor
  · intro kept
    by_contra unsafe_
    rw [not_or, not_forall] at unsafe_
    obtain ⟨⟨call, missed⟩, something⟩ := unsafe_
    rw [Classical.not_imp, not_not] at missed
    obtain ⟨index, here⟩ := List.getElem?_of_mem (calls ▸ missed.1)
    exact something (eq_nothing_of_missed kept unexpired stored here missed.2)
  · intro safe later fresh last
    have guarded : (sys.exec .work).Guarded (fun other => other = metadata) cgroupId := by
      refine ⟨?_, ?_, ?_, timely.effect (sys.effect_exec .work)⟩
      · obtain ⟨entry, found, -⟩ := holds
        exact Option.isSome_iff_exists.mpr ⟨entry, found⟩
      · rintro _ rfl -
        exact holds
      · rw [calls]
        exact safe.imp_right fun nothing _ same => same.trans nothing
    exact (guarded.run fresh).carries metadata rfl last

/-- What the runtime answers about a container. -/
def prodMetadata : ContainerMetadata := ⟨some (str "p"), some (str "prod"), none, none, none⟩

/-- A call goes through, and its lookup is answered. -/
def answeredActs : List ResolverAct :=
  [.call (inCgroup 7), .step 0, .step 0, .step 0, .step 0, .receive, .answer (some prodMetadata)]

theorem metadata_kept_after_calls :
    (((start (str "n") foundWorld).run answeredActs).exec .work).KeptFrom 7 prodMetadata :=
  (metadata_kept_iff (str "n") foundWorld answeredActs rfl rfl).mpr
    (.inl fun _ member => by cases List.mem_singleton.mp member; exact id)

/-- A second call misses the cache before the first one inserts its entry, and inserts its own after
the metadata has come, at the same time. -/
def overtakenActs : List ResolverAct :=
  [.call (inCgroup 7), .call (inCgroup 7), .step 1, .step 0, .step 0, .step 0, .step 0, .receive,
    .answer (some prodMetadata), .work]

theorem metadata_lost_to_late_insert :
    ((start (str "n") foundWorld).run overtakenActs).resolver.namespaceOf 0 7 = some (str "prod") ∧
      ((start (str "n") foundWorld).run (overtakenActs ++ [.step 1, .step 1])).resolver.namespaceOf
        0 7 = none ∧
      ((start (str "n") foundWorld).run (overtakenActs ++ [.step 1, .step 1])).clock = 0 := by
  exact ⟨rfl, rfl, rfl⟩

end ResolverSystem

end ApiSensor
