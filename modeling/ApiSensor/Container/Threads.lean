import ApiSensor.Container
import Mathlib.Tactic.SplitIfs

/-!
# Threads at the container resolver

A call of `ContainerResolver::resolve` locks the cache, the cgroup index, the cache again and the
pending set, one after the other, and a worker answers the lookups that the calls have queued.  Each
of these steps is atomic; the scheduler decides who moves, when time passes and how the cgroup tree
changes.
-/

namespace ApiSensor

open Library

/-! ## From cgroups to containers -/

def isAsciiHexdigit (c : Char) : Bool := (digit? 16 c).isSome

/-- A container ID segment: optional runtime in front, 32 or more hex digits, optional `.scope`. -/
def containerIdFromSegment (segment : Str) : Option Str :=
  let name := (segment.dropSuffix? (str ".scope")).getD segment
  let runtimes := ["cri-containerd-", "cri-o-", "crio-", "docker-", "libpod-", "containerd-"]
  let id := (runtimes.findSome? fun runtime => name.dropPrefix? (str runtime)).getD name
  if 32 ≤ strLen id ∧ id.all isAsciiHexdigit then some id else none

def shortId (full : Str) : Str := full.take 12

/-- The last segment of a path that names a container. -/
def parseCgroupPath (path : Str) : Option CgroupInfo :=
  let segments := (split '/' path).filter fun segment =>
    !(segment.isEmpty || segment == str ".." || segment == str ".")
  (segments.filterMap containerIdFromSegment).getLast?.map fun id =>
    ⟨some id, some (shortId id)⟩

/-- The text of `/proc/<pid>/cgroup`: the first line whose path names a container wins. -/
def parseCgroupText (contents : Str) : Option CgroupInfo :=
  let path (line : Str) := (splitOnce ':' line).bind fun parts =>
    (splitOnce ':' parts.2).map Prod.snd
  ((lines contents).filterMap path).findSome? parseCgroupPath

/-- What the file systems say: the result of `scan_cgroup_tree`, and `/proc/<pid>/cgroup`. -/
structure World where
  tree : Dict UInt64 Str
  proc : UInt32 → Option Str

/-- `parse_cgroup_info`; the identifier of the process is cast to a signed number. -/
def parseCgroupInfo (world : World) (pid : UInt32) : Option CgroupInfo :=
  if pid = 0 ∨ 2 ^ 31 ≤ pid.toNat then none else (world.proc pid).bind parseCgroupText

/-- Paths of cgroups, as they were at the last scan. -/
structure CgroupIndex where
  byId : Dict UInt64 Str
  lastScan : Option Nat

/-- `CGROUP_RESCAN_COOLDOWN`. -/
def cgroupRescanCooldown : Nat := 2000

/-- A scan is due if there was none within the cooldown. -/
def CgroupIndex.due (index : CgroupIndex) (clock : Nat) : Bool :=
  index.lastScan.all fun scan => cgroupRescanCooldown ≤ clock - scan

def cgroupPathForId (world : World) (clock : Nat) (index : CgroupIndex) (cgroupId : UInt64) :
    Option Str × CgroupIndex :=
  match index.byId.get? cgroupId with
  | some path => (some path, index)
  | none =>
    if index.due clock then (world.tree.get? cgroupId, ⟨world.tree, some clock⟩)
    else (none, index)

def cgroupInfoFor (world : World) (clock : Nat) (index : CgroupIndex) (ev : TlsEventHeader) :
    Option CgroupInfo × CgroupIndex :=
  let (path, index) := cgroupPathForId world clock index ev.cgroupId
  ((path.bind parseCgroupPath).or (parseCgroupInfo world ev.pid), index)

/-! ## The steps -/

/-- The slots of the channel for lookups. -/
def lookupCapacity : Nat := 1024

/-- A call of `resolve`, by the step it takes next. -/
inductive ResolveCall where
  /-- The time is read, and the cache is to be looked up. -/
  | lookup (ev : TlsEventHeader) (now : Nat)
  /-- The cache has no fresh entry, and `cgroup_info_for` is to be asked. -/
  | identify (ev : TlsEventHeader) (now : Nat)
  | insert (ev : TlsEventHeader) (now : Nat) (info : Option CgroupInfo)
  | request (cgroupId : UInt64) (containerIdFull : Str) (context : ContainerContext)
  | returned (answer : Option ContainerContext)

/-- The worker, by the step it takes next. -/
inductive Worker where
  | idle
  | fetching (req : ContainerLookupRequest)
  /-- `update_from_cri`, before it locks the cache. -/
  | storing (cgroupId : UInt64) (metadata : ContainerMetadata)
  /-- `update_from_cri`, before it locks the pending set. -/
  | unmarking (cgroupId : UInt64)
  | failing (cgroupId : UInt64)

/-- What happened to the entry of a cgroup. -/
inductive CacheNote where
  /-- A call has inserted an entry, with what it knew about the container. -/
  | created (cgroupId : UInt64) (info : Option CgroupInfo)
  /-- `update_from_cri` has stored metadata in the entry. -/
  | stored (cgroupId : UInt64) (metadata : ContainerMetadata)

/-- All threads and what they share. -/
structure ResolverSystem where
  resolver : ContainerResolver
  index : CgroupIndex
  /-- The calls, numbered in the order in which they are made. -/
  calls : List ResolveCall
  worker : Worker
  clock : Nat
  world : World
  /-- The history of the cache, latest first.  No step reads it. -/
  notes : List CacheNote

/-- What the scheduler can choose.  A choice that is not possible changes nothing. -/
inductive ResolverAct where
  | tick (elapsed : Nat)
  | change (world : World)
  | call (ev : TlsEventHeader)
  /-- A call takes its next step. -/
  | step (index : Nat)
  /-- The worker takes a request from the channel. -/
  | receive
  /-- The runtime answers the worker, or the lookup fails. -/
  | answer (result : Option ContainerMetadata)
  /-- The worker takes its next step. -/
  | work

namespace ContainerResolver

/-- The part of `resolve` that holds the cache for a fresh entry: the entry afterwards, and the
container whose lookup is to be retried. -/
def refresh (now : Nat) (entry : ContainerCacheEntry) : ContainerCacheEntry × Option Str :=
  let seen := { entry with lastSeen := now }
  match entry.unresolvedId with
  | none => (seen, none)
  | some id =>
    if entry.retryAt ≤ now then
      let attempts := entry.attempts + 1
      ({ seen with attempts, retryAt := now + lookupBackoff attempts }, some id)
    else (seen, none)

/-- The part of `update_from_cri` that holds the cache. -/
def store (now : Nat) (metadata : ContainerMetadata) (entry : ContainerCacheEntry) :
    ContainerCacheEntry :=
  { entry with
    context := { entry.context with
      podName := metadata.podName
      podNamespace := metadata.podNamespace
      containerName := metadata.containerName
      serviceName := metadata.serviceName
      workloadType := metadata.workloadType }
    lastSeen := now
    unresolvedId := none }

/-- There is a free slot in the channel. -/
def room (resolver : ContainerResolver) : Bool := resolver.lookups.length < lookupCapacity

end ContainerResolver

namespace ResolverSystem

def start (nodeName : Str) (world : World) : ResolverSystem where
  resolver := .new nodeName
  index := ⟨.empty, none⟩
  calls := []
  worker := .idle
  clock := 0
  world
  notes := []

/-- The call goes on to its request if there is a container to look up. -/
def afterCache (cgroupId : UInt64) (retry : Option Str) (context : ContainerContext) :
    ResolveCall :=
  match retry with
  | some id => .request cgroupId id context
  | none => .returned (some context)

/-- The step of a call that is to look up the cache. -/
def lookupStep (sys : ResolverSystem) (ev : TlsEventHeader) (now : Nat) :
    ResolverSystem × ResolveCall :=
  if ev.cgroupId = 0 then (sys, .returned none)
  else
    match sys.resolver.cached now ev.cgroupId with
    | some entry =>
      let (entry', retry) := ContainerResolver.refresh now entry
      let cache := sys.resolver.cache.insert ev.cgroupId entry'
      ({ sys with resolver := { sys.resolver with cache } },
        afterCache ev.cgroupId retry entry.context)
    | none =>
      let cache := sys.resolver.makeRoom now
      ({ sys with resolver := { sys.resolver with cache } }, .identify ev now)

/-- The step of a call that is to insert its entry. -/
def insertStep (sys : ResolverSystem) (ev : TlsEventHeader) (now : Nat)
    (info : Option CgroupInfo) : ResolverSystem × ResolveCall :=
  let entry := sys.resolver.firstEntry ⟨now, info, sys.resolver.room⟩
  let cache := sys.resolver.cache.insert ev.cgroupId entry
  ({ sys with
      resolver := { sys.resolver with cache }
      notes := .created ev.cgroupId info :: sys.notes },
    afterCache ev.cgroupId entry.unresolvedId entry.context)

/-- The next step of a call. -/
def callStep (sys : ResolverSystem) : ResolveCall → ResolverSystem × ResolveCall
  | .lookup ev now => sys.lookupStep ev now
  | .identify ev now =>
    let (info, index) := cgroupInfoFor sys.world sys.clock sys.index ev
    ({ sys with index }, .insert ev now info)
  | .insert ev now info => sys.insertStep ev now info
  | .request cgroupId id context =>
    let moment := ⟨sys.clock, none, sys.resolver.room⟩
    ({ sys with resolver := sys.resolver.requestLookup moment cgroupId id },
      .returned (some context))
  | .returned answer => (sys, .returned answer)

/-- The step of `update_from_cri` that holds the cache. -/
def storeStep (sys : ResolverSystem) (cgroupId : UInt64) (metadata : ContainerMetadata) :
    ResolverSystem :=
  match sys.resolver.cache.get? cgroupId with
  | none => { sys with worker := .unmarking cgroupId }
  | some entry =>
    let entry := ContainerResolver.store sys.clock metadata entry
    let cache := sys.resolver.cache.insert cgroupId entry
    { sys with
      resolver := { sys.resolver with cache }
      worker := .unmarking cgroupId
      notes := .stored cgroupId metadata :: sys.notes }

/-- The worker is done with a lookup. -/
def unmark (sys : ResolverSystem) (cgroupId : UInt64) : ResolverSystem :=
  { sys with resolver := sys.resolver.markLookupFailed cgroupId, worker := .idle }

def exec (sys : ResolverSystem) : ResolverAct → ResolverSystem
  | .tick elapsed => { sys with clock := sys.clock + elapsed }
  | .change world => { sys with world }
  | .call ev => { sys with calls := sys.calls ++ [.lookup ev sys.clock] }
  | .step index =>
    match sys.calls[index]? with
    | none => sys
    | some call =>
      let (after, next) := sys.callStep call
      { after with calls := sys.calls.set index next }
  | .receive =>
    match sys.worker, sys.resolver.lookups with
    | .idle, req :: rest =>
      { sys with
        resolver := { sys.resolver with lookups := rest }
        worker := .fetching req }
    | _, _ => sys
  | .answer result =>
    match sys.worker, result with
    | .fetching req, some metadata => { sys with worker := .storing req.cgroupId metadata }
    | .fetching req, none => { sys with worker := .failing req.cgroupId }
    | _, _ => sys
  | .work =>
    match sys.worker with
    | .storing cgroupId metadata => sys.storeStep cgroupId metadata
    | .unmarking cgroupId => sys.unmark cgroupId
    | .failing cgroupId => sys.unmark cgroupId
    | _ => sys

theorem lookupStep_hit {sys : ResolverSystem} {ev : TlsEventHeader} {now : Nat}
    {entry : ContainerCacheEntry} (inside : ev.cgroupId ≠ 0)
    (cached : sys.resolver.cached now ev.cgroupId = some entry) :
    sys.lookupStep ev now =
      let refreshed := ContainerResolver.refresh now entry
      let cache := sys.resolver.cache.insert ev.cgroupId refreshed.1
      ({ sys with resolver := { sys.resolver with cache } },
        afterCache ev.cgroupId refreshed.2 entry.context) := by
  rw [lookupStep, if_neg inside, cached]

theorem lookupStep_miss {sys : ResolverSystem} {ev : TlsEventHeader} {now : Nat}
    (inside : ev.cgroupId ≠ 0) (missed : sys.resolver.cached now ev.cgroupId = none) :
    sys.lookupStep ev now =
      ({ sys with resolver := { sys.resolver with cache := sys.resolver.makeRoom now } },
        .identify ev now) := by
  rw [lookupStep, if_neg inside, missed]

def run (sys : ResolverSystem) (acts : List ResolverAct) : ResolverSystem := acts.foldl exec sys

variable (sys : ResolverSystem)

@[simp]
theorem run_nil : sys.run [] = sys := rfl

@[simp]
theorem run_cons (act : ResolverAct) (acts : List ResolverAct) :
    sys.run (act :: acts) = (sys.exec act).run acts := rfl

@[simp]
theorem run_append (first second : List ResolverAct) :
    sys.run (first ++ second) = (sys.run first).run second := List.foldl_append

/-- What every act preserves holds in every state of a run. -/
theorem run_invariant {inv : ResolverSystem → Prop} {sys : ResolverSystem}
    (preserved : ∀ sys act, inv sys → inv (exec sys act)) (initial : inv sys)
    (acts : List ResolverAct) : inv (sys.run acts) := by
  induction acts generalizing sys with
  | nil => exact initial
  | cons act acts induction => exact induction (preserved sys act initial)

/-! ## A call without interruption -/

/-- A call and the system around it, one step later. -/
def advance (state : ResolverSystem × ResolveCall) : ResolverSystem × ResolveCall :=
  state.1.callStep state.2

/-- A call that takes all its steps at once. -/
def callAlone (sys : ResolverSystem) (ev : TlsEventHeader) : ResolverSystem × ResolveCall :=
  advance (advance (advance (advance (sys, .lookup ev sys.clock))))

/-- What a call takes from outside, if nothing interrupts it. -/
def moment (sys : ResolverSystem) (ev : TlsEventHeader) : LookupMoment :=
  ⟨sys.clock, (cgroupInfoFor sys.world sys.clock sys.index ev).1, sys.resolver.room⟩

/-- The request of a call that has left the cache, if it has one to make. -/
def requested (moment : LookupMoment) (cgroupId : UInt64) (retry : Option Str)
    (resolver : ContainerResolver) : ContainerResolver :=
  match retry with
  | none => resolver
  | some id => resolver.requestLookup moment cgroupId id

@[simp]
theorem advance_returned (answer : Option ContainerContext) :
    advance (sys, .returned answer) = (sys, .returned answer) := rfl

section

variable (moment : LookupMoment) (cgroupId : UInt64) (entry : ContainerCacheEntry)
  (resolver : ContainerResolver)

theorem advance_afterCache (sys : ResolverSystem) (cgroupId : UInt64) (retry : Option Str)
    (context : ContainerContext) (room : moment.room = sys.resolver.room) :
    advance (sys, afterCache cgroupId retry context) =
      ({ sys with resolver := requested moment cgroupId retry sys.resolver },
        .returned (some context)) := by
  cases retry with
  | none => rfl
  | some id =>
    simp only [advance, afterCache, callStep, requested, ContainerResolver.requestLookup, room]

theorem touch_eq_requested :
    resolver.touch moment cgroupId entry =
      let refreshed := ContainerResolver.refresh moment.now entry
      requested moment cgroupId refreshed.2
        { resolver with cache := resolver.cache.insert cgroupId refreshed.1 } := by
  unfold ContainerResolver.touch ContainerResolver.refresh
  cases entry.unresolvedId with
  | none => rfl
  | some id =>
    dsimp only
    split_ifs <;> rfl

theorem enter_eq_requested :
    resolver.enter moment cgroupId =
      requested moment cgroupId (resolver.firstEntry moment).unresolvedId
        { resolver with
          cache := (resolver.makeRoom moment.now).insert cgroupId (resolver.firstEntry moment) } := by
  unfold ContainerResolver.enter
  dsimp only
  cases (resolver.firstEntry moment).unresolvedId <;> rfl

end

/-- Without interruption a call does what `resolve` does to the resolver, and answers the same. -/
theorem callAlone_eq_resolve (ev : TlsEventHeader) :
    (sys.callAlone ev).1.resolver = (sys.resolver.resolve (sys.moment ev) ev.cgroupId).2 ∧
      (sys.callAlone ev).2 =
        .returned (sys.resolver.resolve (sys.moment ev) ev.cgroupId).1 := by
  have first : advance (sys, .lookup ev sys.clock) = sys.lookupStep ev (sys.moment ev).now := rfl
  rw [callAlone, first]
  by_cases outside : ev.cgroupId = 0
  · simp [lookupStep, ContainerResolver.resolve, outside]
  rw [ContainerResolver.resolve, if_neg outside]
  cases cached : sys.resolver.cached (sys.moment ev).now ev.cgroupId with
  | some entry =>
    rw [lookupStep_hit outside cached]
    dsimp only
    rw [advance_afterCache (sys.moment ev), advance_returned, advance_returned,
      touch_eq_requested]
    · exact ⟨rfl, rfl⟩
    · rfl
  | none =>
    rw [lookupStep_miss outside cached]
    have later : advance (advance ({ sys with
          resolver := { sys.resolver with cache := sys.resolver.makeRoom (sys.moment ev).now } },
          .identify ev (sys.moment ev).now)) =
        insertStep { sys with
          resolver := { sys.resolver with cache := sys.resolver.makeRoom (sys.moment ev).now }
          index := (cgroupInfoFor sys.world sys.clock sys.index ev).2 }
          ev (sys.moment ev).now (sys.moment ev).cgroupInfo := rfl
    rw [later, insertStep, advance_afterCache (sys.moment ev), enter_eq_requested]
    · exact ⟨rfl, rfl⟩
    · rfl

end ResolverSystem

end ApiSensor
