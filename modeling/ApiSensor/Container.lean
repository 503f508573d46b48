import ApiSensor.Types

/-!
# Container metadata

`ContainerResolver` maps the cgroup of an event to what is known about its container.  A cgroup that
is seen for the first time has no namespace; a lookup in the container runtime supplies it later,
and an entry that has not been used for ten minutes is forgotten.
-/

namespace ApiSensor

open Library

/-- What a cgroup path tells about a container. -/
structure CgroupInfo where
  containerIdFull : Option Str
  containerIdShort : Option Str

structure ContainerCacheEntry where
  context : ContainerContext
  lastSeen : Nat
  /-- The container whose lookup is outstanding. -/
  unresolvedId : Option Str
  retryAt : Nat
  attempts : Nat

structure ContainerLookupRequest where
  cgroupId : UInt64
  containerIdFull : Str

structure ContainerMetadata where
  podName : Option Str
  podNamespace : Option Str
  containerName : Option Str
  serviceName : Option Str
  workloadType : Option Str

structure ContainerResolver where
  cache : Dict UInt64 ContainerCacheEntry
  /-- Cgroups whose lookup is in flight, in the order of iteration. -/
  pending : List UInt64
  /-- What was handed to `lookup_tx`. -/
  lookups : List ContainerLookupRequest
  nodeName : Str

/-- What a call takes from outside: the monotonic clock in milliseconds, the cgroup tree and
`/proc`, and whether `lookup_tx` has room. -/
structure LookupMoment where
  now : Nat
  cgroupInfo : Option CgroupInfo
  room : Bool

def maxCacheEntries : Nat := 10000

def maxPendingLookups : Nat := 4096

/-- `ttl`: ten minutes. -/
def containerTtl : Nat := 600000

/-- `lookup_backoff`, between one second and a minute. -/
def lookupBackoff (attempts : Nat) : Nat := min (1000 * 2 ^ min attempts 6) 60000

namespace ContainerResolver

def new (nodeName : Str) : ContainerResolver := ⟨.empty, [], [], nodeName⟩

/-- `request_lookup`: one lookup at a time for a cgroup. -/
def requestLookup (moment : LookupMoment) (cgroupId : UInt64) (containerIdFull : Str)
    (resolver : ContainerResolver) : ContainerResolver :=
  if cgroupId ∈ resolver.pending then resolver
  else
    let pending :=
      if maxPendingLookups ≤ resolver.pending.length then resolver.pending.tail
      else resolver.pending
    if moment.room then
      { resolver with
        pending := pending ++ [cgroupId]
        lookups := resolver.lookups ++ [⟨cgroupId, containerIdFull⟩] }
    else { resolver with pending }

/-- The entry has been used within the last ten minutes. -/
def isFresh (now : Nat) (entry : ContainerCacheEntry) : Bool := now - entry.lastSeen < containerTtl

/-- The branch of `resolve` for a cached entry: a lookup that failed is retried after a while. -/
def touch (moment : LookupMoment) (cgroupId : UInt64) (entry : ContainerCacheEntry)
    (resolver : ContainerResolver) : ContainerResolver :=
  let seen := { entry with lastSeen := moment.now }
  match entry.unresolvedId with
  | none => { resolver with cache := resolver.cache.insert cgroupId seen }
  | some id =>
    if entry.retryAt ≤ moment.now then
      let attempts := entry.attempts + 1
      let retried := { seen with attempts, retryAt := moment.now + lookupBackoff attempts }
      { resolver with cache := resolver.cache.insert cgroupId retried }.requestLookup moment
        cgroupId id
    else { resolver with cache := resolver.cache.insert cgroupId seen }

/-- What is known of a container before its lookup. -/
def unresolved (moment : LookupMoment) (resolver : ContainerResolver) : ContainerContext where
  podName := none
  podNamespace := none
  containerId := (moment.cgroupInfo.bind CgroupInfo.containerIdShort).getD (str "unknown")
  containerName := none
  nodeName := resolver.nodeName
  serviceName := none
  workloadType := none

/-- The cache, without stale entries if it is too large. -/
def makeRoom (now : Nat) (resolver : ContainerResolver) : Dict UInt64 ContainerCacheEntry :=
  if maxCacheEntries < resolver.cache.size then
    resolver.cache.retain fun _ entry => isFresh now entry
  else resolver.cache

/-- The entry of a cgroup that is seen for the first time. -/
def firstEntry (moment : LookupMoment) (resolver : ContainerResolver) : ContainerCacheEntry where
  context := resolver.unresolved moment
  lastSeen := moment.now
  unresolvedId := moment.cgroupInfo.bind CgroupInfo.containerIdFull
  retryAt := moment.now + lookupBackoff 0
  attempts := 0

/-- The branch of `resolve` for a cgroup that is not cached. -/
def enter (moment : LookupMoment) (cgroupId : UInt64) (resolver : ContainerResolver) :
    ContainerResolver :=
  let entry := resolver.firstEntry moment
  let entered :=
    { resolver with cache := (resolver.makeRoom moment.now).insert cgroupId entry }
  match entry.unresolvedId with
  | none => entered
  | some id => entered.requestLookup moment cgroupId id

/-- The cached entry that answers for a cgroup. -/
def cached (now : Nat) (cgroupId : UInt64) (resolver : ContainerResolver) :
    Option ContainerCacheEntry :=
  (resolver.cache.get? cgroupId).filter (isFresh now)

def resolve (moment : LookupMoment) (cgroupId : UInt64) (resolver : ContainerResolver) :
    Option ContainerContext × ContainerResolver :=
  if cgroupId = 0 then (none, resolver)
  else
    match resolver.cached moment.now cgroupId with
    | some entry => (some entry.context, resolver.touch moment cgroupId entry)
    | none => (some (resolver.unresolved moment), resolver.enter moment cgroupId)

def updateFromCri (now : Nat) (cgroupId : UInt64) (metadata : ContainerMetadata)
    (resolver : ContainerResolver) : ContainerResolver :=
  let cache :=
    match resolver.cache.get? cgroupId with
    | none => resolver.cache
    | some entry =>
      resolver.cache.insert cgroupId
        { entry with
          context := { entry.context with
            podName := metadata.podName
            podNamespace := metadata.podNamespace
            containerName := metadata.containerName
            serviceName := metadata.serviceName
            workloadType := metadata.workloadType }
          lastSeen := now
          unresolvedId := none }
  { resolver with cache, pending := resolver.pending.filter (· ≠ cgroupId) }

def markLookupFailed (cgroupId : UInt64) (resolver : ContainerResolver) : ContainerResolver :=
  { resolver with pending := resolver.pending.filter (· ≠ cgroupId) }

/-! ## Namespaces -/

/-- The namespace that the resolver has for a cgroup at a time. -/
def namespaceOf (now : Nat) (cgroupId : UInt64) (resolver : ContainerResolver) : Option Str :=
  if cgroupId = 0 then none
  else (resolver.cached now cgroupId).bind fun entry => entry.context.podNamespace

variable (moment : LookupMoment) (cgroupId : UInt64) (resolver : ContainerResolver)

/-- An answer has the namespace that the resolver has for the cgroup. -/
theorem podNamespace_resolve :
    (resolver.resolve moment cgroupId).1.bind ContainerContext.podNamespace =
      resolver.namespaceOf moment.now cgroupId := by
  unfold resolve namespaceOf
  split
  · rfl
  · cases resolver.cached moment.now cgroupId <;> rfl

@[simp]
theorem cache_requestLookup (containerIdFull : Str) (resolver : ContainerResolver) :
    (resolver.requestLookup moment cgroupId containerIdFull).cache = resolver.cache := by
  unfold requestLookup
  split
  · rfl
  · dsimp only
    split <;> rfl

/-- The namespace in the cache for a cgroup, used lately or not. -/
def recorded (cgroupId : UInt64) (resolver : ContainerResolver) : Option Str :=
  (resolver.cache.get? cgroupId).bind fun entry => entry.context.podNamespace

theorem recorded_of_namespaceOf {now : Nat} {cgroupId : UInt64} {resolver : ContainerResolver}
    {ns : Str} (known : resolver.namespaceOf now cgroupId = some ns) :
    resolver.recorded cgroupId = some ns := by
  unfold namespaceOf cached at known
  split at known
  · exact absurd known (by simp)
  · obtain ⟨entry, found, named⟩ := Option.bind_eq_some_iff.mp known
    rw [recorded, (Option.filter_eq_some_iff.mp found).1]
    exact named

theorem recorded_touch {moment : LookupMoment} {cgroupId : UInt64} {entry : ContainerCacheEntry}
    {resolver : ContainerResolver} (found : resolver.cache.get? cgroupId = some entry)
    (other : UInt64) :
    (resolver.touch moment cgroupId entry).recorded other = resolver.recorded other := by
  have same (seen : ContainerCacheEntry) (kept : seen.context = entry.context) :
      ((resolver.cache.insert cgroupId seen).get? other).bind
        (fun entry => entry.context.podNamespace) = resolver.recorded other := by
    rw [Dict.get?_insert, recorded]
    split
    · rename_i own
      rw [own, found, Option.bind_some, Option.bind_some, kept]
    · rfl
  unfold touch recorded
  split
  · exact same _ rfl
  · split
    · rw [cache_requestLookup]
      exact same _ rfl
    · exact same _ rfl

theorem cache_enter :
    (resolver.enter moment cgroupId).cache =
      (resolver.makeRoom moment.now).insert cgroupId (resolver.firstEntry moment) := by
  unfold enter
  dsimp only
  split
  · rfl
  · exact cache_requestLookup _ _ _ _

theorem get?_makeRoom (now : Nat) (resolver : ContainerResolver) (cgroupId : UInt64) :
    (resolver.makeRoom now).get? cgroupId = none ∨
      (resolver.makeRoom now).get? cgroupId = resolver.cache.get? cgroupId := by
  unfold makeRoom
  split
  · exact Dict.get?_retain_cases _ _ _
  · exact .inr rfl

/-- A new entry has no namespace, and making room for it drops entries. -/
theorem recorded_enter (other : UInt64) :
    (resolver.enter moment cgroupId).recorded other = none ∨
      (resolver.enter moment cgroupId).recorded other = resolver.recorded other := by
  rw [recorded, cache_enter, Dict.get?_insert]
  split
  · exact .inl rfl
  · rcases resolver.get?_makeRoom moment.now other with gone | kept
    · rw [gone]
      exact .inl rfl
    · rw [kept]
      exact .inr rfl

/-- Resolving an event supplies no namespace. -/
theorem recorded_resolve (other : UInt64) :
    (resolver.resolve moment cgroupId).2.recorded other = none ∨
      (resolver.resolve moment cgroupId).2.recorded other = resolver.recorded other := by
  unfold resolve
  split
  · exact .inr rfl
  · cases found : resolver.cached moment.now cgroupId with
    | none => exact resolver.recorded_enter moment cgroupId other
    | some entry => exact .inr (recorded_touch (Option.filter_eq_some_iff.mp found).1 other)

/-- A completed lookup supplies the namespace of its own cgroup. -/
theorem recorded_updateFromCri (now : Nat) (cgroupId : UInt64) (metadata : ContainerMetadata)
    (resolver : ContainerResolver) (other : UInt64) :
    (resolver.updateFromCri now cgroupId metadata).recorded other = resolver.recorded other ∨
      (other = cgroupId ∧
        (resolver.updateFromCri now cgroupId metadata).recorded other = metadata.podNamespace) := by
  unfold updateFromCri recorded
  cases resolver.cache.get? cgroupId with
  | none => exact .inl rfl
  | some entry =>
    dsimp only
    rw [Dict.get?_insert]
    split
    · rename_i own
      exact .inr ⟨own, rfl⟩
    · exact .inl rfl

end ContainerResolver

end ApiSensor
