import ApiSensor.Container
import ApiSensor.Library.Run

/-!
# Bounds of the resolver caches

`DnsResolver` keeps the names of addresses and `ContainerResolver` what it knows of cgroups.  Both
drop stale entries when they are full and then insert unconditionally, so a cache stays within its
bound as long as a full cache has something stale to drop.
-/

namespace ApiSensor

open Library

/-- Dropping some entries and inserting one makes a dictionary no larger exactly if the key was
there or something was dropped. -/
theorem size_insert_retain_le_iff {κ ν : Type} [DecidableEq κ] {keep : κ → ν → Bool}
    {dict : Dict κ ν} {key : κ} {value : ν} :
    ((dict.retain keep).insert key value).size ≤ dict.size ↔ (dict.get? key).isSome ∨
      ∃ other entry, dict.get? other = some entry ∧ keep other entry = false := by
  rw [Dict.size_insert, ← Dict.size_retain_lt_iff]
  split_ifs with kept
  · obtain ⟨entry, found⟩ := Option.isSome_iff_exists.mp kept
    refine iff_of_true (List.length_filter_le _ _) (.inl ?_)
    rw [(Dict.get?_retain_eq_some.mp found).1]
    rfl
  · refine ⟨.inr, fun room => room.elim (fun there => ?_) id⟩
    -- the key is there, but its entry is dropped
    obtain ⟨entry, found⟩ := Option.isSome_iff_exists.mp there
    refine Dict.size_retain_lt_iff.mpr ⟨key, entry, found, Bool.eq_false_iff.mpr fun keeps => ?_⟩
    exact kept (by rw [Dict.get?_retain_eq_some.mpr ⟨found, keeps⟩]; rfl)

theorem size_insert_le {κ ν : Type} [DecidableEq κ] (dict : Dict κ ν) (key : κ) (value : ν) :
    (dict.insert key value).size ≤ dict.size + 1 := by
  rw [Dict.size_insert]
  split_ifs <;> omega

/-! ## The DNS cache -/

/-- `CacheEntry` of `dns.rs`, with times in milliseconds. -/
structure DnsEntry where
  hostname : Option Str
  resolvedAt : Nat
  ttl : Nat

structure DnsResolver where
  cache : Dict IpAddr DnsEntry
  pending : List IpAddr
  /-- What is in the channel for lookups. -/
  queue : List IpAddr

/-- `CACHE_TTL`. -/
def dnsCacheTtl : Nat := 300000

/-- `NEGATIVE_TTL`. -/
def dnsNegativeTtl : Nat := 60000

/-- `MAX_ENTRIES`. -/
def dnsMaxEntries : Nat := 10000

/-- The slots of the channel for lookups. -/
def dnsCapacity : Nat := 4096

/-- The octets of an address are in network order, as the kernel has left them in memory. -/
def IpAddr.isLoopback : IpAddr → Bool
  | .v4 bits => bits.toNat % 256 = 127
  | .v6 octets => octets = List.replicate 15 0 ++ [1]

def isLinkLocal : IpAddr → Bool
  | .v4 bits => bits.toNat % 256 = 169 && bits.toNat / 256 % 256 = 254
  | .v6 octets => fromBeBytes (octets.take 2) / 64 = 0xfe80 / 64

def DnsEntry.isFresh (now : Nat) (entry : DnsEntry) : Bool := now - entry.resolvedAt < entry.ttl

namespace DnsResolver

def new : DnsResolver := ⟨.empty, [], []⟩

/-- `lookup_and_queue`, for the address that was parsed. -/
def lookupAndQueue (now : Nat) (ip : Option IpAddr) (dns : DnsResolver) :
    Option Str × DnsResolver :=
  match ip.filter fun ip => !(ip.isLoopback || isLinkLocal ip) with
  | none => (none, dns)
  | some ip =>
    match (dns.cache.get? ip).filter (DnsEntry.isFresh now) with
    | some entry => (entry.hostname, dns)
    | none =>
      if ip ∉ dns.pending ∧ dns.queue.length < dnsCapacity then
        (none, { dns with pending := dns.pending ++ [ip], queue := dns.queue ++ [ip] })
      else (none, dns)

/-- The cache, without stale entries if it is full. -/
def makeRoom (now : Nat) (dns : DnsResolver) : Dict IpAddr DnsEntry :=
  if dnsMaxEntries ≤ dns.cache.size then dns.cache.retain fun _ entry => entry.isFresh now
  else dns.cache

/-- `insert`; the clock is read for the eviction and again for the entry. -/
def insert (now later : Nat) (ip : IpAddr) (hostname : Option Str) (dns : DnsResolver) :
    DnsResolver :=
  let ttl := if hostname.isSome then dnsCacheTtl else dnsNegativeTtl
  { dns with
    cache := (dns.makeRoom now).insert ip ⟨hostname, later, ttl⟩
    pending := dns.pending.filter (· ≠ ip) }

/-- An operation on the resolver, with what it takes from outside. -/
inductive Op where
  | lookup (now : Nat) (ip : Option IpAddr)
  | insert (now later : Nat) (ip : IpAddr) (hostname : Option Str)

def exec (dns : DnsResolver) : Op → DnsResolver
  | .lookup now ip => (dns.lookupAndQueue now ip).2
  | .insert now later ip hostname => dns.insert now later ip hostname

/-- An insert has room: the cache is not full, or has the address, or has something stale. -/
def HasRoom (dns : DnsResolver) : Op → Prop
  | .lookup _ _ => True
  | .insert now _ ip _ => dns.cache.size < dnsMaxEntries ∨ (dns.cache.get? ip).isSome ∨
      ∃ other entry, dns.cache.get? other = some entry ∧ entry.isFresh now = false

theorem cache_lookupAndQueue (now : Nat) (ip : Option IpAddr) (dns : DnsResolver) :
    (dns.lookupAndQueue now ip).2.cache = dns.cache := by
  unfold lookupAndQueue
  split
  · rfl
  · split
    · rfl
    · split <;> rfl

/-- An operation keeps the bound exactly if it has room. -/
theorem size_exec_iff (dns : DnsResolver) (op : Op) (bound : dns.cache.size ≤ dnsMaxEntries) :
    (dns.exec op).cache.size ≤ dnsMaxEntries ↔ dns.HasRoom op := by
  cases op with
  | lookup now ip =>
    rw [exec, cache_lookupAndQueue]
    exact iff_of_true bound trivial
  | insert now later ip hostname =>
    rw [exec, HasRoom, insert, makeRoom]
    by_cases full : dnsMaxEntries ≤ dns.cache.size
    · rw [if_pos full, or_iff_right (not_lt.mpr full), ← le_antisymm bound full]
      exact size_insert_retain_le_iff
    · rw [if_neg full]
      exact iff_of_true ((size_insert_le _ _ _).trans (not_le.mp full)) (.inl (not_le.mp full))

/-- Nothing is stale at the start of time. -/
def Young (dns : DnsResolver) : Prop :=
  ∀ ip entry, dns.cache.get? ip = some entry → entry.isFresh 0 = true

theorem Young.makeRoom {dns : DnsResolver} (young : dns.Young) :
    (dns.makeRoom 0).size = dns.cache.size ∧
      ∀ ip, (dns.makeRoom 0).get? ip = dns.cache.get? ip := by
  unfold DnsResolver.makeRoom
  split_ifs
  · constructor
    · refine le_antisymm (List.length_filter_le _ _) (not_lt.mp fun less => ?_)
      obtain ⟨ip, entry, found, stale⟩ := Dict.size_retain_lt_iff.mp less
      exact absurd (young ip entry found) (by simp [stale])
    · intro ip
      rw [Dict.get?_retain]
      cases found : dns.cache.get? ip with
      | none => rfl
      | some entry => rw [Option.filter_some, if_pos (young ip entry found)]
  · exact ⟨rfl, fun _ => rfl⟩

/-- Inserts of new addresses at one time fill the cache without end. -/
theorem size_inserts {dns : DnsResolver} (young : dns.Young) {ips : List IpAddr}
    (distinct : ips.Nodup) (absent : ∀ ip ∈ ips, dns.cache.get? ip = none) :
    ((ips.map fun ip => Op.insert 0 0 ip none).foldl exec dns).cache.size =
      dns.cache.size + ips.length := by
  induction ips generalizing dns with
  | nil => rfl
  | cons ip ips induction =>
    obtain ⟨size, entries⟩ := young.makeRoom
    obtain ⟨new, distinct⟩ := List.nodup_cons.mp distinct
    obtain ⟨first, later⟩ := List.forall_mem_cons.mp absent
    have after (other : IpAddr) : (dns.insert 0 0 ip none).cache.get? other =
        if other = ip then some ⟨none, 0, dnsNegativeTtl⟩ else dns.cache.get? other := by
      rw [← entries other]
      exact Dict.get?_insert _ _ _ _
    have grown : (dns.insert 0 0 ip none).cache.size = dns.cache.size + 1 := by
      rw [insert, Dict.size_insert, size, entries, first]
      rfl
    have young' : (dns.insert 0 0 ip none).Young := by
      intro other entry found
      rw [after] at found
      split_ifs at found
      · cases found
        decide
      · exact young other entry found
    have absent' : ∀ other ∈ ips, (dns.insert 0 0 ip none).cache.get? other = none := by
      intro other member
      have other_ : other ≠ ip := fun same => new (same ▸ member)
      rw [after, if_neg other_]
      exact later other member
    refine (induction young' distinct absent').trans ?_
    rw [grown, List.length_cons]
    omega

end DnsResolver

/-! ## The container cache -/

namespace ContainerResolver

/-- An operation on the resolver, with what it takes from outside. -/
inductive Op where
  | resolve (moment : LookupMoment) (cgroupId : UInt64)
  | update (now : Nat) (cgroupId : UInt64) (metadata : ContainerMetadata)
  | fail (cgroupId : UInt64)

def exec (resolver : ContainerResolver) : Op → ContainerResolver
  | .resolve moment cgroupId => (resolver.resolve moment cgroupId).2
  | .update now cgroupId metadata => resolver.updateFromCri now cgroupId metadata
  | .fail cgroupId => resolver.markLookupFailed cgroupId

/-- A call has room: the cache is not full, or answers the call, or has something stale. -/
def HasRoom (resolver : ContainerResolver) : Op → Prop
  | .resolve moment cgroupId => resolver.cache.size ≤ maxCacheEntries ∨ cgroupId = 0 ∨
      (resolver.cached moment.now cgroupId).isSome ∨
      ∃ other entry, resolver.cache.get? other = some entry ∧ isFresh moment.now entry = false
  | .update _ _ _ => True
  | .fail _ => True

theorem size_touch {moment : LookupMoment} {cgroupId : UInt64} {entry : ContainerCacheEntry}
    {resolver : ContainerResolver} (found : resolver.cache.get? cgroupId = some entry) :
    (resolver.touch moment cgroupId entry).cache.size = resolver.cache.size := by
  have same (seen : ContainerCacheEntry) :
      (resolver.cache.insert cgroupId seen).size = resolver.cache.size := by
    rw [Dict.size_insert, found]
    rfl
  unfold touch
  split
  · exact same _
  · split
    · rw [cache_requestLookup]
      exact same _
    · exact same _

theorem size_updateFromCri (now : Nat) (cgroupId : UInt64) (metadata : ContainerMetadata)
    (resolver : ContainerResolver) :
    (resolver.updateFromCri now cgroupId metadata).cache.size = resolver.cache.size := by
  unfold updateFromCri
  cases found : resolver.cache.get? cgroupId with
  | none => rfl
  | some entry =>
    dsimp only
    rw [Dict.size_insert, found]
    rfl

/-- An operation keeps the bound exactly if it has room. -/
theorem size_exec_iff (resolver : ContainerResolver) (op : Op)
    (bound : resolver.cache.size ≤ maxCacheEntries + 1) :
    (resolver.exec op).cache.size ≤ maxCacheEntries + 1 ↔ resolver.HasRoom op := by
  cases op with
  | update now cgroupId metadata =>
    rw [exec, size_updateFromCri]
    exact iff_of_true bound trivial
  | fail cgroupId => exact iff_of_true bound trivial
  | resolve moment cgroupId =>
    rw [exec, resolve, HasRoom]
    by_cases outside : cgroupId = 0
    · rw [if_pos outside]
      exact iff_of_true bound (.inr (.inl outside))
    rw [if_neg outside]
    cases cached : resolver.cached moment.now cgroupId with
    | some entry =>
      have found := (Option.filter_eq_some_iff.mp cached).1
      refine iff_of_true ?_ (.inr (.inr (.inl rfl)))
      exact (size_touch found).trans_le bound
    | none =>
      rw [cache_enter, makeRoom]
      split_ifs with full
      · rw [or_iff_right (not_le.mpr full), or_iff_right outside, ← le_antisymm bound full,
          size_insert_retain_le_iff]
        refine ⟨fun room => .inr (room.elim (fun there => ?_) id),
          fun room => .inr (room.resolve_left (by simp))⟩
        -- the entry is there, but it did not answer the call
        obtain ⟨entry, found⟩ := Option.isSome_iff_exists.mp there
        rw [ContainerResolver.cached, found, Option.filter_some] at cached
        exact ⟨cgroupId, entry, found, by simpa using cached⟩
      · refine iff_of_true ((size_insert_le _ _ _).trans ?_) (.inl (not_lt.mp full))
        exact Nat.succ_le_succ (not_lt.mp full)

end ContainerResolver

/-! ## Both caches -/

/-- In every sequence of operations each cache stays within its bound exactly if every operation on
it has room. -/
theorem caches_bounded_iff (dnsOps : List DnsResolver.Op) (nodeName : Str)
    (ops : List ContainerResolver.Op) :
    ((∀ early rest, dnsOps = early ++ rest →
          (early.foldl DnsResolver.exec .new).cache.size ≤ dnsMaxEntries) ↔
        ∀ early op rest, dnsOps = early ++ op :: rest →
          (early.foldl DnsResolver.exec .new).HasRoom op) ∧
      ((∀ early rest, ops = early ++ rest →
          (early.foldl ContainerResolver.exec (.new nodeName)).cache.size ≤ maxCacheEntries + 1) ↔
        ∀ early op rest, ops = early ++ op :: rest →
          (early.foldl ContainerResolver.exec (.new nodeName)).HasRoom op) := by
  constructor
  · exact @foldl_invariant_iff _ _ _ (fun dns : DnsResolver => dns.cache.size ≤ dnsMaxEntries) _
      DnsResolver.size_exec_iff _ (Nat.zero_le _) dnsOps
  · exact @foldl_invariant_iff _ _ _
      (fun resolver : ContainerResolver => resolver.cache.size ≤ maxCacheEntries + 1) _
      ContainerResolver.size_exec_iff _ (Nat.zero_le _) ops

/-- Addresses that are resolved at one time are all in the cache. -/
theorem dns_cache_unbounded {count : Nat} (few : count ≤ 2 ^ 32) :
    (((List.range count).map fun n => DnsResolver.Op.insert 0 0 (.v4 (UInt32.ofNat n)) none).foldl
      DnsResolver.exec .new).cache.size = count := by
  have distinct : ((List.range count).map fun n => IpAddr.v4 (UInt32.ofNat n)).Nodup := by
    refine List.nodup_range.map_on fun n small m small' same => ?_
    rw [List.mem_range] at small small'
    have equal := congrArg UInt32.toNat (IpAddr.v4.inj same)
    rw [UInt32.toNat_ofNat', UInt32.toNat_ofNat'] at equal
    omega
  have size := @DnsResolver.size_inserts .new (fun _ _ found => nomatch found) _ distinct
    fun _ _ => rfl
  rw [List.map_map, List.length_map, List.length_range] at size
  exact size.trans (Nat.zero_add count)

theorem dns_cache_exceeds_bound :
    (((List.range 10001).map fun n => DnsResolver.Op.insert 0 0 (.v4 (UInt32.ofNat n)) none).foldl
      DnsResolver.exec .new).cache.size = 10001 :=
  dns_cache_unbounded (by decide)

end ApiSensor
