import ApiSensor.Stream.Handle
import Mathlib.Data.List.TakeWhile

/-!
# Additive measures of pending requests

An additive measure assigns a weight to every request.  Taken with sizes it measures charged bytes,
taken with singletons it counts the requests themselves.  Operations that only give requests up
split the measure into what is taken and what is left.
-/

namespace ApiSensor

open Library

variable {P : Platform} {M : Type} [AddCommMonoid M] (weight : ParsedRequest → M)

/-- Total weight of a list of requests. -/
def weigh (reqs : List ParsedRequest) : M := (reqs.map weight).sum

@[simp]
theorem weigh_nil : weigh weight [] = 0 := rfl

@[simp]
theorem weigh_cons (req : ParsedRequest) (reqs : List ParsedRequest) :
    weigh weight (req :: reqs) = weight req + weigh weight reqs := List.sum_cons

@[simp]
theorem weigh_append (first second : List ParsedRequest) :
    weigh weight (first ++ second) = weigh weight first + weigh weight second := by
  simp [weigh]

theorem weigh_flatMap {α : Type} (reqs : α → List ParsedRequest) (items : List α) :
    weigh weight (items.flatMap reqs) = (items.map fun item => weigh weight (reqs item)).sum := by
  induction items with
  | nil => rfl
  | cons item items induction => simp [induction]

theorem requestBytes_eq_weigh (reqs : List ParsedRequest) :
    requestBytes P reqs = weigh (ParsedRequest.approxBytes P) reqs := rfl

/-! ## Containers -/

theorem PendingQueue.weigh_expireTake (queue : PendingQueue P) (nowMs ttlMs : Nat) :
    weigh weight (queue.expireTake nowMs ttlMs).1 +
      weigh weight (queue.expireTake nowMs ttlMs).2.items = weigh weight queue.items := by
  rw [← weigh_append]
  exact congrArg (weigh weight) List.takeWhile_append_dropWhile

/-- Nothing is left after `take_all`. -/
@[simp]
theorem PendingQueue.items_takeAll (queue : PendingQueue P) : queue.takeAll.1 = queue.items := by
  refine List.takeWhile_eq_self_iff.mpr fun req _ => ?_
  simp [ParsedRequest.expired]

namespace PendingStreams

/-- Total weight of the requests on all streams. -/
def weighAll (streams : PendingStreams P) : M := streams.map.total fun _ req => weight req

theorem weigh_expireTake (streams : PendingStreams P) (nowMs ttlMs : Nat) :
    weigh weight (expireTake streams nowMs ttlMs).1 +
      weighAll weight (expireTake streams nowMs ttlMs).2 = weighAll weight streams := by
  have sorted : weigh weight (expireTake streams nowMs ttlMs).1 =
      (streams.map.retain fun _ req => req.expired nowMs ttlMs).total fun _ req => weight req := by
    have perm := List.perm_insertionSort (fun first second => first.1 ≤ second.1)
      (streams.map.retain fun _ req => req.expired nowMs ttlMs).entries
    simp only [expireTake, weigh, List.map_map, Dict.total]
    exact (perm.map _).sum_eq
  rw [sorted]
  exact Dict.total_retain_add (fun _ req => weight req) (fun _ req => req.expired nowMs ttlMs)
    streams.map

theorem weighAll_takeAll (streams : PendingStreams P) :
    weighAll weight (takeAll streams).2 = 0 := by
  have none_left : (takeAll streams).2.map.entries = [] := by
    simp [takeAll, expireTake, Charged.retain, Dict.retain, ParsedRequest.expired]
  simp [weighAll, Dict.total, none_left]

theorem weigh_takeAll (streams : PendingStreams P) :
    weigh weight (takeAll streams).1 = weighAll weight streams := by
  have split := weigh_expireTake weight streams (2 ^ 64 - 1) 0
  have none_left := weighAll_takeAll weight streams
  rw [takeAll] at none_left
  rwa [none_left, add_zero] at split

end PendingStreams

namespace Http2Conn

/-- Both ways in which expiry takes requests off a connection are calls of `expire_take`. -/
theorem expireRequests_eq (conn : Http2Conn P) (nowMs : Nat) :
    ∃ now ttl, conn.expireRequests nowMs =
      PendingStreams.expireTake conn.pendingRequests now ttl := by
  unfold expireRequests
  split
  · exact ⟨_, _, rfl⟩
  · exact ⟨_, _, rfl⟩

theorem weigh_expireStale (conn : Http2Conn P) (nowMs : Nat) :
    weigh weight (conn.expireStale nowMs).taken +
      PendingStreams.weighAll weight (conn.expireStale nowMs).conn.pendingRequests =
        PendingStreams.weighAll weight conn.pendingRequests := by
  obtain ⟨now, ttl, same⟩ := conn.expireRequests_eq nowMs
  simp only [expireStale, same]
  exact PendingStreams.weigh_expireTake weight conn.pendingRequests now ttl

/-- An idle connection has no request left. -/
theorem weighAll_expireStale_idle (conn : Http2Conn P) {nowMs : Nat}
    (idle : StreamState.fresh nowMs conn.lastEventTs = false) :
    PendingStreams.weighAll weight (conn.expireStale nowMs).conn.pendingRequests = 0 := by
  simp only [expireStale, expireRequests, idle, Bool.false_eq_true, if_false]
  exact PendingStreams.weighAll_takeAll weight conn.pendingRequests

end Http2Conn

/-! ## The state -/

namespace StreamState

variable (st : StreamState P)

/-- Total weight of the HTTP/1 and HTTP/3 queues. -/
def weighQueues : M := st.pending.total fun _ queue => weigh weight queue.items

/-- Total weight of the requests on HTTP/2 connections. -/
def weighStreams : M :=
  st.http2State.total fun _ conn => PendingStreams.weighAll weight conn.pendingRequests

/-- Total weight of all pending requests. -/
def weighPending : M := st.weighQueues weight + st.weighStreams weight

theorem weigh_expiredQueued (nowMs : Nat) :
    weigh weight ((st.expiredQueued nowMs).map Prod.fst) =
      st.pending.total fun _ queue => weigh weight (queue.expireTake nowMs streamTtlMs).1 := by
  rw [expiredQueued, List.map_flatMap, weigh_flatMap]
  simp [Dict.total, Function.comp_def]

theorem weighQueues_expire (nowMs : Nat) :
    weigh weight ((st.expiredQueued nowMs).map Prod.fst) + (st.expire nowMs).weighQueues weight =
      st.weighQueues weight := by
  -- queues that become empty leave the map and weigh nothing
  have emptied := Dict.total_retain_of_eq_zero
    (fun _ queue => weigh weight (PendingQueue.items queue)) (fun _ queue => !queue.isEmpty)
    (st.pending.mapValues fun _ queue => (queue.expireTake nowMs streamTtlMs).2)
    (fun entry _ empty => by
      have none_left : entry.2.items = [] := by simpa [PendingQueue.isEmpty] using empty
      simp [none_left])
  rw [weigh_expiredQueued, weighQueues, expire, emptied, Dict.total_mapValues, ← Dict.total_add]
  simp only [PendingQueue.weigh_expireTake]
  rfl

theorem weigh_expiredStreams (nowMs : Nat) :
    weigh weight ((st.expiredStreams nowMs).map Prod.fst) =
      st.http2State.total fun _ conn => weigh weight (conn.expireStale nowMs).taken := by
  rw [expiredStreams, List.map_flatMap, weigh_flatMap]
  simp [Dict.total, Dict.values, Function.comp_def]

theorem weighStreams_expire (nowMs : Nat) :
    weigh weight ((st.expiredStreams nowMs).map Prod.fst) + (st.expire nowMs).weighStreams weight =
      st.weighStreams weight := by
  have idle := Dict.total_retain_of_eq_zero
    (fun _ conn => PendingStreams.weighAll weight (Http2Conn.pendingRequests conn))
    (fun _ conn => fresh nowMs conn.lastEventTs) (st.expiredHttp2 nowMs)
    (fun entry member stale => by
      obtain ⟨old, -, rfl⟩ := List.mem_map.mp member
      exact old.2.weighAll_expireStale_idle weight stale)
  rw [weigh_expiredStreams, weighStreams, expire, idle, expiredHttp2, Dict.total_mapValues,
    ← Dict.total_add]
  simp only [Http2Conn.weigh_expireStale]
  rfl

theorem weigh_waiting (selected : ConnKey → Bool) :
    weigh weight ((st.waiting selected).map Prod.fst) =
      (st.pending.retain fun key _ => selected key).total
          (fun _ queue => weigh weight queue.items) +
        (st.http2State.retain fun key _ => selected key).total
          fun _ conn => PendingStreams.weighAll weight conn.pendingRequests := by
  rw [waiting, List.map_append, weigh_append, List.map_flatMap, List.map_flatMap, weigh_flatMap,
    weigh_flatMap]
  simp [Dict.total, Dict.values, Function.comp_def, PendingStreams.weigh_takeAll]

end StreamState

end ApiSensor
