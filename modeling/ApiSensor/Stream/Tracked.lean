import ApiSensor.Identity
import ApiSensor.Stream.Parts

/-!
# Connections the state knows

A role, an upgrade and a birth time are recorded only for connections in `known_connections`.  This
holds in every state a run reaches, so that an eviction pass, which decides by that set, decides
about all of them.
-/

namespace ApiSensor

open Library Library.Prog

variable {P : Platform} {C : Config}

/-! ## Parts -/

variable {keep : ConnIdentity → Bool}

/-- An update is not seen in the part of other connections. -/
theorem Update.part_eq {call : Call} {st after : StreamState P} {table : Table}
    (update : Update call table st after) (key : keep call.key.identity = false)
    (stream : keep call.ev.identity = false) : after.part keep = st.part keep := by
  have dropped : keep call.streamKey.identity = false := stream
  have insertStream {ν : Type} (dict : Dict StreamKey ν) (value : ν) :
      ((dict.insert call.streamKey value).retain fun other _ => keep other.identity) =
        dict.retain fun other _ => keep other.identity :=
    Dict.retain_insert_of_false (fun other : StreamKey => keep other.identity) dropped dict value
  have eraseStream {ν : Type} (dict : Dict StreamKey ν) :
      ((dict.erase call.streamKey).retain fun other _ => keep other.identity) =
        dict.retain fun other _ => keep other.identity :=
    Dict.retain_erase_of_false (fun other : StreamKey => keep other.identity) dropped dict
  have insertKey {ν : Type} (dict : Dict ConnKey ν) (value : ν) :
      ((dict.insert call.key value).retain fun other _ => keep other.identity) =
        dict.retain fun other _ => keep other.identity :=
    Dict.retain_insert_of_false (fun other : ConnKey => keep other.identity) key dict value
  have eraseKey {ν : Type} (dict : Dict ConnKey ν) :
      ((dict.erase call.key).retain fun other _ => keep other.identity) =
        dict.retain fun other _ => keep other.identity :=
    Dict.retain_erase_of_false (fun other : ConnKey => keep other.identity) key dict
  cases update
  case gap =>
    simp only [StreamState.part, Finset.filter_insert, dropped, Bool.false_eq_true, if_false]
  case resume =>
    simp only [StreamState.part, StreamState.resume, Finset.filter_erase]
    rw [Finset.erase_eq_of_notMem]
    simp [dropped]
  case http3 | upgrade =>
    simp only [StreamState.part, Finset.filter_insert, key, Bool.false_eq_true, if_false]
  case early => simp only [StreamState.part, StreamState.keepEarly, insertKey]
  all_goals simp only [StreamState.part, insertStream, eraseStream, insertKey, eraseKey]

theorem Updates.part_eq {call : Call} {st after : StreamState P} {tables : List Table}
    (changes : Updates tables call st after) (key : keep call.key.identity = false)
    (stream : keep call.ev.identity = false) : after.part keep = st.part keep :=
  changes.invariant (fun state => state.part keep = st.part keep)
    (fun update before => (update.part_eq key stream).trans before) rfl

theorem StreamState.part_freezeRole {C : Config} {key : ConnKey} (other : keep key.identity = false)
    (ev : TlsEventHeader) (payload : Bytes) (st : StreamState P) :
    (st.freezeRole C key ev payload).part keep = st.part keep := by
  have insertKey := Dict.retain_insert_of_false (fun key : ConnKey => keep key.identity) other
    st.connRoles
  unfold freezeRole
  split
  · split
    · simp only [part, insertKey]
    · rfl
  · rfl

theorem StreamState.part_know {key : ConnKey} (other : keep key.identity = false)
    (st : StreamState P) :
    { st with knownConnections := insert key st.knownConnections }.part keep = st.part keep := by
  simp only [part, Finset.filter_insert, other, Bool.false_eq_true, if_false]

/-! ## Known connections -/

namespace StreamState

/-- What is recorded about connections belongs to known ones, except that a connection may be on its
way to being known. -/
structure Tracked (entering : Option ConnIdentity) (st : StreamState P) : Prop where
  roles : ∀ key, st.connRoles.contains key = true → key ∈ st.knownConnections
  upgraded : ∀ key ∈ st.wsConnections ∪ st.http3Connections, key ∈ st.knownConnections
  born : ∀ identity, st.connBornMs.contains identity = true → entering ≠ some identity →
    ∃ key ∈ st.knownConnections, key.identity = identity

/-- What an eviction pass finds active stays known, and only that. -/
theorem mem_knownConnections_evicted {st : StreamState P} {nowMs : Nat} {key : ConnKey} :
    key ∈ (st.evicted nowMs).knownConnections ↔
      key ∈ st.knownConnections ∧ st.Anchored nowMs key := by
  rw [← stillActive_iff_anchored]
  exact Finset.mem_filter

theorem connRoles_evicted (st : StreamState P) (nowMs : Nat) (key : ConnKey) :
    (st.evicted nowMs).connRoles.get? key =
      (st.connRoles.get? key).filter fun _ =>
        decide (key ∈ (st.evicted nowMs).knownConnections) :=
  Dict.get?_retain _ _ _

theorem contains_connBornMs_evicted {st : StreamState P} {nowMs : Nat} {identity : ConnIdentity} :
    (st.evicted nowMs).connBornMs.contains identity = true ↔
      st.connBornMs.contains identity = true ∧
        ∀ key ∈ st.knownConnections, key.identity = identity → st.Anchored nowMs key := by
  simp only [← stillActive_iff_anchored]
  have retained : (st.evicted nowMs).connBornMs.contains identity =
      (st.connBornMs.contains identity &&
        decide (∀ key ∈ st.knownConnections, key.identity = identity →
          (st.expire nowMs).trim.stillActive key = true)) :=
    Dict.contains_retain _ _ _
  rw [retained, Bool.and_eq_true, decide_eq_true_eq]

namespace Tracked

variable {entering : Option ConnIdentity} {st after : StreamState P}

theorem new : Tracked none (StreamState.new (P := P)) where
  roles key recorded := absurd recorded (by simp [StreamState.new, Dict.contains])
  upgraded key member := absurd member (by simp [StreamState.new])
  born identity recorded := absurd recorded (by simp [StreamState.new, Dict.contains])

theorem bear (tracked : Tracked none st) (env : Env) (ev : TlsEventHeader) :
    Tracked (some ev.identity) (st.bear env ev) := by
  unfold StreamState.bear
  split
  · exact ⟨tracked.roles, tracked.upgraded, fun identity recorded _ =>
      tracked.born identity recorded (by simp)⟩
  · refine ⟨tracked.roles, tracked.upgraded, fun identity recorded other => ?_⟩
    have distinct : identity ≠ ev.identity := fun same => other (by rw [same])
    rw [Dict.contains, Dict.get?_insert_of_ne _ distinct] at recorded
    exact tracked.born identity recorded (by simp)

theorem evicted (tracked : Tracked entering st) (nowMs : Nat) :
    Tracked entering (st.evicted nowMs) where
  roles key recorded := by
    by_contra unknown
    simp [Dict.contains, connRoles_evicted, unknown] at recorded
  upgraded key member := by
    rcases Finset.mem_union.mp member with upgraded | upgraded
    · exact (Finset.mem_filter.mp upgraded).2
    · exact (Finset.mem_filter.mp upgraded).2
  born identity recorded other := by
    obtain ⟨before, active⟩ := contains_connBornMs_evicted.mp recorded
    obtain ⟨key, known, same⟩ := tracked.born identity before other
    exact ⟨key, mem_knownConnections_evicted.mpr ⟨known, active key known same⟩, same⟩

theorem swept (tracked : Tracked entering st) (nowMs : Nat) :
    Tracked entering (st.swept nowMs) := by
  unfold StreamState.swept
  split
  · exact tracked
  · exact tracked.evicted nowMs

theorem know (key : ConnKey) (tracked : Tracked (some key.identity) st) :
    Tracked none { st with knownConnections := insert key st.knownConnections } where
  roles other recorded := Finset.mem_insert_of_mem (tracked.roles other recorded)
  upgraded other member := Finset.mem_insert_of_mem (tracked.upgraded other member)
  born identity recorded _ := by
    by_cases own : key.identity = identity
    · exact ⟨key, Finset.mem_insert_self _ _, own⟩
    · obtain ⟨other, known, same⟩ := tracked.born identity recorded (by simpa using own)
      exact ⟨other, Finset.mem_insert_of_mem known, same⟩

section

variable (tracked : Tracked none st)
include tracked

theorem admitted (env : Env) (ev : TlsEventHeader) :
    Tracked none (st.admitted env ev) :=
  ((tracked.bear env ev).swept env.now).know (st.connKey env ev)

theorem freezeRole {key : ConnKey} (known : key ∈ st.knownConnections) (ev : TlsEventHeader)
    (payload : Bytes) :
    Tracked none (st.freezeRole C key ev payload) := by
  unfold StreamState.freezeRole
  split
  · split
    · refine ⟨fun other recorded => ?_, tracked.upgraded, tracked.born⟩
      by_cases own : other = key
      · rw [own]
        exact known
      · rw [Dict.contains, Dict.get?_insert_of_ne _ own] at recorded
        exact tracked.roles other recorded
    · exact tracked
  · exact tracked

/-- Updates of a call record upgrades of its own connection only. -/
theorem updates {call : Call} {tables : List Table} (known : call.key ∈ st.knownConnections)
    (changes : Updates tables call st after) :
    Tracked none after := by
  have both : Tracked none after ∧ call.key ∈ after.knownConnections := by
    refine changes.invariant (fun state => Tracked none state ∧ call.key ∈ state.knownConnections)
      (fun update before => ?_) ⟨tracked, known⟩
    obtain ⟨before, known⟩ := before
    cases update with
    | http3 =>
      refine ⟨⟨before.roles, fun key member => ?_, before.born⟩, known⟩
      rw [Finset.union_insert] at member
      rcases Finset.mem_insert.mp member with rfl | member
      · exact known
      · exact before.upgraded key member
    | upgrade =>
      refine ⟨⟨before.roles, fun key member => ?_, before.born⟩, known⟩
      rw [Finset.insert_union] at member
      rcases Finset.mem_insert.mp member with rfl | member
      · exact known
      · exact before.upgraded key member
    | _ => exact ⟨⟨before.roles, before.upgraded, before.born⟩, known⟩
  exact both.1

theorem part (keep : ConnIdentity → Bool) :
    Tracked none (st.part keep) where
  roles key recorded := by
    have both : st.connRoles.contains key = true ∧ keep key.identity = true := by
      simpa [StreamState.part, Dict.contains_retain] using recorded
    exact Finset.mem_filter.mpr ⟨tracked.roles key both.1, both.2⟩
  upgraded key member := by
    have both : (key ∈ st.wsConnections ∪ st.http3Connections) ∧ keep key.identity = true := by
      simpa [StreamState.part, ← Finset.filter_union] using member
    exact Finset.mem_filter.mpr ⟨tracked.upgraded key both.1, both.2⟩
  born identity recorded other := by
    have both : st.connBornMs.contains identity = true ∧ keep identity = true := by
      simpa [StreamState.part, Dict.contains_retain] using recorded
    obtain ⟨key, known, same⟩ := tracked.born identity both.1 other
    exact ⟨key, Finset.mem_filter.mpr ⟨known, by rw [same]; exact both.2⟩, same⟩

theorem step {stage : Stage} (step : Step C st stage after) :
    Tracked none after := by
  cases step.stepped with
  | outside => exact tracked
  | event env ev payload _ _ receives =>
    obtain ⟨_, _, changes⟩ := updates_receive env ev payload (st.connKey env ev)
      (st.admitted env ev) _ _ receives
    have known : st.connKey env ev ∈ (st.admitted env ev).knownConnections :=
      Finset.mem_insert_self _ _
    refine updates ((tracked.admitted env ev).freezeRole known ev payload) ?_ changes
    obtain ⟨roles, frozen⟩ := freezeRole_eq (C := C) (st.connKey env ev) ev payload
      (st.admitted env ev)
    rw [frozen]
    exact known
  | sweep nowMs => exact tracked.swept nowMs
  | close closed =>
    rw [closed_eq_part]
    exact tracked.part _
  | drain => exact ⟨tracked.roles, tracked.upgraded, tracked.born⟩

end

/-- Every state a run reaches is tracked. -/
theorem run {trace : List (StreamState P × Stage)} (run : Run C StreamState.new trace st) :
    Tracked none st :=
  run.invariant (Tracked none) (fun _ _ _ _ step tracked => tracked.step step) Tracked.new

end Tracked

end StreamState

end ApiSensor
