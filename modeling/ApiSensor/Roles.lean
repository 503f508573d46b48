import ApiSensor.Stream.Tracked

/-!
# The inferred role of a connection

With `TrafficRole::Auto` the direction that carries requests is inferred from the first chunk that
tells, and recorded in `conn_roles`.  The record is lost with an eviction pass that finds the
connection inactive, and is not made at all when the map is full.  Where neither happens, every
later chunk gets the recorded direction.
-/

namespace ApiSensor

open Library Library.Prog

variable {P : Platform} {C : Config}

namespace StreamState

/-- The direction that `request_direction` answers when an operation handles a chunk. -/
def roleOf (C : Config) (st : StreamState P) : Operation → Option UInt8
  | .event env ev payload =>
    if inScope C env then
      (st.admitted env ev).requestDirection C (st.connKey env ev) ev payload
    else none
  | _ => none

variable {dir : UInt8} {st : StreamState P} {key : ConnKey}

/-- An eviction pass that does not forget a connection leaves its role. -/
theorem role_swept {nowMs : Nat} (kept : ¬ st.PassForgets nowMs key.identity)
    (known : key ∈ st.knownConnections) (role : st.connRoles.get? key = some dir) :
    key ∈ (st.swept nowMs).knownConnections ∧ (st.swept nowMs).connRoles.get? key = some dir := by
  unfold StreamState.swept
  split
  · exact ⟨known, role⟩
  · rename_i due
    have anchored : st.Anchored nowMs key := by
      by_contra loose
      exact kept ⟨Nat.not_lt.mp due, key, known, rfl, loose⟩
    have stays := mem_knownConnections_evicted.mpr ⟨known, anchored⟩
    refine ⟨stays, ?_⟩
    rw [connRoles_evicted, role, Option.filter_some, if_pos (decide_eq_true stays)]

/-- The pass inside a call of `handle_event` is made after the birth time is recorded. -/
theorem role_admitted {env : Env} (kept : ¬ st.PassForgets env.now key.identity)
    (known : key ∈ st.knownConnections) (role : st.connRoles.get? key = some dir)
    (ev : TlsEventHeader) :
    key ∈ (st.admitted env ev).knownConnections ∧
      (st.admitted env ev).connRoles.get? key = some dir := by
  obtain ⟨born, same⟩ := bear_eq env ev st
  have swept : key ∈ ((st.bear env ev).swept env.now).knownConnections ∧
      ((st.bear env ev).swept env.now).connRoles.get? key = some dir := by
    apply role_swept
    · exact mt (passForgets_bear env ev st env.now key.identity).mp kept
    · rw [same]
      exact known
    · rw [same]
      exact role
  exact ⟨Finset.mem_insert_of_mem swept.1, swept.2⟩

/-- A role has been recorded for a connection that is known under its birth time. -/
structure Frozen (key : ConnKey) (dir : UInt8) (st : StreamState P) : Prop where
  born : st.connBornMs.get? key.identity = some key.bornMs
  known : key ∈ st.knownConnections
  role : st.connRoles.get? key = some dir

namespace Frozen

variable {key : ConnKey} {dir : UInt8} {st after : StreamState P}

section

variable (frozen : Frozen key dir st)
include frozen

theorem swept {nowMs : Nat} (kept : ¬ st.PassForgets nowMs key.identity) :
    Frozen key dir (st.swept nowMs) := by
  obtain ⟨known, role⟩ := role_swept kept frozen.known frozen.role
  exact ⟨born_swept kept frozen.born, known, role⟩

theorem admitted {env : Env} (ev : TlsEventHeader) (kept : ¬ st.PassForgets env.now key.identity) :
    Frozen key dir (st.admitted env ev) := by
  obtain ⟨known, role⟩ := role_admitted kept frozen.known frozen.role ev
  have pass := mt (passForgets_bear env ev st env.now key.identity).mp kept
  exact ⟨born_swept pass (born_bear_of_known frozen.born env ev), known, role⟩

/-- A recorded role is not replaced. -/
theorem freezeRole (other : ConnKey) (ev : TlsEventHeader) (payload : Bytes) :
    Frozen key dir (st.freezeRole C other ev payload) := by
  unfold StreamState.freezeRole
  split
  · rename_i unrecorded
    split
    · have distinct : key ≠ other := by
        rintro rfl
        simp [Dict.contains, frozen.role] at unrecorded
      refine ⟨frozen.born, frozen.known, ?_⟩
      rw [Dict.get?_insert_of_ne _ distinct, frozen.role]
    · exact frozen
  · exact frozen

/-- Updates of a call do not touch roles. -/
theorem updates {call : Call} {tables : List Table} (changes : Updates tables call st after) :
    Frozen key dir after := by
  refine changes.invariant (Frozen key dir) (fun update before => ?_) frozen
  cases update <;> exact ⟨before.born, before.known, before.role⟩

theorem step {stage : Stage} (step : Step C st stage after)
    (kept : ¬ Forgets C st key.identity stage.op) (unclosed : stage.op.closes key.identity = false)
    : Frozen key dir after := by
  cases step.stepped with
  | outside => exact frozen
  | event env ev payload inside _ receives =>
    have pass : ¬ st.PassForgets env.now key.identity := fun forgets => kept ⟨inside, forgets⟩
    obtain ⟨_, _, changes⟩ := updates_receive env ev payload (st.connKey env ev)
      (st.admitted env ev) _ _ receives
    exact ((frozen.admitted ev pass).freezeRole _ ev payload).updates changes
  | sweep => exact frozen.swept kept
  | close closed =>
    have missed : hit closed key.identity = false := unclosed
    refine ⟨?_, Finset.mem_filter.mpr ⟨frozen.known, by simp [missed]⟩, ?_⟩
    · exact (Dict.get?_retain_of_true _ _ (by simp [missed])).trans frozen.born
    · exact (Dict.get?_retain_of_true _ _ (by simp [missed])).trans frozen.role
  | drain => exact ⟨frozen.born, frozen.known, frozen.role⟩

end

end Frozen

/-- A step leaves the role of a connection: its eviction pass, if it makes one, does not forget the
connection, and a chunk of the connection finds its role recorded or room for it. -/
def KeepsRole (C : Config) (identity : ConnIdentity) (st : StreamState P) (op : Operation) : Prop :=
  ¬ Forgets C st identity op ∧
    match op with
    | .event env ev _ => ev.identity = identity →
        st.connRoles.contains (st.connKey env ev) = true ∨ st.connRoles.size < maxStreamEntries
    | _ => True

instance (identity : ConnIdentity) (st : StreamState P) :
    (op : Operation) → Decidable (KeepsRole C identity st op)
  | .event _ _ _ => inferInstanceAs (Decidable (¬ _ ∧ (_ → _)))
  | .sweep _ => inferInstanceAs (Decidable (¬ _ ∧ True))
  | .close _ => inferInstanceAs (Decidable (¬ _ ∧ True))
  | .drain _ => inferInstanceAs (Decidable (¬ _ ∧ True))

theorem requestDirection_of_role (auto : C.role = .auto) (role : st.connRoles.get? key = some dir)
    (ev : TlsEventHeader) (payload : Bytes) : st.requestDirection C key ev payload = some dir := by
  simp only [requestDirection, auto, role, Option.some_or]

/-- After the role is taken, the direction answered is the one recorded. -/
theorem role_freezeRole {ev : TlsEventHeader} {payload : Bytes} (auto : C.role = .auto)
    (room : st.connRoles.contains key = true ∨ st.connRoles.size < maxStreamEntries)
    (told : st.requestDirection C key ev payload = some dir) :
    (st.freezeRole C key ev payload).connRoles.get? key = some dir := by
  simp only [requestDirection, auto] at told
  cases recorded : st.connRoles.get? key with
  | some role =>
    have same : role = dir := by simpa [recorded] using told
    have contained : st.connRoles.contains key = true := by simp [Dict.contains, recorded]
    simp [freezeRole, contained, recorded, same]
  | none =>
    have missing : st.connRoles.contains key = false := by simp [Dict.contains, recorded]
    have small : st.connRoles.size < maxStreamEntries := by simpa [missing] using room
    have inferred : inferRequestDirection ev.direction ev.roleHint payload = some dir := by
      simpa [recorded] using told
    simp [freezeRole, auto, missing, small, inferred, Dict.get?_insert_self]

theorem size_connRoles_admitted_le (env : Env) (ev : TlsEventHeader) (st : StreamState P) :
    (st.admitted env ev).connRoles.size ≤ st.connRoles.size := by
  obtain ⟨born, same⟩ := bear_eq env ev st
  have roles : (st.admitted env ev).connRoles = ((st.bear env ev).swept env.now).connRoles := rfl
  rw [roles, same]
  unfold swept
  split
  · exact Nat.le_refl _
  · exact List.length_filter_le _ _

/-- The first chunk whose role is told leaves it recorded. -/
theorem frozen_of_told {after : StreamState P} {env : Env} {ev : TlsEventHeader} {payload : Bytes}
    {log : List Note} {events : List TrafficEvent} (auto : C.role = .auto)
    (tracked : Tracked none st) (step : Step C st ⟨.event env ev payload, log, events⟩ after)
    (keeps : KeepsRole C ev.identity st (.event env ev payload))
    (told : roleOf C st (.event env ev payload) = some dir) :
    Frozen (st.connKey env ev) dir after := by
  obtain ⟨inside, told⟩ : inScope C env = true ∧
      (st.admitted env ev).requestDirection C (st.connKey env ev) ev payload = some dir := by
    simpa [roleOf] using told
  obtain ⟨_, _, _, _, -, -, -, receives⟩ := received_of_inside inside step
  have pass : ¬ st.PassForgets env.now ev.identity := fun forgets => keeps.1 ⟨inside, forgets⟩
  have room : (st.admitted env ev).connRoles.contains (st.connKey env ev) = true ∨
      (st.admitted env ev).connRoles.size < maxStreamEntries := by
    rcases keeps.2 rfl with recorded | small
    · obtain ⟨role, found⟩ := Option.isSome_iff_exists.mp recorded
      obtain ⟨-, stays⟩ := role_admitted pass (tracked.roles _ recorded) found ev
      exact .inl (Option.isSome_of_eq_some stays)
    · exact .inr (Nat.lt_of_le_of_lt (size_connRoles_admitted_le env ev st) small)
  have born := born_swept (mt (passForgets_bear env ev st env.now ev.identity).mp pass)
    (born_bear env ev st)
  obtain ⟨_, _, changes⟩ := updates_receive env ev payload (st.connKey env ev)
    (st.admitted env ev) _ _ receives
  obtain ⟨roles, same⟩ := freezeRole_eq (C := C) (st.connKey env ev) ev payload
    (st.admitted env ev)
  refine Frozen.updates ⟨?_, ?_, role_freezeRole auto room told⟩ changes
  · rw [same]
    exact born
  · rw [same]
    exact Finset.mem_insert_self _ _

/-- Once `request_direction` has answered for a chunk of a connection, it gives the same answer for
every later chunk, as long as the connection is not closed and every step keeps its role. -/
theorem roleOf_stable {st last final : StreamState P} {env later : Env} {ev next : TlsEventHeader}
    {payload bytes : Bytes} {log lateLog : List Note} {events lateEvents : List TrafficEvent}
    {before between : List (StreamState P × Stage)} {dir : UInt8} (auto : C.role = .auto)
    (run : Run C new (before ++ (st, ⟨.event env ev payload, log, events⟩) ::
      (between ++ [(last, ⟨.event later next bytes, lateLog, lateEvents⟩)])) final)
    (told : roleOf C st (.event env ev payload) = some dir)
    (same : next.identity = ev.identity) (inside : inScope C later = true)
    (unclosed : ∀ entry ∈ between, entry.2.op.closes ev.identity = false)
    (keeps : ∀ entry ∈ (st, ⟨.event env ev payload, log, events⟩) ::
      (between ++ [(last, ⟨.event later next bytes, lateLog, lateEvents⟩)]),
      KeepsRole C ev.identity entry.1 entry.2.op) :
    roleOf C last (.event later next bytes) = some dir := by
  obtain ⟨start, reached, rest⟩ := run.of_append
  cases rest with
  | @cons _ told_in _ _ _ first rest =>
  obtain ⟨reached_last, middle, ending⟩ := rest.of_append
  cases ending with
  | cons second _ =>
  have frozen := frozen_of_told auto (Tracked.run reached) first (keeps _ List.mem_cons_self) told
  have held : Frozen (st.connKey env ev) dir last := by
    refine middle.invariant (Frozen (st.connKey env ev) dir)
      (fun state stage after member step before => ?_) frozen
    have spared := keeps _ (List.mem_cons_of_mem _ (List.mem_append_left _ member))
    exact before.step step spared.1 (unclosed _ member)
  have spared : ¬ Forgets C last ev.identity (.event later next bytes) :=
    (keeps (last, ⟨.event later next bytes, lateLog, lateEvents⟩)
      (List.mem_cons_of_mem _ (List.mem_append_right _ List.mem_cons_self))).1
  have own : next.identity = (st.connKey env ev).identity := same
  have key_eq := connKey_of_born own held.born later
  have admitted := held.admitted next fun forgets => spared ⟨inside, forgets⟩
  rw [roleOf, if_pos inside, key_eq]
  exact requestDirection_of_role auto admitted.role next bytes

/-- A sensor that infers roles. -/
def autoConfig : Config := { serverConfig 100000 with role := .auto }

/-- A chunk of a response that starts like a request, while a request waits. -/
def frozenOps : List Operation :=
  [chunk 20000 0 "POST /a HTTP/1.1\r\n\r\n", .sweep 31000, chunk 31001 1 "PUT /b HTTP/1.1\r\n"]

theorem roleOf_stable_waiting :
    let waiting := (exec autoConfig (frozenOps.take 2) (new (P := asciiPlatform)) 0).2.1
    roleOf autoConfig (new (P := asciiPlatform)) (chunk 20000 0 "POST /a HTTP/1.1\r\n\r\n") =
        some 0 ∧
      roleOf autoConfig waiting (chunk 31001 1 "PUT /b HTTP/1.1\r\n") = some 0 := by
  have told : roleOf autoConfig (new (P := asciiPlatform))
      (chunk 20000 0 "POST /a HTTP/1.1\r\n\r\n") = some 0 := by decide +kernel
  have run : Run autoConfig (new (P := asciiPlatform)) ([] ++ _ :: ([_] ++ [_])) _ :=
    run_exec autoConfig frozenOps new 0
  exact ⟨told, roleOf_stable rfl run told rfl rfl (by decide +kernel) (by decide +kernel)⟩

/-- A connection whose exchange is complete when an eviction pass is due. -/
def settledOps : List Operation :=
  [chunk 20000 0 "POST /a HTTP/1.1\r\n\r\n",
    chunk 20001 1 "HTTP/1.1 200 OK\r\nContent-Length: 0\r\n\r\n"]

/-- The pass ten seconds after the last one drops the role of a connection that waits for nothing,
and the next chunk is taken for a request whichever side sent it. -/
theorem roleOf_forgotten_when_settled :
    let settled := (exec autoConfig settledOps (new (P := asciiPlatform)) 0).2.1
    roleOf autoConfig (new (P := asciiPlatform)) (chunk 20000 0 "POST /a HTTP/1.1\r\n\r\n") =
        some 0 ∧
      roleOf autoConfig settled (chunk 30000 1 "PUT /b HTTP/1.1\r\n") = some 1 := by
  decide +kernel

end StreamState

end ApiSensor
