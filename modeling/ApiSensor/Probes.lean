import ApiSensor.Kernel

/-!
# Probes on entry and return

The probe on the entry of a TLS function keeps the arguments of the call in a map; the probe on its
return takes them out and emits an event for what was read or written.  Threads and goroutines run
at the same time, and the maps may evict entries at any moment.
-/

namespace ApiSensor

open Library

/-- The functions that have a probe on entry and one on return. -/
inductive Probed where
  | sslWrite | sslRead | sslWriteEx | sslReadEx | gnutlsSend | gnutlsRecv | goTlsWrite | goTlsRead
  | quicStreamSend | quicStreamRecv | nssWrite | nssRead | ktlsSend | ktlsRecv
  deriving DecidableEq

/-- The maps that keep arguments from entry to return. -/
inductive ArgsMap where
  | sslWriteArgs | sslReadArgs | sslWriteExArgs | sslReadExArgs | gnutlsWriteArgs | gnutlsReadArgs
  | goTlsWriteArgs | goTlsReadArgs | quicSendArgs | quicRecvArgs | ktlsSendmsgArgs
  | ktlsRecvmsgArgs
  deriving DecidableEq

/-- What the probe on entry keeps of the arguments. -/
structure CallArgs where
  ptr : UInt64
  buf : UInt64
  /-- Where `SSL_read_ex` and `SSL_write_ex` store the number of bytes. -/
  bytesPtr : UInt64
  bufLen : UInt32
  deriving DecidableEq

/-- The key of a call: `pid_tgid`, or the process and the goroutine. -/
structure CallKey where
  owner : UInt64
  goroutine : UInt64
  deriving DecidableEq

/-- The register with the return value as an `int`. -/
def asInt (rc : UInt64) : Int := rc.toUInt32.toInt32.toInt

/-- The same register as a `long`. -/
def asLong (rc : UInt64) : Int := rc.toInt64.toInt

def goRetLen (n : Int) (bufLen : UInt32) : UInt32 :=
  if n ≤ 0 then 0 else if (bufLen.toNat : Int) < n then bufLen else .ofNat n.toNat

namespace Probed

/-- NSS uses the maps of OpenSSL. -/
def argsMap : Probed → ArgsMap
  | sslWrite | nssWrite => .sslWriteArgs
  | sslRead | nssRead => .sslReadArgs
  | sslWriteEx => .sslWriteExArgs
  | sslReadEx => .sslReadExArgs
  | gnutlsSend => .gnutlsWriteArgs
  | gnutlsRecv => .gnutlsReadArgs
  | goTlsWrite => .goTlsWriteArgs
  | goTlsRead => .goTlsReadArgs
  | quicStreamSend => .quicSendArgs
  | quicStreamRecv => .quicRecvArgs
  | ktlsSend => .ktlsSendmsgArgs
  | ktlsRecv => .ktlsRecvmsgArgs

def direction : Probed → UInt8
  | sslWrite | sslWriteEx | gnutlsSend | goTlsWrite | quicStreamSend | nssWrite | ktlsSend => 1
  | _ => 0

def provider : Probed → UInt8
  | sslWrite | sslRead | sslWriteEx | sslReadEx => 1
  | gnutlsSend | gnutlsRecv => 2
  | goTlsWrite | goTlsRead => 3
  | quicStreamSend | quicStreamRecv => providerQuic
  | ktlsSend | ktlsRecv => 5
  | nssWrite | nssRead => 6

/-- The key under which the arguments are kept.  A Go call without a goroutine is skipped. -/
def callKey (task : Task) (g : UInt64) : Probed → Option CallKey
  | goTlsWrite | goTlsRead => if g = 0 then none else some ⟨task.pidTgid >>> 32, g⟩
  | _ => some ⟨task.pidTgid, 0⟩

/-- Only the entries of OpenSSL call `remember_ssl_owner`. -/
def remembers : Probed → Bool
  | sslWrite | sslRead | sslWriteEx | sslReadEx => true
  | _ => false

/-- The length handed to `emit_event`, if it is called.  `bytes` is what the extended functions
have stored, if it can be read. -/
def emittedLen (args : CallArgs) (rc : UInt64) (bytes : Option UInt64) : Probed → Option UInt32
  | sslWriteEx | sslReadEx =>
    if 0 < asInt rc ∧ args.bytesPtr ≠ 0 then (bytes.filter (0 < ·)).map UInt64.toUInt32 else none
  | goTlsWrite | goTlsRead =>
    let n := goRetLen (asLong rc) args.bufLen
    if 0 < n then some n else none
  | quicStreamSend | quicStreamRecv =>
    if 0 < asLong rc then some (if 0xffffffff < asLong rc then 0xffffffff else rc.toUInt32)
    else none
  | ktlsSend | ktlsRecv => if 0 < asInt rc ∧ args.buf ≠ 0 then some rc.toUInt32 else none
  | _ => if 0 < asInt rc then some rc.toUInt32 else none

end Probed

/-- A call of `emit_event` with the numbers that `next_seq` gives it. -/
structure Emission where
  key : SslKey
  buf : UInt64
  len : UInt32
  direction : UInt8
  provider : UInt8
  generation : UInt32
  seq : UInt32
  deriving DecidableEq

/-- What happens in the kernel. -/
inductive Firing where
  | entry (fn : Probed) (task : Task) (g : UInt64) (args : CallArgs)
  | exit (fn : Probed) (task : Task) (g : UInt64) (rc : UInt64) (bytes : Option UInt64)
  | sslFree (task : Task) (sslPtr : UInt64)
  /-- A full map of arguments makes room. -/
  | evict (map : ArgsMap) (key : CallKey)
  /-- So does `ssl_state_map`. -/
  | evictState (key : SslKey)

/-- The maps of the probes. -/
structure Probes where
  args : ArgsMap → Dict CallKey CallArgs
  kernel : Kernel

namespace Probes

def new : Probes := ⟨fun _ => .empty, .empty⟩

def setArgs (map : ArgsMap) (dict : Dict CallKey CallArgs) (probes : Probes) : Probes :=
  { probes with args := Function.update probes.args map dict }

def entry (fn : Probed) (task : Task) (g : UInt64) (args : CallArgs) (probes : Probes) : Probes :=
  match fn.callKey task g with
  | none => probes
  | some key =>
    let kept := probes.setArgs fn.argsMap ((probes.args fn.argsMap).insert key args)
    if fn.remembers then { kept with kernel := kept.kernel.rememberSslOwner task args.ptr }
    else kept

def exit (fn : Probed) (task : Task) (g rc : UInt64) (bytes : Option UInt64) (probes : Probes) :
    Option Emission × Probes :=
  match fn.callKey task g with
  | none => (none, probes)
  | some key =>
    match (probes.args fn.argsMap).get? key with
    | none => (none, probes)
    | some args =>
      let taken := probes.setArgs fn.argsMap ((probes.args fn.argsMap).erase key)
      match fn.emittedLen args rc bytes with
      | none => (none, taken)
      | some len =>
        let (generation, seq, kernel) := probes.kernel.nextSeq task args.ptr fn.direction
        (some ⟨sslKeyFor task args.ptr, args.buf, len, fn.direction, fn.provider, generation, seq⟩,
          { taken with kernel })

/-- One firing, and the call of `emit_event` it makes. -/
def fire (probes : Probes) : Firing → Option Emission × Probes
  | .entry fn task g args => (none, probes.entry fn task g args)
  | .exit fn task g rc bytes => probes.exit fn task g rc bytes
  | .sslFree task sslPtr =>
    (none, { probes with kernel := (probes.kernel.sslFreeEntry task sslPtr).2 })
  | .evict map key => (none, probes.setArgs map ((probes.args map).erase key))
  | .evictState key =>
    (none, { probes with kernel.sslStateMap := probes.kernel.sslStateMap.erase key })

/-- A history of firings: the maps afterwards, and all calls of `emit_event` in order. -/
def run (history : List Firing) : Probes × List Emission :=
  history.foldl (fun st firing =>
    ((st.1.fire firing).2, st.2 ++ (st.1.fire firing).1.toList)) (new, [])

end Probes

/-! ## Which call is reported -/

/-- The firing is the entry or the return of a call with a given key. -/
def Firing.Of (map : ArgsMap) (key : CallKey) : Firing → Prop
  | .entry fn task g _ | .exit fn task g _ _ => fn.argsMap = map ∧ fn.callKey task g = some key
  | .sslFree _ _ | .evict _ _ | .evictState _ => False

def Firing.frees : Firing → Bool
  | .sslFree _ _ => true
  | _ => false

namespace Probes

variable {probes : Probes} {map : ArgsMap} {key caller : CallKey} {args : CallArgs} {fn : Probed}
  {task : Task} {g rc : UInt64} {bytes : Option UInt64}

theorem get?_erase_setArgs (other : ArgsMap) (caller : CallKey) :
    ((probes.setArgs other ((probes.args other).erase caller)).args map).get? key =
      if map = other ∧ key = caller then none else (probes.args map).get? key := by
  by_cases same : map = other
  · subst same
    simp [setArgs, Dict.get?_erase]
  · simp [setArgs, same]

theorem get?_entry (own : fn.callKey task g = some caller) :
    ((probes.entry fn task g args).args map).get? key =
      if map = fn.argsMap ∧ key = caller then some args else (probes.args map).get? key := by
  have kept : (probes.entry fn task g args).args =
      (probes.setArgs fn.argsMap ((probes.args fn.argsMap).insert caller args)).args := by
    simp only [entry, own]
    split <;> rfl
  rw [kept]
  by_cases same : map = fn.argsMap
  · subst same
    simp [setArgs, Dict.get?_insert]
  · simp [setArgs, same]

theorem get?_exit (own : fn.callKey task g = some caller) :
    ((probes.exit fn task g rc bytes).2.args map).get? key =
      if map = fn.argsMap ∧ key = caller then none else (probes.args map).get? key := by
  simp only [exit, own]
  cases found : (probes.args fn.argsMap).get? caller with
  | none =>
    split_ifs with same
    · rw [same.1, same.2, found]
    · rfl
  | some kept =>
    rw [← get?_erase_setArgs]
    dsimp only
    cases fn.emittedLen kept rc bytes <;> rfl

/-- What is found after a firing was put there by it, or was there before, and then the firing
neither begins nor ends a call with that key. -/
theorem get?_fire {firing : Firing}
    (found : ((probes.fire firing).2.args map).get? key = some args) :
    (∃ fn task g, firing = .entry fn task g args ∧ firing.Of map key) ∨
      (¬ firing.Of map key ∧ (probes.args map).get? key = some args) := by
  cases firing with
  | entry fn task g given =>
    cases own : fn.callKey task g with
    | none =>
      simp only [fire, entry, own] at found
      exact .inr ⟨by simp [Firing.Of, own], found⟩
    | some caller =>
      rw [fire, get?_entry own] at found
      split_ifs at found with same
      · cases found
        exact .inl ⟨fn, task, g, rfl, same.1.symm, by rw [own, same.2]⟩
      · refine .inr ⟨fun of => same ⟨of.1.symm, ?_⟩, found⟩
        exact (Option.some.inj (own.symm.trans of.2)).symm
  | exit fn task g rc bytes =>
    cases own : fn.callKey task g with
    | none =>
      simp only [fire, exit, own] at found
      exact .inr ⟨by simp [Firing.Of, own], found⟩
    | some caller =>
      rw [fire, get?_exit own] at found
      split_ifs at found with same
      refine .inr ⟨fun of => same ⟨of.1.symm, ?_⟩, found⟩
      exact (Option.some.inj (own.symm.trans of.2)).symm
  | sslFree | evictState => exact .inr ⟨id, found⟩
  | evict other caller =>
    rw [fire, get?_erase_setArgs] at found
    split_ifs at found
    exact .inr ⟨id, found⟩

theorem run_concat (history : List Firing) (firing : Firing) :
    run (history ++ [firing]) = (((run history).1.fire firing).2,
      (run history).2 ++ ((run history).1.fire firing).1.toList) := by
  simp [run]

/-- Arguments that are kept come from the latest entry with that key. -/
theorem entry_of_get? (history : List Firing)
    (found : ((run history).1.args map).get? key = some args) :
    ∃ before fn task g between, history = before ++ .entry fn task g args :: between ∧
      (Firing.entry fn task g args).Of map key ∧ ∀ firing ∈ between, ¬ firing.Of map key := by
  induction history using List.reverseRecOn with
  | nil => simp [run, new] at found
  | append_singleton history last induction =>
    rw [run_concat] at found
    rcases get?_fire found with ⟨fn, task, g, rfl, of⟩ | ⟨other, earlier⟩
    · exact ⟨history, fn, task, g, [], rfl, of, by simp⟩
    · obtain ⟨before, fn, task, g, between, rfl, of, none_⟩ := induction earlier
      refine ⟨before, fn, task, g, between ++ [last], by simp, of, ?_⟩
      exact List.forall_mem_append.mpr ⟨none_, List.forall_mem_singleton.mpr other⟩

/-- In every interleaving of threads and goroutines, with entries evicted at any moment, a return
that emits an event reports the object and the buffer of the latest entry made under its own key,
and no other call with that key has begun or returned in between.  The key names the map and the
thread, or the goroutine of a Go call. -/
theorem exit_reports_own_entry (history : List Firing) {emission : Emission}
    (emits : ((run history).1.exit fn task g rc bytes).1 = some emission) :
    ∃ key before fn' task' g' args between, fn.callKey task g = some key ∧
      history = before ++ .entry fn' task' g' args :: between ∧
      (Firing.entry fn' task' g' args).Of fn.argsMap key ∧
      (∀ firing ∈ between, ¬ firing.Of fn.argsMap key) ∧
      emission.key = sslKeyFor task args.ptr ∧ emission.buf = args.buf ∧
      fn.emittedLen args rc bytes = some emission.len ∧
      emission.direction = fn.direction ∧ emission.provider = fn.provider := by
  unfold exit at emits
  split at emits
  · cases emits
  · next key own =>
    split at emits
    · cases emits
    · next args found =>
      split at emits
      · cases emits
      · next len reported =>
        obtain ⟨before, fn', task', g', between, split_, of, none_⟩ := entry_of_get? history found
        cases emits
        exact ⟨key, before, fn', task', g', args, between, own, split_, of, none_, rfl, rfl,
          reported, rfl, rfl⟩

/-- A goroutine that begins to write on one thread and returns on another, on which another one has
begun to write. -/
def movedGoroutine : List Firing :=
  [.entry .goTlsWrite ⟨0x700000001, 9⟩ 5 ⟨16, 32, 0, 100⟩,
    .entry .goTlsWrite ⟨0x700000002, 9⟩ 6 ⟨17, 33, 0, 100⟩]

theorem exit_reports_own_entry_moved : ∃ emission fn task g args, emission.buf = 32 ∧
    ((run movedGoroutine).1.exit .goTlsWrite ⟨0x700000002, 9⟩ 5 40 none).1 = some emission ∧
      .entry fn task g args ∈ movedGoroutine ∧ emission.buf = args.buf := by
  obtain ⟨emission, emits, buf⟩ : ∃ emission : Emission, ((run movedGoroutine).1.exit .goTlsWrite
    ⟨0x700000002, 9⟩ 5 40 none).1 = some emission ∧ emission.buf = 32 := ⟨_, rfl, rfl⟩
  obtain ⟨_, before, fn, task, g, args, between, -, split_, -, -, -, same, -⟩ :=
    exit_reports_own_entry movedGoroutine emits
  exact ⟨emission, fn, task, g, args, buf, emits, by simp [split_], same⟩

/-! ## Numbers of events -/

/-- The events of one incarnation of an object in one direction. -/
def ofIncarnation (key : SslKey) (generation : UInt32) (direction : UInt8)
    (emitted : List Emission) : List Emission :=
  emitted.filter fun e => e.key = key ∧ e.generation = generation ∧ e.direction = direction

/-- Numbered from zero, without holes. -/
def Numbered (emitted : List Emission) : Prop :=
  emitted.map Emission.seq = (List.range emitted.length).map UInt32.ofNat

/-- The number that the next event of a direction gets. -/
def seqOf (direction : UInt8) (st : SslState) : UInt32 :=
  if direction &&& 1 = 0 then st.seq0 else st.seq1

/-- How the state of an object goes with the events emitted for it. -/
structure Counts (freed : Nat) (emitted : List Emission) (key : SslKey) (st : SslState) : Prop where
  generation : st.generation.toNat ≤ freed
  latest : ∀ e ∈ emitted, e.key = key → e.generation.toNat ≤ st.generation.toNat
  seq : ∀ direction ∈ [(0 : UInt8), 1],
    seqOf direction st = .ofNat (ofIncarnation key st.generation direction emitted).length

/-- The state of an object as `next_seq` finds it. -/
def stateOf (kernel : Kernel) (key : SslKey) : SslState :=
  (kernel.sslStateMap.get? key).getD ⟨0, 0, 0⟩

/-- How the maps go with all events, when objects were freed so many times. -/
structure Consistent (freed : Nat) (kernel : Kernel) (emitted : List Emission) : Prop where
  numbered : ∀ key generation direction, Numbered (ofIncarnation key generation direction emitted)
  counts : ∀ key, Counts freed emitted key (stateOf kernel key)

variable {freed : Nat} {kernel : Kernel} {emitted : List Emission}

theorem stateOf_insert (owners : Dict SslKey UInt64) (own : SslKey) (st : SslState) (key : SslKey) :
    stateOf ⟨kernel.sslStateMap.insert own st, owners⟩ key =
      if key = own then st else stateOf kernel key := by
  simp only [stateOf, Dict.get?_insert]
  split_ifs <;> rfl

theorem nextSeq_spec (kernel : Kernel) (task : Task) (ptr : UInt64) (fn : Probed) :
    let st := stateOf kernel (sslKeyFor task ptr)
    let next := kernel.nextSeq task ptr fn.direction
    next.1 = st.generation ∧ next.2.1 = seqOf fn.direction st ∧ ∃ st',
      (∀ key, stateOf next.2.2 key = if key = sslKeyFor task ptr then st' else stateOf kernel key) ∧
      st'.generation = st.generation ∧ ∀ direction ∈ [(0 : UInt8), 1], seqOf direction st' =
        seqOf direction st + .ofNat (if fn.direction = direction then 1 else 0) := by
  have either : fn.direction = 0 ∨ fn.direction = 1 := by cases fn <;> decide
  rcases either with same | same <;> rw [same]
  all_goals exact ⟨rfl, rfl, _, stateOf_insert _ _ _, rfl, by simp [seqOf, stateOf]⟩

theorem ofIncarnation_concat (key : SslKey) (generation : UInt32) (direction : UInt8)
    (e : Emission) : ofIncarnation key generation direction (emitted ++ [e]) =
      ofIncarnation key generation direction emitted ++
        if e.key = key ∧ e.generation = generation ∧ e.direction = direction then [e] else [] := by
  simp [ofIncarnation, List.filter_cons]

/-- One more event, of this object or of another one. -/
theorem Counts.concat {key : SslKey} {st st' : SslState} {e : Emission}
    (counts : Counts freed emitted key st) (same : st'.generation = st.generation)
    (current : e.key = key → e.generation = st.generation)
    (seq : ∀ direction ∈ [(0 : UInt8), 1], seqOf direction st' = seqOf direction st +
      .ofNat (if e.key = key ∧ e.direction = direction then 1 else 0)) :
    Counts freed (emitted ++ [e]) key st' := by
  refine ⟨same ▸ counts.generation, fun e' member named => ?_, fun direction member => ?_⟩
  · rw [same]
    rcases List.mem_append.mp member with old | new
    · exact counts.latest e' old named
    · obtain rfl := List.mem_singleton.mp new
      rw [current named]
  · rw [seq direction member, counts.seq direction member, same, ofIncarnation_concat,
      List.length_append, UInt32.ofNat_add]
    by_cases own : e.key = key
    · simp only [own, current own, true_and]
      split_ifs <;> rfl
    · simp [own]

theorem Consistent.emit (consistent : Consistent freed kernel emitted) (fn : Probed) (task : Task)
    (ptr : UInt64) {e : Emission} (key : e.key = sslKeyFor task ptr)
    (direction : e.direction = fn.direction)
    (generation : e.generation = (kernel.nextSeq task ptr fn.direction).1)
    (seq : e.seq = (kernel.nextSeq task ptr fn.direction).2.1) :
    Consistent freed (kernel.nextSeq task ptr fn.direction).2.2 (emitted ++ [e]) := by
  have counts := consistent.counts (sslKeyFor task ptr)
  obtain ⟨same, number, st', inserted, kept, bumped⟩ := nextSeq_spec kernel task ptr fn
  rw [same] at generation
  rw [number, counts.seq _ (by cases fn <;> decide)] at seq
  refine ⟨fun key' generation' direction' => ?_, fun key' => ?_⟩
  · rw [ofIncarnation_concat]
    split_ifs with own
    · obtain ⟨rfl, rfl, rfl⟩ := own
      have before := consistent.numbered e.key e.generation e.direction
      rw [← generation, ← direction, ← key] at seq
      simpa [Numbered, List.range_succ, seq] using before
    · simpa using consistent.numbered key' generation' direction'
  · rw [inserted]
    split_ifs with own
    · subst own
      exact counts.concat kept (fun _ => generation) (by simpa [key, direction] using bumped)
    · have apart : e.key ≠ key' := fun named => own (named.symm.trans key)
      exact (consistent.counts key').concat rfl (fun named => absurd named apart) (by simp [apart])

theorem Consistent.sslFree (consistent : Consistent freed kernel emitted) (task : Task)
    (sslPtr : UInt64) (few : freed + 1 < 2 ^ 32) :
    Consistent (freed + 1) (kernel.sslFreeEntry task sslPtr).2 emitted := by
  have later (key : SslKey) : Counts (freed + 1) emitted key (stateOf kernel key) :=
    { consistent.counts key with
      generation := (consistent.counts key).generation.trans (Nat.le_succ _) }
  refine ⟨consistent.numbered, fun key => ?_⟩
  unfold Kernel.sslFreeEntry
  dsimp only
  split
  · next st found =>
    rw [stateOf_insert]
    split_ifs with own
    · subst own
      have counts := consistent.counts (sslKeyFor task sslPtr)
      rw [stateOf, found, Option.getD_some] at counts
      have raised : (st.generation + 1).toNat = st.generation.toNat + 1 := by
        have bound := counts.generation
        rw [UInt32.toNat_add]
        exact Nat.mod_eq_of_lt (by simp; omega)
      have unused (direction : UInt8) :
          ofIncarnation (sslKeyFor task sslPtr) (st.generation + 1) direction emitted = [] := by
        refine List.filter_eq_nil_iff.mpr fun e member => ?_
        simp only [decide_eq_true_eq]
        rintro ⟨named, same, -⟩
        have bound := counts.latest e member named
        rw [same, raised] at bound
        omega
      refine ⟨?_, fun e member named => ?_, fun direction _ => by simp [unused, seqOf]⟩
      · exact raised ▸ Nat.succ_le_succ counts.generation
      · exact raised ▸ (counts.latest e member named).trans (Nat.le_succ _)
    · exact later key
  · exact later key

theorem stateOf_entry : stateOf (probes.entry fn task g args).kernel = stateOf probes.kernel := by
  unfold entry
  split
  · rfl
  · dsimp only
    split <;> rfl

theorem Consistent.exit (consistent : Consistent freed probes.kernel emitted) :
    Consistent freed (probes.exit fn task g rc bytes).2.kernel
      (emitted ++ (probes.exit fn task g rc bytes).1.toList) := by
  have quiet : Consistent freed probes.kernel (emitted ++ (none : Option Emission).toList) := by
    simpa using consistent
  unfold Probes.exit
  split
  · exact quiet
  · split
    · exact quiet
    · next kept _ =>
      dsimp only
      split
      · exact quiet
      · exact consistent.emit fn task kept.ptr rfl rfl rfl rfl

theorem consistent_run (history : List Firing) (few : history.countP Firing.frees < 2 ^ 32)
    (kept : ∀ key, .evictState key ∉ history) :
    Consistent (history.countP Firing.frees) (run history).1.kernel (run history).2 := by
  induction history using List.reverseRecOn with
  | nil =>
    refine ⟨fun _ _ _ => rfl, fun key => ?_⟩
    have fresh : stateOf (run []).1.kernel key = ⟨0, 0, 0⟩ := rfl
    exact fresh ▸ ⟨le_rfl, by simp [run], by simp [seqOf, run, ofIncarnation]⟩
  | append_singleton history last induction =>
    rw [List.countP_append, List.countP_singleton] at few ⊢
    have earlier := induction (by omega) fun key member => kept key (by simp [member])
    rw [run_concat]
    cases last with
    | entry fn task g args =>
      refine ⟨by simpa [fire] using earlier.numbered, ?_⟩
      simpa [fire, Firing.frees, stateOf_entry] using earlier.counts
    | exit fn task g rc bytes => exact earlier.exit
    | sslFree task sslPtr => simpa [fire, Firing.frees] using earlier.sslFree task sslPtr few
    | evict map key => simpa [fire, Firing.frees, setArgs] using earlier
    | evictState key => exact absurd (by simp) (kept key)

/-- However calls of all functions interleave, the events of one incarnation of an object in one
direction are numbered from zero without holes, as long as `ssl_state_map` evicts no entry and fewer
than `2 ^ 32` objects are freed. -/
theorem incarnation_numbered (history : List Firing) (few : history.countP Firing.frees < 2 ^ 32)
    (kept : ∀ key, .evictState key ∉ history) (key : SslKey) (generation : UInt32)
    (direction : UInt8) : Numbered (ofIncarnation key generation direction (run history).2) :=
  (consistent_run history few kept).numbered key generation direction

/-- Two writes, and one more when the object has been freed. -/
def reusedObject : List Firing :=
  let write : List Firing := [.entry .sslWrite ⟨0x700000001, 9⟩ 0 ⟨16, 32, 0, 100⟩,
    .exit .sslWrite ⟨0x700000001, 9⟩ 0 40 none]
  write ++ write ++ .sslFree ⟨0x700000001, 9⟩ 16 :: write

theorem incarnation_numbered_reused :
    (run reusedObject).2.map (fun e => (e.generation, e.seq)) = [(0, 0), (0, 1), (1, 0)] ∧
      Numbered (ofIncarnation ⟨7, 16⟩ 0 1 (run reusedObject).2) :=
  ⟨by rfl, incarnation_numbered reusedObject (by decide) (by simp [reusedObject]) _ _ _⟩

end Probes

end ApiSensor
