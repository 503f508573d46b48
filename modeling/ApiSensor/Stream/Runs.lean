import ApiSensor.Library.Run
import ApiSensor.Stream.Handle

/-!
# Runs of one stream state

The operations of a shard in the order its lock is taken.  Reservations may be answered either way,
because other shards use the same counter.
-/

namespace ApiSensor

open Library Library.Prog

variable {P : Platform}

/-! ## Outcomes of the primitive actions -/

section Primitives

variable {α β : Type} {post : List Note → β → Prop}

theorem sat_pure {result : β} : Sat (pure result : Act β) post ↔ post [] result := sat_done

variable {next : Unit → Act β} {amount : Nat}

theorem sat_reserveMemory_bind {maxTotal : Nat} {next : Bool → Act β} :
    Sat (reserveMemory maxTotal amount >>= next) post ↔ ∀ granted, Sat (next granted) post :=
  sat_reserve

theorem sat_releaseMemory_bind :
    Sat (releaseMemory amount >>= next) post ↔ Sat (next ()) post :=
  sat_release

theorem sat_releaseAll_bind {amounts : List Nat} :
    Sat (releaseAll amounts >>= next) post ↔ Sat (next ()) post :=
  sat_bind.trans sat_releaseAll

theorem sat_note_bind {entry : Note} :
    Sat (note entry >>= next) post ↔ Sat (next ()) fun entries => post (entry :: entries) :=
  sat_log

theorem sat_count_bind {metric : Metric} :
    Sat (count metric amount >>= next) post ↔
      Sat (next ()) fun entries => post (.count metric amount :: entries) :=
  sat_log

theorem sat_ite {condition : Prop} [Decidable condition] {yes no : Act β} :
    Sat (if condition then yes else no) post ↔
      (condition → Sat yes post) ∧ (¬ condition → Sat no post) := by
  by_cases holds : condition <;> simp [holds]

end Primitives

/-! ## Operations -/

/-- An operation on a stream state. -/
inductive Operation where
  /-- `handle_event` at a time and with the resolver answers of `env`. -/
  | event (env : Env) (ev : TlsEventHeader) (payload : Bytes)
  /-- `evict_connection_by_ptr`. -/
  | close (key : ConnKey)
  /-- `evict_stale` from the periodic sweep. -/
  | sweep (nowMs : Nat)
  /-- `take_all_incomplete`. -/
  | drain (outcome : Str)

/-- The program of an operation. -/
def Operation.program (C : Config) (st : StreamState P) :
    Operation → Act (StreamState P × List TrafficEvent)
  | .event env ev payload => st.handleEvent C env ev payload
  | .close key => st.evictConnectionByPtr C key
  | .sweep nowMs => st.evictStale C nowMs
  | .drain outcome => st.takeAllIncomplete C outcome

/-- An operation that was performed, with its log and the events it returned. -/
structure Stage where
  op : Operation
  log : List Note
  events : List TrafficEvent

namespace StreamState

/-- One operation of a run. -/
def Step (C : Config) (st : StreamState P) (stage : Stage) (after : StreamState P) : Prop :=
  Outcome (stage.op.program C st) stage.log (after, stage.events)

/-- Runs of a stream state. -/
abbrev Run (C : Config) : StreamState P → List (StreamState P × Stage) → StreamState P → Prop :=
  Library.Run (Step C)

/-- Perform operations one after the other against the counter: the trace, the state and the
counter at the end. -/
def exec (C : Config) : List Operation → StreamState P → Nat →
    List (StreamState P × Stage) × StreamState P × Nat
  | [], st, counter => ([], st, counter)
  | op :: ops, st, counter =>
    let result := (op.program C st).run counter
    let rest := exec C ops result.1.1 result.2.1
    ((st, ⟨op, result.2.2, result.1.2⟩) :: rest.1, rest.2)

/-- Running an operation against the counter is a step. -/
theorem step_run (C : Config) (st : StreamState P) (op : Operation) (counter : Nat) :
    let result := (op.program C st).run counter
    Step C st ⟨op, result.2.2, result.1.2⟩ result.1.1 :=
  outcome_run (op.program C st) counter

theorem run_exec (C : Config) (ops : List Operation) (st : StreamState P) (counter : Nat) :
    Run C st (exec C ops st counter).1 (exec C ops st counter).2.1 := by
  induction ops generalizing st counter with
  | nil => exact .nil st
  | cons op ops induction =>
    exact .cons (step_run C st op counter) (induction _ _)

end StreamState

/-! ## A concrete instance -/

/-- A server-side sensor without namespace scope. -/
def serverConfig (maxTotalBufferBytes : Nat) : Config where
  accountId := 1
  role := .server
  maxBuffer := 65536
  maxTotalBufferBytes := maxTotalBufferBytes
  namespaceScope := none

/-- A call at a given time, with no resolver answers. -/
def atTime (now : Nat) : Env := ⟨now, none, none, fun _ => none⟩

/-- An event header of one connection: direction 0 carries requests, 1 responses. -/
def onConnection (sslPtr : UInt64) (direction : UInt8) : TlsEventHeader :=
  { TlsEventHeader.blank with
    pid := 42, sslPtr, direction, procStartNs := 7, connGeneration := 1 }

/-- The key of a connection first seen at time 100. -/
def firstKey : ConnKey := ConnKey.fromEvent (onConnection 0x1000 0) 100

/-- A chunk of text on one connection. -/
def chunk (now : Nat) (direction : UInt8) (text : String) : Operation :=
  .event (atTime now) (onConnection 0x1000 direction) (bytes text)

end ApiSensor
