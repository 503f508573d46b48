import ApiSensor.Types

/-!
# The kernel probes

The parts of `http_trace.bpf.c` that give TLS objects their identity: the generation and sequence
numbers of `next_seq`, the header of an event, and `ssl_free_entry`.  The maps are unbounded, so
nothing is evicted from them behind the back of the probes.
-/

namespace ApiSensor

open Library

/-- The task a probe runs in: `bpf_get_current_pid_tgid` and `current_proc_start_ns`. -/
structure Task where
  pidTgid : UInt64
  procStartNs : UInt64

/-- The process in the upper half of `pid_tgid`. -/
def tgidOf (pidTgid : UInt64) : UInt32 := (pidTgid >>> 32).toUInt32

structure SslKey where
  tgid : UInt32
  ptr : UInt64
  deriving DecidableEq

def sslKeyFor (task : Task) (ptr : UInt64) : SslKey := ⟨tgidOf task.pidTgid, ptr⟩

structure SslState where
  generation : UInt32
  seq0 : UInt32
  seq1 : UInt32
  deriving DecidableEq

/-- `ssl_state_map` and `ssl_ptr_to_pid`. -/
structure Kernel where
  sslStateMap : Dict SslKey SslState
  sslPtrToPid : Dict SslKey UInt64

namespace Kernel

def empty : Kernel := ⟨.empty, .empty⟩

def rememberSslOwner (kernel : Kernel) (task : Task) (sslPtr : UInt64) : Kernel :=
  { kernel with sslPtrToPid := kernel.sslPtrToPid.insert (sslKeyFor task sslPtr) task.pidTgid }

/-- Generation and sequence number for one record, and the map afterwards.  A missing entry is
inserted with zeros first. -/
def nextSeq (kernel : Kernel) (task : Task) (sslPtr : UInt64) (direction : UInt8) :
    UInt32 × UInt32 × Kernel :=
  let key := sslKeyFor task sslPtr
  let st := (kernel.sslStateMap.get? key).getD ⟨0, 0, 0⟩
  if direction &&& 1 = 0 then
    (st.generation, st.seq0,
      { kernel with sslStateMap := kernel.sslStateMap.insert key { st with seq0 := st.seq0 + 1 } })
  else
    (st.generation, st.seq1,
      { kernel with sslStateMap := kernel.sslStateMap.insert key { st with seq1 := st.seq1 + 1 } })

/-- `emit_event` up to the reservation in the ring: `hdr` stands for the header fields that say
nothing about the identity of the object. -/
def emitEvent (kernel : Kernel) (task : Task) (sslPtr : UInt64) (hdr : TlsEventHeader) :
    TlsEventHeader × Kernel :=
  let (generation, seq, kernel) := kernel.nextSeq task sslPtr hdr.direction
  ({ hdr with
      pid := tgidOf task.pidTgid
      sslPtr
      connGeneration := generation
      procStartNs := task.procStartNs
      dirSeq := seq }, kernel)

/-- `ssl_free_entry`: the close record and the maps afterwards.  The generation is bumped only if
the object has state. -/
def sslFreeEntry (kernel : Kernel) (task : Task) (sslPtr : UInt64) : CloseEvent × Kernel :=
  let key := sslKeyFor task sslPtr
  let pidTgid := (kernel.sslPtrToPid.get? key).getD task.pidTgid
  let sslPtrToPid := kernel.sslPtrToPid.erase key
  match kernel.sslStateMap.get? key with
  | some st =>
    (⟨tgidOf pidTgid, sslPtr, task.procStartNs, st.generation⟩,
      ⟨kernel.sslStateMap.insert key ⟨st.generation + 1, 0, 0⟩, sslPtrToPid⟩)
  | none => (⟨tgidOf pidTgid, sslPtr, task.procStartNs, 0⟩, ⟨kernel.sslStateMap, sslPtrToPid⟩)

/-! ## What the probes keep -/

/-- The recorded owner of an object belongs to the process of the object. -/
def Owned (kernel : Kernel) : Prop :=
  ∀ key pidTgid, kernel.sslPtrToPid.get? key = some pidTgid → tgidOf pidTgid = key.tgid

theorem owned_empty : empty.Owned := fun _ _ found => absurd found (by simp [empty])

variable {kernel : Kernel}

theorem Owned.rememberSslOwner (owned : kernel.Owned) (task : Task) (sslPtr : UInt64) :
    (kernel.rememberSslOwner task sslPtr).Owned := by
  intro key pidTgid found
  simp only [Kernel.rememberSslOwner, Dict.get?_insert] at found
  split at found
  · rename_i same
    cases found
    rw [same]
    rfl
  · exact owned key pidTgid found

theorem sslPtrToPid_nextSeq (kernel : Kernel) (task : Task) (sslPtr : UInt64) (direction : UInt8) :
    (kernel.nextSeq task sslPtr direction).2.2.sslPtrToPid = kernel.sslPtrToPid := by
  unfold nextSeq
  split <;> rfl

theorem Owned.emitEvent (owned : kernel.Owned) (task : Task) (sslPtr : UInt64)
    (hdr : TlsEventHeader) : (kernel.emitEvent task sslPtr hdr).2.Owned := by
  intro key pidTgid found
  have same := kernel.sslPtrToPid_nextSeq task sslPtr hdr.direction
  refine owned key pidTgid ?_
  rw [← same]
  exact found

theorem Owned.sslFreeEntry (owned : kernel.Owned) (task : Task) (sslPtr : UInt64) :
    (kernel.sslFreeEntry task sslPtr).2.Owned := by
  have kept : (kernel.sslFreeEntry task sslPtr).2.sslPtrToPid =
      kernel.sslPtrToPid.erase (sslKeyFor task sslPtr) := by
    unfold Kernel.sslFreeEntry
    dsimp only
    split <;> rfl
  intro key pidTgid found
  rw [kept, Dict.get?_erase] at found
  split at found
  · cases found
  · exact owned key pidTgid found

/-- The record of a free names the object that is freed. -/
theorem key_sslFreeEntry (owned : kernel.Owned) (task : Task) (sslPtr : UInt64) :
    (⟨(kernel.sslFreeEntry task sslPtr).1.pid, (kernel.sslFreeEntry task sslPtr).1.sslPtr⟩ :
      SslKey) = sslKeyFor task sslPtr := by
  have owner : tgidOf ((kernel.sslPtrToPid.get? (sslKeyFor task sslPtr)).getD task.pidTgid) =
      tgidOf task.pidTgid := by
    cases found : kernel.sslPtrToPid.get? (sslKeyFor task sslPtr) with
    | none => rfl
    | some pidTgid => exact owned _ _ found
  unfold Kernel.sslFreeEntry
  dsimp only
  split <;>
    · rw [owner]
      rfl

/-- The generation of an object as an I/O probe would find it, zero if it has no state. -/
def generation (kernel : Kernel) (key : SslKey) : UInt32 :=
  (kernel.sslStateMap.get? key).elim 0 SslState.generation

section

variable (kernel : Kernel) (task : Task) (sslPtr : UInt64) (hdr : TlsEventHeader) (key : SslKey)

/-- I/O leaves generations alone. -/
theorem generation_nextSeq (direction : UInt8) (key : SslKey) :
    (kernel.nextSeq task sslPtr direction).2.2.generation key = kernel.generation key := by
  unfold nextSeq generation
  dsimp only
  split <;>
    · simp only [Dict.get?_insert]
      split
      · rename_i same
        subst same
        cases kernel.sslStateMap.get? (sslKeyFor task sslPtr) <;> rfl
      · rfl

theorem generation_emitEvent :
    (kernel.emitEvent task sslPtr hdr).2.generation key = kernel.generation key :=
  kernel.generation_nextSeq task sslPtr hdr.direction key

/-- An event carries the generation of its object. -/
theorem identity_emitEvent :
    (kernel.emitEvent task sslPtr hdr).1.identity =
      ⟨tgidOf task.pidTgid, sslPtr, task.procStartNs,
        kernel.generation (sslKeyFor task sslPtr)⟩ := by
  unfold emitEvent nextSeq generation TlsEventHeader.identity
  dsimp only
  split <;> cases kernel.sslStateMap.get? (sslKeyFor task sslPtr) <;> rfl

end

/-- A free of an object with state ends its generation and begins the next. -/
theorem sslFreeEntry_of_state {task : Task} {sslPtr : UInt64} {st : SslState}
    (found : kernel.sslStateMap.get? (sslKeyFor task sslPtr) = some st) (key : SslKey) :
    (kernel.sslFreeEntry task sslPtr).1.generation = st.generation ∧
      (kernel.sslFreeEntry task sslPtr).1.procStartNs = task.procStartNs ∧
      (kernel.sslFreeEntry task sslPtr).2.generation key =
        if key = sslKeyFor task sslPtr then st.generation + 1 else kernel.generation key := by
  unfold sslFreeEntry generation
  simp only [found, Dict.get?_insert, true_and]
  split <;> rfl

end Kernel

end ApiSensor
