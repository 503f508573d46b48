import ApiSensor.Types
import ApiSensor.Library.Endian

/-!
# Producer statistics

`aggregate_producer_stats` of `main.rs`: the per-CPU counters of the kernel's `producer_stats` map
are summed key by key and stored into the global metrics.
-/

namespace ApiSensor

open Library

/-- The keys of `producer_stats`, and the global metric of each. -/
inductive Producer
  | attempted | submitted | reserveFail | copyFail | sampled | mapFail
  deriving DecidableEq

namespace Producer

def all : List Producer := [attempted, submitted, reserveFail, copyFail, sampled, mapFail]

/-- The keys whose metric is stored from the kernel's counters: all but `mapFail`. -/
def stored : List Producer := [attempted, submitted, reserveFail, copyFail, sampled]

theorem mem_stored {key : Producer} : key ∈ stored ↔ key ≠ mapFail := by cases key <;> decide

end Producer

/-- `BPF_ATTEMPTED`, `BPF_SUBMITTED`, `BPF_RESERVE_FAIL`, `BPF_COPY_FAIL`, `BPF_SAMPLED` and
`BPF_MAP_FAIL`. -/
abbrev ProducerMetrics := Producer → UInt64

namespace ProducerMetrics

/-- What `lookup_percpu` answers for a key: one value for each CPU. -/
abbrev Answer := Except Unit (Option (List Bytes))

/-- Values shorter than eight bytes are passed over. -/
def addCpu (sum : UInt64) (value : Bytes) : UInt64 :=
  if 8 ≤ value.length then
    .ofNat (min (sum.toNat + fromLe (value.take 8)) (2 ^ 64 - 1))
  else sum

def total : Answer → UInt64
  | .ok (some values) => values.foldl addCpu 0
  | .ok none => 0
  | .error _ => 0

def failed : Answer → Bool
  | .ok _ => false
  | .error _ => true

def aggregateProducerStats (lookup : Producer → Answer) (metrics : ProducerMetrics) :
    ProducerMetrics :=
  let totals := fun key => total (lookup key)
  let metrics := if Producer.all.any fun key => failed (lookup key) then
      Function.update metrics .mapFail (metrics .mapFail + 1) else metrics
  if Producer.stored.any fun key => decide (0 < totals key) then
    fun key => if key ∈ Producer.stored then totals key else metrics key
  else metrics

/-! ## Calls -/

/-- One call: the kernel's counter of each CPU when the key is looked up, and the keys whose lookup
fails. -/
structure Call where
  kernel : Producer → List UInt64
  fails : Producer → Bool

namespace Call

def lookup (call : Call) (key : Producer) : Answer :=
  if call.fails key then .error () else
    .ok (some ((call.kernel key).map fun value => toLe 8 value.toNat))

/-- The sum of the kernel's per-CPU values of a key. -/
def sum (call : Call) (key : Producer) : Nat := ((call.kernel key).map UInt64.toNat).sum

/-- No counter of any CPU is smaller in the second call. -/
def Grows (first second : Call) : Prop :=
  ∀ key, List.Forall₂ (· ≤ ·) (first.kernel key) (second.kernel key)

end Call

def step (metrics : ProducerMetrics) (call : Call) : ProducerMetrics :=
  aggregateProducerStats call.lookup metrics

/-- No stored counter goes backwards in the call, and without failures every counter is at least
the kernel's. -/
def Reports (metrics : ProducerMetrics) (call : Call) : Prop :=
  (∀ key ∈ Producer.stored, metrics key ≤ metrics.step call key) ∧
    ((∀ key, call.fails key = false) → ∀ key, call.sum key ≤ (metrics.step call key).toNat)

/-- What a call has to meet: a key whose lookup fails has nothing stored yet, unless no stored key
that is read has counted anything; and if no lookup fails, the sums of the stored keys are below
`2^64`, and the kernel has not counted more map failures than the metric. -/
def Met (metrics : ProducerMetrics) (call : Call) : Prop :=
  (∀ key ∈ Producer.stored, call.fails key = true → metrics key = 0 ∨
    ∀ other ∈ Producer.stored, call.fails other = false → call.sum other = 0) ∧
    ((∀ key, call.fails key = false) →
      (∀ key ∈ Producer.stored, call.sum key < 2 ^ 64) ∧
        call.sum .mapFail ≤ (metrics .mapFail).toNat)

/-! ## Sums -/

theorem toNat_addCpu (sum value : UInt64) :
    (addCpu sum (toLe 8 value.toNat)).toNat = min (sum.toNat + value.toNat) (2 ^ 64 - 1) := by
  have small : value.toNat % 256 ^ 8 = value.toNat := Nat.mod_eq_of_lt value.toNat_lt
  rw [addCpu, if_pos (length_toLe 8 _).ge, List.take_of_length_le (length_toLe 8 _).le,
    fromLe_toLe, small, UInt64.toNat_ofNat']
  omega

/-- Adding with saturation, value by value, is the sum cut off at the end. -/
theorem toNat_foldl_addCpu (values : List UInt64) (sum : UInt64) :
    ((values.map fun value => toLe 8 value.toNat).foldl addCpu sum).toNat =
      min (sum.toNat + (values.map UInt64.toNat).sum) (2 ^ 64 - 1) := by
  induction values generalizing sum with
  | nil =>
    have bound := sum.toNat_lt
    simp only [List.map_nil, List.foldl_nil, List.sum_nil]
    omega
  | cons value values induction =>
    rw [List.map_cons, List.foldl_cons, induction, toNat_addCpu, List.map_cons, List.sum_cons]
    omega

variable {key : Producer} {metrics : ProducerMetrics}

variable {call : Call}

theorem total_of_fails (fails : call.fails key = true) :
    total (call.lookup key) = 0 := by
  rw [Call.lookup, if_pos fails, total]

theorem toNat_total (reads : call.fails key = false) :
    (total (call.lookup key)).toNat = min (call.sum key) (2 ^ 64 - 1) := by
  rw [Call.lookup, if_neg (by simp [reads]), total, toNat_foldl_addCpu, Call.sum]
  simp

theorem sum_le_of_grows {first second : Call} (grows : first.Grows second) (key : Producer) :
    first.sum key ≤ second.sum key := by
  have smaller : List.Forall₂ (· ≤ ·) ((first.kernel key).map UInt64.toNat)
      ((second.kernel key).map UInt64.toNat) := by
    rw [List.forall₂_map_left_iff, List.forall₂_map_right_iff]
    exact (grows key).imp fun _ _ => UInt64.le_iff_toNat_le.mp
  exact smaller.sum_le_sum

/-! ## One call -/

/-- Some stored key that is read has counted something. -/
def Counted (call : Call) : Prop :=
  ∃ key ∈ Producer.stored, call.fails key = false ∧ call.sum key ≠ 0

theorem any_total_iff (call : Call) :
    (Producer.stored.any fun key => decide (0 < total (call.lookup key))) = true ↔
      Counted call := by
  have positive : ∀ key, 0 < total (call.lookup key) ↔
      call.fails key = false ∧ call.sum key ≠ 0 := by
    intro key
    rw [UInt64.lt_iff_toNat_lt]
    cases reads : call.fails key with
    | true => simp [total_of_fails reads]
    | false =>
      rw [toNat_total reads, UInt64.toNat_zero, eq_self, true_and]
      omega
  simp only [List.any_eq_true, decide_eq_true_eq, positive, Counted]

theorem step_of_counted (counted : Counted call) (metrics : ProducerMetrics)
    (isStored : key ∈ Producer.stored) :
    metrics.step call key = total (call.lookup key) := by
  rw [step, aggregateProducerStats, if_pos ((any_total_iff call).mpr counted), if_pos isStored]

theorem step_of_not_counted (nothing : ¬ Counted call) (metrics : ProducerMetrics)
    (isStored : key ∈ Producer.stored) : metrics.step call key = metrics key := by
  rw [step, aggregateProducerStats, if_neg (mt (any_total_iff call).mp nothing)]
  split
  · exact Function.update_of_ne (Producer.mem_stored.mp isStored) _ _
  · rfl

theorem step_mapFail (reads : ∀ key, call.fails key = false) (metrics : ProducerMetrics) :
    metrics.step call .mapFail = metrics .mapFail := by
  have none : ¬ (Producer.all.any fun key => failed (call.lookup key)) = true := by
    simp [Call.lookup, reads, failed]
  rw [step, aggregateProducerStats, if_neg none]
  split
  · exact if_neg (by decide)
  · rfl

/-- Nothing is stored that the kernel has not counted by the time of the call. -/
def Behind (metrics : ProducerMetrics) (call : Call) : Prop :=
  ∀ key ∈ Producer.stored, (metrics key).toNat ≤ call.sum key

theorem Behind.step {early : Call} (behind : Behind metrics call) (grows : early.Grows call) :
    Behind (metrics.step early) call := by
  intro key isStored
  by_cases counted : Counted early
  · rw [step_of_counted counted metrics isStored]
    cases reads : early.fails key with
    | true => simp [total_of_fails reads]
    | false =>
      have grown := sum_le_of_grows grows key
      rw [toNat_total reads]
      omega
  · rw [step_of_not_counted counted metrics isStored]
    exact behind key isStored

/-- A key that is read does not go backwards; one whose lookup fails is stored as zero. -/
theorem Behind.le_step_iff (behind : Behind metrics call) (isStored : key ∈ Producer.stored) :
    metrics key ≤ metrics.step call key ↔
      (call.fails key = true → metrics key = 0 ∨ ¬ Counted call) := by
  by_cases counted : Counted call
  · rw [step_of_counted counted metrics isStored, UInt64.le_iff_toNat_le]
    cases reads : call.fails key with
    | true => simp [total_of_fails reads, counted, ← UInt64.toNat_inj]
    | false =>
      have seen := behind key isStored
      have bound := (metrics key).toNat_lt
      rw [toNat_total reads]
      simp only [Bool.false_eq_true, false_implies, iff_true]
      omega
  · simp [step_of_not_counted counted metrics isStored, counted]

/-- Without failures a stored counter is the kernel's sum, cut off at the largest value. -/
theorem sum_le_step_iff (reads : ∀ key, call.fails key = false) (isStored : key ∈ Producer.stored) :
    call.sum key ≤ (metrics.step call key).toNat ↔ call.sum key < 2 ^ 64 := by
  by_cases counted : Counted call
  · rw [step_of_counted counted metrics isStored, toNat_total (reads key)]
    omega
  · have zero : call.sum key = 0 := by
      by_contra positive
      exact counted ⟨key, isStored, reads key, positive⟩
    rw [zero]
    simp

theorem not_counted_iff : ¬ Counted call ↔
    ∀ key ∈ Producer.stored, call.fails key = false → call.sum key = 0 := by
  simp only [Counted, not_exists, not_and, not_not]

theorem Behind.reports_iff (behind : Behind metrics call) :
    Reports metrics call ↔ Met metrics call := by
  unfold Reports Met
  rw [← not_counted_iff]
  refine and_congr (forall₂_congr fun key isStored => behind.le_step_iff isStored)
    (forall_congr' fun reads => ?_)
  constructor
  · intro least
    refine ⟨fun key isStored => (sum_le_step_iff reads isStored).mp (least key), ?_⟩
    rw [← step_mapFail reads metrics]
    exact least .mapFail
  · rintro ⟨fit, mapFail⟩ key
    by_cases isStored : key ∈ Producer.stored
    · exact (sum_le_step_iff reads isStored).mpr (fit key isStored)
    · rw [not_not.mp (mt Producer.mem_stored.mpr isStored), step_mapFail reads]
      exact mapFail

/-! ## Runs -/

/-- All metrics start at zero. -/
def zero : ProducerMetrics := fun _ => 0

theorem behind_run {early : List Call} (grows : ∀ seen ∈ early, seen.Grows call) :
    Behind (early.foldl step zero) call := by
  induction early using List.reverseRecOn with
  | nil => exact fun _ _ => Nat.zero_le _
  | append_singleton early last induction =>
    rw [List.foldl_append]
    refine (induction fun seen member => ?_).step (grows last (by simp))
    exact grows seen (List.mem_append_left _ member)

/-- Over calls between which the kernel's counters only grow, and in which any lookups fail, the
metrics never go backwards and cover the kernel's counters exactly if every call meets the
condition in the state it finds. -/
theorem producer_counters_iff (calls : List Call) (growing : calls.Pairwise Call.Grows) :
    (∀ early call rest, calls = early ++ call :: rest →
      Reports (early.foldl step zero) call) ↔
    ∀ early call rest, calls = early ++ call :: rest → Met (early.foldl step zero) call := by
  refine forall₃_congr fun early call rest => forall_congr' fun split => ?_
  subst split
  refine (behind_run fun seen member => ?_).reports_iff
  exact (List.pairwise_append.mp growing).2.2 seen member call List.mem_cons_self

/-- Two CPUs that have counted the same, and a single map failure on one of them if `lost`. -/
def evenCall (value : UInt64) (lost : Bool) (fails : Producer → Bool) : Call :=
  ⟨fun key => if key = .mapFail then [if lost then 1 else 0, 0] else [value, value], fails⟩

theorem evenCall_pairwise (fails : Producer → Bool) :
    [evenCall 5 false fun _ => false, evenCall 6 false fails].Pairwise Call.Grows := by
  rw [List.pairwise_pair]
  intro key
  cases key <;> simp [evenCall]

/-- The metrics follow the kernel from 5 to 6 on both CPUs. -/
theorem producer_counters_growing :
    Reports ([evenCall 5 false fun _ => false].foldl step zero)
      (evenCall 6 false fun _ => false) := by
  refine (producer_counters_iff _ (evenCall_pairwise fun _ => false)).mpr ?_ _ _ [] rfl
  rintro (_ | ⟨first, _ | ⟨second, early⟩⟩) call rest split
  · cases split
    exact ⟨fun _ _ fails => absurd fails (by simp [evenCall]), fun _ => by decide +kernel⟩
  · cases split
    exact ⟨fun _ _ fails => absurd fails (by simp [evenCall]), fun _ => by decide +kernel⟩
  · simp at split

/-- The second counter is stored as 10 and falls back to zero when its lookup fails; and a map
failure that the kernel has counted reaches no metric. -/
theorem producer_counter_falls_back :
    ([evenCall 5 false fun _ => false, evenCall 6 false (· == .submitted)].Pairwise Call.Grows ∧
      ¬ Reports ([evenCall 5 false fun _ => false].foldl step zero)
        (evenCall 6 false (· == .submitted))) ∧
    ¬ Reports zero (evenCall 5 true fun _ => false) := by
  refine ⟨⟨evenCall_pairwise _, fun reports => ?_⟩, fun reports => ?_⟩
  · exact absurd (reports.1 .submitted (by decide)) (by decide +kernel)
  · exact absurd (reports.2 (fun _ => rfl) .mapFail) (by decide +kernel)

end ProducerMetrics
end ApiSensor
