import Mathlib.Algebra.BigOperators.Group.List.Basic
import Mathlib.Data.List.Nodup
import Mathlib.Data.List.Sort
import Mathlib.Tactic.Abel

/-!
# Finite dictionaries

A dictionary is an association list whose keys are pairwise distinct.  The order of the entries
stands for the iteration order of a hash map: it is some order, and no lemma here speaks about it
except through membership, lookup and additive weights.
-/

namespace Library

/-- A finite map presented by its entries. -/
structure Dict (κ ν : Type) where
  /-- Key and value pairs in iteration order. -/
  entries : List (κ × ν)
  /-- No key occurs twice. -/
  nodup : (entries.map Prod.fst).Nodup
  deriving DecidableEq

namespace Dict

variable {κ ν μ : Type}

/-- The dictionary without entries. -/
def empty : Dict κ ν := ⟨[], List.nodup_nil⟩

instance : Inhabited (Dict κ ν) := ⟨empty⟩

/-- Number of entries. -/
def size (dict : Dict κ ν) : Nat := dict.entries.length

/-- Keys in iteration order. -/
def keys (dict : Dict κ ν) : List κ := dict.entries.map Prod.fst

/-- Values in iteration order. -/
def values (dict : Dict κ ν) : List ν := dict.entries.map Prod.snd

/-- Keep the entries that satisfy a test. -/
def retain (keep : κ → ν → Bool) (dict : Dict κ ν) : Dict κ ν where
  entries := dict.entries.filter fun entry => keep entry.1 entry.2
  nodup := dict.nodup.sublist (List.Sublist.map _ List.filter_sublist)

/-- Replace every value by a function of its key and value. -/
def mapValues (update : κ → ν → μ) (dict : Dict κ ν) : Dict κ μ where
  entries := dict.entries.map fun entry => (entry.1, update entry.1 entry.2)
  nodup := by simpa [Function.comp_def] using dict.nodup

/-- Sum of a weight over all entries. -/
def total {M : Type} [AddCommMonoid M] (weight : κ → ν → M) (dict : Dict κ ν) : M :=
  (dict.entries.map fun entry => weight entry.1 entry.2).sum

theorem retain_retain (first second : κ → ν → Bool) (dict : Dict κ ν) :
    (dict.retain first).retain second =
      dict.retain fun key value => first key value && second key value := by
  simp only [retain, List.filter_filter, Bool.and_comm]

theorem retain_eq_empty {keep : κ → ν → Bool} (dict : Dict κ ν)
    (none_kept : ∀ key value, keep key value = false) : dict.retain keep = empty := by
  simp [retain, empty, none_kept]

section Lookup

variable [DecidableEq κ]

/-- Value stored under a key. -/
def get? (dict : Dict κ ν) (key : κ) : Option ν :=
  (dict.entries.find? fun entry => entry.1 = key).map Prod.snd

/-- Whether a key has an entry. -/
def contains (dict : Dict κ ν) (key : κ) : Bool := (dict.get? key).isSome

/-- Remove the entry of a key, if there is one. -/
def erase (dict : Dict κ ν) (key : κ) : Dict κ ν := dict.retain fun other _ => other ≠ key

/-- Store a value under a key, replacing the value it had. -/
def insert (dict : Dict κ ν) (key : κ) (value : ν) : Dict κ ν where
  entries := (dict.erase key).entries ++ [(key, value)]
  nodup := by
    rw [List.map_append, List.nodup_append]
    refine ⟨(dict.erase key).nodup, by simp, ?_⟩
    intro other other_mem same same_mem
    obtain ⟨entry, entry_mem, rfl⟩ := List.mem_map.mp other_mem
    have distinct : entry.1 ≠ key := by
      simpa [erase, retain] using (List.mem_filter.mp entry_mem).2
    have same_eq : same = key := by simpa using same_mem
    exact same_eq ▸ distinct

/-- The keys of the entries of least `age` that exceed a limit on the number of entries. -/
def excess (dict : Dict κ ν) (age : ν → Nat) (limit : Nat) : List κ :=
  ((dict.entries.insertionSort fun first second => age first.2 ≤ age second.2).take
    (dict.size - limit)).map Prod.fst

@[simp]
theorem get?_empty (key : κ) : (empty : Dict κ ν).get? key = none := rfl

theorem mem_entries_iff (dict : Dict κ ν) (key : κ) (value : ν) :
    (key, value) ∈ dict.entries ↔ dict.get? key = some value := by
  obtain ⟨entries, nodup⟩ := dict
  simp only [get?]
  induction entries with
  | nil => simp
  | cons entry entries induction =>
    obtain ⟨first, stored⟩ := entry
    have tail_nodup : (entries.map Prod.fst).Nodup := nodup.of_cons
    by_cases same : first = key
    · subst first
      have absent : ∀ other, (key, other) ∉ entries := by
        intro other member
        exact (List.nodup_cons.mp nodup).1 (List.mem_map.mpr ⟨_, member, rfl⟩)
      simp [absent, eq_comm]
    · simpa [same, Ne.symm same] using induction tail_nodup

@[simp]
theorem get?_retain (keep : κ → ν → Bool) (dict : Dict κ ν) (key : κ) :
    (dict.retain keep).get? key = (dict.get? key).filter (keep key) := by
  apply Option.ext
  intro value
  rw [← mem_entries_iff, Option.filter_eq_some_iff, ← mem_entries_iff]
  simp [retain]

variable {key : κ} {dict : Dict κ ν}

theorem get?_retain_eq_some {keep : κ → ν → Bool} {value : ν} :
    (dict.retain keep).get? key = some value ↔
      dict.get? key = some value ∧ keep key value = true := by
  rw [get?_retain, Option.filter_eq_some_iff]

/-- A test on keys keeps the entry of a key that passes it. -/
theorem get?_retain_of_true (keep : κ → Bool) (dict : Dict κ ν) (passes : keep key = true) :
    (dict.retain fun key _ => keep key).get? key = dict.get? key := by
  rw [get?_retain]
  cases dict.get? key with
  | none => rfl
  | some value => rw [Option.filter_some, if_pos passes]

theorem contains_retain (keep : κ → Bool) (dict : Dict κ ν) (key : κ) :
    (dict.retain fun key _ => keep key).contains key = (dict.contains key && keep key) := by
  rw [contains, contains, get?_retain]
  cases dict.get? key with
  | none => rfl
  | some value =>
    rw [Option.filter_some]
    cases keep key <;> rfl

/-- An entry is dropped or kept as it is. -/
theorem get?_retain_cases (keep : κ → ν → Bool) (dict : Dict κ ν) (key : κ) :
    (dict.retain keep).get? key = none ∨ (dict.retain keep).get? key = dict.get? key := by
  rw [get?_retain]
  cases dict.get? key with
  | none => exact .inl rfl
  | some value =>
    rw [Option.filter_some]
    split
    · exact .inr rfl
    · exact .inl rfl

theorem contains_of_mem {entry : κ × ν} (member : entry ∈ dict.entries) :
    dict.contains entry.1 = true := by
  rw [contains, (mem_entries_iff dict entry.1 entry.2).mp member]
  rfl

theorem mem_keys_iff :
    key ∈ dict.keys ↔ dict.contains key = true := by
  constructor
  · intro listed
    obtain ⟨entry, member, rfl⟩ := List.mem_map.mp listed
    exact contains_of_mem member
  · intro present
    obtain ⟨value, found⟩ := Option.isSome_iff_exists.mp present
    exact List.mem_map.mpr ⟨(key, value), (mem_entries_iff dict key value).mpr found, rfl⟩

theorem retain_congr {first second : κ → Bool}
    (same : ∀ key, dict.contains key = true → first key = second key) :
    (dict.retain fun key _ => first key) = dict.retain fun key _ => second key := by
  have entries : dict.entries.filter (fun entry => first entry.1) =
      dict.entries.filter fun entry => second entry.1 :=
    List.filter_congr fun entry member => same entry.1 (contains_of_mem member)
  simp only [retain, entries]

theorem retain_eq_self_iff {keep : κ → Bool} :
    (dict.retain fun key _ => keep key) = dict ↔
      ∀ key, dict.contains key = true → keep key = true := by
  constructor
  · intro same key present
    rw [← same, contains_retain] at present
    exact (Bool.and_eq_true_iff.mp present).2
  · intro all
    have kept : ∀ entry ∈ dict.entries, keep entry.1 = true :=
      fun entry member => all entry.1 (contains_of_mem member)
    have entries := List.filter_eq_self.mpr kept
    obtain ⟨list, nodup⟩ := dict
    simp only [retain, Dict.mk.injEq]
    exact entries

/-- A test on keys does not see an entry that it drops. -/
theorem retain_erase_of_false (keep : κ → Bool) (dropped : keep key = false) (dict : Dict κ ν) :
    ((dict.erase key).retain fun key _ => keep key) = dict.retain fun key _ => keep key := by
  rw [erase, retain_retain]
  congr 1
  funext other value
  by_cases same : other = key <;> simp [same, dropped]

theorem retain_insert_of_false (keep : κ → Bool) (dropped : keep key = false) (dict : Dict κ ν)
    (value : ν) :
    ((dict.insert key value).retain fun key _ => keep key) = dict.retain fun key _ => keep key := by
  rw [← retain_erase_of_false keep dropped dict]
  simp [retain, insert, List.filter_append, dropped]

@[simp]
theorem get?_mapValues (update : κ → ν → μ) (dict : Dict κ ν) (key : κ) :
    (dict.mapValues update).get? key = (dict.get? key).map (update key) := by
  apply Option.ext
  intro value
  rw [← mem_entries_iff, Option.map_eq_some_iff]
  simp only [mapValues, List.mem_map, Prod.mk.injEq, Prod.exists]
  constructor
  · rintro ⟨_, stored, member, rfl, rfl⟩
    exact ⟨stored, (mem_entries_iff _ _ _).mp member, rfl⟩
  · rintro ⟨stored, found, rfl⟩
    exact ⟨key, stored, (mem_entries_iff _ _ _).mpr found, rfl, rfl⟩

theorem get?_erase (dict : Dict κ ν) (removed key : κ) :
    (dict.erase removed).get? key = if key = removed then none else dict.get? key := by
  rw [erase, get?_retain]
  by_cases same : key = removed
  · cases dict.get? key <;> simp [same, Option.filter]
  · cases dict.get? key <;> simp [same, Option.filter]

theorem get?_insert (dict : Dict κ ν) (inserted key : κ) (value : ν) :
    (dict.insert inserted value).get? key =
      if key = inserted then some value else dict.get? key := by
  apply Option.ext
  intro stored
  rw [← mem_entries_iff]
  have erased := dict.get?_erase inserted key
  by_cases same : key = inserted
  · subst inserted
    have absent : (key, stored) ∉ (dict.erase key).entries := by
      rw [mem_entries_iff, erased]
      simp
    simp [insert, absent, eq_comm]
  · rw [if_neg same] at erased ⊢
    simp [insert, mem_entries_iff, erased, same]

@[simp]
theorem get?_insert_self (dict : Dict κ ν) (key : κ) (value : ν) :
    (dict.insert key value).get? key = some value := by
  simp [get?_insert]

/-- A value found after an insertion is the inserted one or was there before. -/
theorem get?_insert_eq_some {inserted : κ} {value stored : ν}
    (found : (dict.insert inserted value).get? key = some stored) :
    (key = inserted ∧ stored = value) ∨ dict.get? key = some stored := by
  rw [get?_insert] at found
  split at found
  · rename_i same
    exact .inl ⟨same, (Option.some.inj found).symm⟩
  · exact .inr found

theorem get?_insert_of_ne (dict : Dict κ ν) {inserted : κ} (distinct : key ≠ inserted) (value : ν) :
    (dict.insert inserted value).get? key = dict.get? key := by
  simp [get?_insert, distinct]

@[simp]
theorem get?_erase_self (dict : Dict κ ν) (key : κ) : (dict.erase key).get? key = none := by
  simp [get?_erase]

theorem get?_erase_of_ne (dict : Dict κ ν) {removed : κ} (distinct : key ≠ removed) :
    (dict.erase removed).get? key = dict.get? key := by
  simp [get?_erase, distinct]

end Lookup

/-! ## Additive weights -/

section Weights

variable {M : Type} [AddCommMonoid M]

variable (weight : κ → ν → M)

@[simp]
theorem total_empty : (empty : Dict κ ν).total weight = 0 := rfl

/-- What is kept and what is dropped together weigh as much as the whole. -/
theorem total_retain_add (keep : κ → ν → Bool) (dict : Dict κ ν) :
    (dict.retain keep).total weight + (dict.retain fun key value => !keep key value).total weight =
      dict.total weight := by
  obtain ⟨entries, nodup⟩ := dict
  simp only [total, retain]
  clear nodup
  induction entries with
  | nil => simp
  | cons entry entries induction =>
    cases kept : keep entry.1 entry.2 <;>
      simp only [kept, List.filter_cons, List.map_cons, List.sum_cons, Bool.not_true,
        Bool.not_false, Bool.false_eq_true, if_true, if_false, ← induction] <;>
      abel

/-- Dropping entries that weigh nothing does not change the total. -/
theorem total_retain_of_eq_zero (keep : κ → ν → Bool) (dict : Dict κ ν)
    (zero : ∀ entry ∈ dict.entries, keep entry.1 entry.2 = false → weight entry.1 entry.2 = 0) :
    (dict.retain keep).total weight = dict.total weight := by
  obtain ⟨entries, nodup⟩ := dict
  simp only [total, retain] at zero ⊢
  clear nodup
  induction entries with
  | nil => rfl
  | cons entry entries induction =>
    have tail := induction fun other member => zero other (List.mem_cons_of_mem _ member)
    cases kept : keep entry.1 entry.2 with
    | true => simp [kept, tail]
    | false => simp [kept, tail, zero entry List.mem_cons_self kept]

@[simp]
theorem total_retain_true (dict : Dict κ ν) :
    (dict.retain fun _ _ => true).total weight = dict.total weight :=
  total_retain_of_eq_zero weight _ dict fun _ _ dropped => absurd dropped (by simp)

theorem total_mapValues (weight : κ → μ → M) (update : κ → ν → μ) (dict : Dict κ ν) :
    (dict.mapValues update).total weight =
      dict.total fun key value => weight key (update key value) := by
  simp [total, mapValues, Function.comp_def]

theorem total_add (first second : κ → ν → M) (dict : Dict κ ν) :
    dict.total (fun key value => first key value + second key value) =
      dict.total first + dict.total second := by
  obtain ⟨entries, nodup⟩ := dict
  simp only [total]
  clear nodup
  induction entries with
  | nil => simp
  | cons entry entries induction =>
    simp only [List.map_cons, List.sum_cons, induction]
    abel

theorem sum_values_map (weight : ν → M) (dict : Dict κ ν) :
    (dict.values.map weight).sum = dict.total fun _ value => weight value := by
  simp [total, values, Function.comp_def]

theorem sum_values_flatMap (weights : ν → List M) (dict : Dict κ ν) :
    (dict.values.flatMap weights).sum = dict.total fun _ value => (weights value).sum := by
  rw [values, List.flatMap_map, List.flatMap_def, List.sum_flatten, total, List.map_map]
  rfl

theorem total_le (first second : κ → ν → Nat) (dict : Dict κ ν)
    (le : ∀ key value, first key value ≤ second key value) :
    dict.total first ≤ dict.total second := by
  obtain ⟨entries, nodup⟩ := dict
  simp only [total]
  clear nodup
  induction entries with
  | nil => exact Nat.le_refl _
  | cons entry entries induction =>
    simpa using Nat.add_le_add (le entry.1 entry.2) induction

theorem total_retain_le (weight : κ → ν → Nat) (keep : κ → ν → Bool) (dict : Dict κ ν) :
    (dict.retain keep).total weight ≤ dict.total weight := by
  rw [← total_retain_add weight keep dict]
  exact Nat.le_add_right _ _

variable [DecidableEq κ]

theorem total_erase (dict : Dict κ ν) (key : κ) :
    (dict.erase key).total weight + (dict.get? key).elim 0 (weight key) = dict.total weight := by
  obtain ⟨entries, nodup⟩ := dict
  simp only [total, erase, retain, get?]
  induction entries with
  | nil => simp
  | cons entry entries induction =>
    obtain ⟨first, stored⟩ := entry
    have tail := induction nodup.of_cons
    by_cases same : first = key
    · subst first
      have absent : entries.find? (fun entry => entry.1 = key) = none := by
        rw [List.find?_eq_none]
        intro entry member equal
        have key_eq : entry.1 = key := by simpa using equal
        exact (List.nodup_cons.mp nodup).1 (List.mem_map.mpr ⟨entry, member, key_eq⟩)
      simp only [absent, Option.map_none, Option.elim_none, add_zero] at tail
      simp [← tail, add_comm]
    · simp only [same, ne_eq, not_false_eq_true, decide_true, List.filter_cons_of_pos,
        List.map_cons, List.sum_cons, decide_false, Bool.false_eq_true, List.find?_cons_of_neg,
        ← tail]
      abel

theorem total_insert (dict : Dict κ ν) (key : κ) (value : ν) :
    (dict.insert key value).total weight + (dict.get? key).elim 0 (weight key) =
      dict.total weight + weight key value := by
  have erased := total_erase weight dict key
  simp only [total, insert, List.map_append, List.sum_append, List.map_cons, List.map_nil,
    List.sum_cons, List.sum_nil, add_zero] at erased ⊢
  rw [← erased]
  abel

theorem total_insert_le (weight : κ → ν → Nat) (dict : Dict κ ν) (key : κ) (value : ν) :
    (dict.insert key value).total weight ≤ dict.total weight + weight key value := by
  rw [← total_insert weight dict key value]
  exact Nat.le_add_right _ _

theorem size_insert (dict : Dict κ ν) (key : κ) (value : ν) :
    (dict.insert key value).size = dict.size + if (dict.get? key).isSome then 0 else 1 := by
  have size_eq (dict : Dict κ ν) : dict.size = dict.total fun _ _ => 1 := by simp [size, total]
  have inserted := total_insert (fun _ _ => 1) dict key value
  rw [size_eq, size_eq]
  cases found : dict.get? key with
  | none => simpa [found] using inserted
  | some old => simpa [found] using inserted

/-- Fewer entries are left exactly if one of them fails the test. -/
theorem size_retain_lt_iff {keep : κ → ν → Bool} {dict : Dict κ ν} :
    (dict.retain keep).size < dict.size ↔
      ∃ key value, dict.get? key = some value ∧ keep key value = false := by
  simp only [size, retain, List.length_filter_lt_length_iff_exists, Prod.exists, mem_entries_iff,
    Bool.not_eq_true]

theorem le_total (weight : κ → ν → Nat) (dict : Dict κ ν) (key : κ) :
    (dict.get? key).elim 0 (weight key) ≤ dict.total weight := by
  rw [← total_erase weight dict key]
  exact Nat.le_add_left _ _

end Weights

end Dict

/-! ## Running totals -/

/-- A dictionary together with the total weight of its values. -/
structure Charged (κ : Type) {ν : Type} (weight : ν → Nat) where
  /-- The entries. -/
  map : Dict κ ν
  /-- Their total weight, kept up to date by every operation. -/
  bytes : Nat
  /-- The total is exact. -/
  accounted : bytes = map.total fun _ value => weight value

namespace Charged

variable {κ ν : Type} {weight : ν → Nat}

/-- No entries. -/
def empty : Charged κ weight := ⟨.empty, 0, rfl⟩

/-- Keep the entries that satisfy a test. -/
def retain (keep : κ → ν → Bool) (charged : Charged κ weight) : Charged κ weight where
  map := charged.map.retain keep
  bytes := charged.bytes -
    (charged.map.retain fun key value => !keep key value).total fun _ value => weight value
  accounted := by
    have split := Dict.total_retain_add (fun _ value => weight value) keep charged.map
    rw [charged.accounted]
    omega

variable [DecidableEq κ]

/-- Weight of the value under a key. -/
def weightAt (charged : Charged κ weight) (key : κ) : Nat :=
  (charged.map.get? key).elim 0 weight

variable (charged : Charged κ weight)

theorem total_erase (key : κ) :
    ((charged.map.erase key).total fun _ value => weight value) + charged.weightAt key =
      charged.bytes := by
  rw [charged.accounted]
  exact Dict.total_erase (fun _ value => weight value) charged.map key

theorem weightAt_le (key : κ) :
    charged.weightAt key ≤ charged.bytes := by
  have erased := charged.total_erase key
  omega

/-- Remove an entry and subtract its weight. -/
def without (charged : Charged κ weight) (key : κ) : Charged κ weight where
  map := charged.map.erase key
  bytes := charged.bytes - charged.weightAt key
  accounted := by
    have erased := charged.total_erase key
    omega

/-- Store a value that weighs `added` more than the one it replaces. -/
def put (charged : Charged κ weight) (key : κ) (value : ν) (added : Nat)
    (grows : weight value = charged.weightAt key + added) : Charged κ weight where
  map := charged.map.insert key value
  bytes := charged.bytes + added
  accounted := by
    have inserted : ((charged.map.insert key value).total fun _ value => weight value) +
        charged.weightAt key = (charged.map.total fun _ value => weight value) + weight value :=
      Dict.total_insert (fun _ value => weight value) charged.map key value
    rw [charged.accounted]
    omega

@[simp]
theorem weightAt_without (key : κ) :
    (charged.without key).weightAt key = 0 := by
  simp [weightAt, without]

omit [DecidableEq κ] in
/-- The weight is determined by the entries. -/
theorem ext_map {first second : Charged κ weight} (same : first.map = second.map) :
    first = second := by
  obtain ⟨map, bytes, accounted⟩ := first
  obtain ⟨map', bytes', accounted'⟩ := second
  cases same
  have bytes_eq : bytes = bytes' := accounted.trans accounted'.symm
  subst bytes_eq
  rfl

theorem retain_eq_self_iff {keep : κ → Bool} {charged : Charged κ weight} :
    (charged.retain fun key _ => keep key) = charged ↔
      ∀ key, charged.map.contains key = true → keep key = true := by
  rw [← Dict.retain_eq_self_iff]
  exact ⟨congrArg map, fun same => ext_map same⟩

theorem retain_congr {first second : κ → Bool} {charged : Charged κ weight}
    (same : ∀ key, charged.map.contains key = true → first key = second key) :
    (charged.retain fun key _ => first key) = charged.retain fun key _ => second key :=
  ext_map (Dict.retain_congr same)

theorem without_eq_retain (key : κ) :
    charged.without key = charged.retain fun other _ => other ≠ key := ext_map rfl

omit [DecidableEq κ] in
theorem retain_retain (first second : κ → ν → Bool) (charged : Charged κ weight) :
    (charged.retain first).retain second =
      charged.retain fun key value => first key value && second key value :=
  ext_map (Dict.retain_retain first second charged.map)

end Charged

end Library
