import ApiSensor.Decoding.Memory
import ApiSensor.Redaction

/-!
# Query parameters on the wire

`build_event` splits the query of a redacted request target into a map, and `event_to_value` joins
the map again.  A map has one value for each name, so a name that is repeated is shipped once.
-/

namespace ApiSensor

open Library

/-- The pairs of a query string as `split_query` reads them. -/
def queryPairs (query : Str) : List (Str × Str) :=
  ((split '&' query).filter fun pair => !pair.isEmpty).map fun pair =>
    (splitOnce '=' pair).getD (pair, [])

/-- The loop of `split_query`. -/
def queryMap (query : Str) : Dict Str Str :=
  (queryPairs query).foldl (fun map pair => map.insert pair.1 pair.2) .empty

def splitQuery (path : Str) : Str × Dict Str Str :=
  match splitOnce '?' path with
  | some (base, query) => (base, queryMap query)
  | none => (path, .empty)

/-- `split_uri_query`. -/
def splitUriQuery (path : Str) : Str × Str := (splitOnce '?' path).getD (path, [])

/-- The order in which `query_string` puts pairs. -/
def pairLe (first second : Str × Str) : Prop :=
  first.1 < second.1 ∨ first.1 = second.1 ∧ ¬ second.2 < first.2

instance : DecidableRel pairLe := fun first second =>
  inferInstanceAs (Decidable (first.1 < second.1 ∨ first.1 = second.1 ∧ ¬ second.2 < first.2))

/-- One pair on the wire. -/
def joinPair (pair : Str × Str) : Str :=
  if pair.2.isEmpty then pair.1 else pair.1 ++ '=' :: pair.2

def queryString (query : Dict Str Str) (fromPath : Str) : Str :=
  if !fromPath.isEmpty then fromPath
  else ['&'].intercalate ((query.entries.insertionSort pairLe).map joinPair)

/-- `HTTPReq.Query` for a request target: `build_event`, then `event_to_value`. -/
def httpReqQuery (R : Redactor) (target : Str) : Str :=
  let (path, query) := splitQuery (redactUrl R target)
  queryString query (splitUriQuery path).2

/-! ## Pairs and their spelling -/

theorem splitOnce_eq_none {separator : Char} {text : Str} :
    splitOnce separator text = none ↔ separator ∉ text := by
  induction text with
  | nil => simp [splitOnce]
  | cons c text induction =>
    rw [splitOnce]
    split_ifs with same
    · simp [same]
    · simp [induction, Ne.symm same]

theorem not_mem_of_mem_split {separator : Char} {text piece : Str}
    (member : piece ∈ split separator text) : separator ∉ piece := by
  induction text generalizing piece with
  | nil =>
    rw [List.mem_singleton.mp member]
    exact List.not_mem_nil
  | cons c text induction =>
    rw [split, List.splitOn_cons_eq_if_modifyHead] at member
    split_ifs at member with same
    · rcases List.mem_cons.mp member with rfl | later
      · exact List.not_mem_nil
      · exact induction later
    · obtain ⟨first, rest, pieces⟩ : ∃ first rest, split separator text = first :: rest :=
        List.exists_cons_of_ne_nil (List.splitOn_ne_nil separator text)
      have apart : separator ≠ c := fun equal => same (by simp [equal])
      rw [← split, pieces, List.modifyHead_cons] at member
      rcases List.mem_cons.mp member with rfl | later
      · exact List.not_mem_cons_of_ne_of_not_mem apart (induction (pieces ▸ List.mem_cons_self))
      · exact induction (pieces ▸ List.mem_cons_of_mem _ later)

/-- What the name and the value of a pair are free of. -/
structure Spellable (pair : Str × Str) : Prop where
  name : '=' ∉ pair.1 ∧ '&' ∉ pair.1
  value : '&' ∉ pair.2

theorem spellable_queryPairs (query : Str) : ∀ pair ∈ queryPairs query, Spellable pair := by
  intro pair member
  obtain ⟨piece, listed, rfl⟩ := List.mem_map.mp member
  have free : '&' ∉ piece := not_mem_of_mem_split (List.mem_filter.mp listed).1
  cases found : splitOnce '=' piece with
  | none => exact ⟨⟨splitOnce_eq_none.mp found, free⟩, List.not_mem_nil⟩
  | some parts =>
    have whole := eq_append_of_splitOnce found
    rw [whole, List.mem_append, List.mem_cons, not_or, not_or] at free
    exact ⟨⟨not_mem_of_splitOnce found, free.1⟩, free.2.2⟩

theorem joinPair_eq_nil {pair : Str × Str} : joinPair pair = [] ↔ pair = ([], []) := by
  unfold joinPair
  split_ifs with empty
  · rw [List.isEmpty_iff] at empty
    rw [Prod.ext_iff]
    exact ⟨fun name => ⟨name, empty⟩, And.left⟩
  · rw [List.isEmpty_iff] at empty
    constructor
    · intro nothing
      simp at nothing
    · rintro rfl
      exact absurd rfl empty

/-- A spelled pair is read as it is. -/
theorem splitOnce_joinPair {pair : Str × Str} (spellable : Spellable pair) :
    (splitOnce '=' (joinPair pair)).getD (joinPair pair, []) = pair := by
  unfold joinPair
  split_ifs with empty
  · rw [splitOnce_eq_none.mpr spellable.name.1, Option.getD_none]
    exact Prod.ext rfl (List.isEmpty_iff.mp empty).symm
  · rw [splitOnce_append spellable.name.1, Option.getD_some]

variable {pairs : List (Str × Str)} {map : Dict Str Str}

/-- Joined pairs are read back, except for the pair without name and value. -/
theorem queryPairs_join (spellable : ∀ pair ∈ pairs, Spellable pair) :
    queryPairs (['&'].intercalate (pairs.map joinPair)) =
      pairs.filter fun pair => pair ≠ ([], []) := by
  have pieces : (split '&' (['&'].intercalate (pairs.map joinPair))).filter
        (fun piece => !piece.isEmpty) =
      (pairs.map joinPair).filter fun piece => !piece.isEmpty := by
    cases pairs with
    | nil => rfl
    | cons pair pairs =>
      rw [split, List.splitOn_intercalate]
      · intro piece member
        obtain ⟨other, listed, rfl⟩ := List.mem_map.mp member
        have free := spellable other listed
        unfold joinPair
        split_ifs
        · exact free.name.2
        · simp [free.name.2, free.value]
      · exact List.cons_ne_nil _ _
  have kept : ∀ pair : Str × Str, (!(joinPair pair).isEmpty) = decide (pair ≠ ([], [])) := by
    intro pair
    rw [Bool.eq_iff_iff]
    simp [joinPair_eq_nil]
  rw [queryPairs, pieces, List.filter_map, List.map_map]
  simp only [Function.comp_def, kept]
  rw [List.map_congr_left fun pair member =>
    splitOnce_joinPair (spellable pair (List.mem_filter.mp member).1)]
  exact List.map_id _

/-! ## The map in between -/

theorem entries_insert_of_new {name : Str} (new : name ∉ map.keys) (value : Str) :
    (map.insert name value).entries = map.entries ++ [(name, value)] := by
  have kept : map.entries.filter (fun entry => entry.1 ≠ name) = map.entries := by
    refine List.filter_eq_self.mpr fun entry member => ?_
    have other : entry.1 ≠ name := fun same => new (same ▸ List.mem_map_of_mem member)
    simpa using other
  exact congrArg (· ++ [(name, value)]) kept

/-- If no name is repeated, the map has the pairs. -/
theorem entries_foldl_insert (distinct : (map.keys ++ pairs.map Prod.fst).Nodup) :
    (pairs.foldl (fun map pair => map.insert pair.1 pair.2) map).entries =
      map.entries ++ pairs := by
  induction pairs generalizing map with
  | nil => simp
  | cons pair pairs induction =>
    have new : pair.1 ∉ map.keys := fun old =>
      (List.nodup_append.mp distinct).2.2 pair.1 old pair.1 (by simp) rfl
    have entries := entries_insert_of_new new pair.2
    have keys : (map.insert pair.1 pair.2).keys = map.keys ++ [pair.1] := by
      rw [Dict.keys, entries, List.map_append]
      rfl
    rw [List.foldl_cons, induction, entries, List.append_assoc]
    · rfl
    · rw [keys, List.append_assoc]
      exact distinct

theorem mem_entries_foldl_insert {entry : Str × Str}
    (member : entry ∈ (pairs.foldl (fun map pair => map.insert pair.1 pair.2) map).entries) :
    entry ∈ map.entries ∨ entry ∈ pairs := by
  induction pairs generalizing map with
  | nil => exact .inl member
  | cons pair pairs induction =>
    rcases induction member with old | later
    · rcases List.mem_append.mp old with kept | new
      · exact .inl (List.mem_filter.mp kept).1
      · exact .inr (List.mem_cons.mpr (.inl (List.mem_singleton.mp new)))
    · exact .inr (List.mem_cons_of_mem _ later)

theorem spellable_queryMap (query : Str) :
    ∀ entry ∈ (queryMap query).entries, Spellable entry := fun entry member =>
  spellable_queryPairs query entry ((mem_entries_foldl_insert member).resolve_left nofun)

/-- What is shipped for a target without anything to redact. -/
theorem httpReqQuery_eq {R : Redactor} {path query : Str} (noQuery : '?' ∉ path)
    (nothing : redactUrl R (path ++ '?' :: query) = path ++ '?' :: query) :
    httpReqQuery R (path ++ '?' :: query) =
      ['&'].intercalate (((queryMap query).entries.insertionSort pairLe).map joinPair) := by
  have base : splitUriQuery path = (path, []) := by
    rw [splitUriQuery, splitOnce_eq_none.mpr noQuery]
    rfl
  unfold httpReqQuery
  rw [nothing, splitQuery, splitOnce_append noQuery]
  simp only [base, queryString]
  rfl

/-- The pairs that are shipped, in some order. -/
theorem perm_queryPairs_httpReqQuery {R : Redactor} {path query : Str} (noQuery : '?' ∉ path)
    (nothing : redactUrl R (path ++ '?' :: query) = path ++ '?' :: query) :
    (queryPairs (httpReqQuery R (path ++ '?' :: query))).Perm
      ((queryMap query).entries.filter fun pair => pair ≠ ([], [])) := by
  have sorted := List.perm_insertionSort pairLe (queryMap query).entries
  rw [httpReqQuery_eq noQuery nothing, queryPairs_join]
  · exact sorted.filter _
  · exact fun pair member => spellable_queryMap query pair (sorted.mem_iff.mp member)

/-- Every pair is shipped as often as the target has it just if no name is repeated and no pair
lacks both its name and its value. -/
theorem pairs_shipped_iff (R : Redactor) {path query : Str} (noQuery : '?' ∉ path)
    (nothing : redactUrl R (path ++ '?' :: query) = path ++ '?' :: query) :
    (∀ pair, (queryPairs (httpReqQuery R (path ++ '?' :: query))).count pair =
        (queryPairs query).count pair) ↔
      ((queryPairs query).map Prod.fst).Nodup ∧ ([], []) ∉ queryPairs query := by
  rw [← List.perm_iff_count]
  have shipped := perm_queryPairs_httpReqQuery noQuery nothing
  constructor
  · intro same
    have pairs := shipped.symm.trans same
    constructor
    · refine (pairs.map Prod.fst).nodup_iff.mp ?_
      exact (queryMap query).nodup.sublist (List.filter_sublist.map Prod.fst)
    · intro member
      simpa using (List.mem_filter.mp (pairs.mem_iff.mpr member)).2
  · rintro ⟨distinct, named⟩
    have entries : (queryMap query).entries = queryPairs query := entries_foldl_insert distinct
    have all : (queryPairs query).filter (fun pair => pair ≠ ([], [])) = queryPairs query := by
      refine List.filter_eq_self.mpr fun pair member => ?_
      have other : pair ≠ ([], []) := fun empty => named (empty ▸ member)
      simpa using other
    rwa [entries, all] at shipped

theorem pairs_shipped_of_distinct :
    (queryPairs (httpReqQuery asciiRedactor (str "/a?b=2&a=1&c"))).count (str "a", str "1") =
      (queryPairs (str "b=2&a=1&c")).count (str "a", str "1") :=
  (@pairs_shipped_iff asciiRedactor (str "/a") (str "b=2&a=1&c") (by decide)
    (by decide +kernel)).mpr (by decide +kernel) (str "a", str "1")

/-- A repeated name is shipped with its last value only. -/
theorem pairs_lost_by_repeating :
    redactUrl asciiRedactor (str "/a?x=1&x=2") = str "/a?x=1&x=2" ∧
      queryPairs (str "x=1&x=2") = [(str "x", str "1"), (str "x", str "2")] ∧
      httpReqQuery asciiRedactor (str "/a?x=1&x=2") = str "x=2" ∧
      (queryPairs (httpReqQuery asciiRedactor (str "/a?x=1&x=2"))).count (str "x", str "1") = 0 := by
  decide +kernel

end ApiSensor
