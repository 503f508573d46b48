import ApiSensor.Redaction.Marks

/-!
# Fields of queries and forms

What the pattern `form_kv` reads: at the start of a text and behind some signs a name, an equals
sign and a value, as long as it goes.
-/

namespace ApiSensor

open Library Pattern

variable {σ : Type} [Symbol σ]

/-- A name as the scanner knows it. -/
def ScannedName (name : List σ) : Prop :=
  (∀ s ∈ name, fieldName (Symbol.char s) = true) ∧ 1 ≤ name.length ∧ name.length ≤ 100

/-- A place where a field can begin, and the sign in front of it. -/
def Opening (prev : Option Char) (lead : List σ) : Prop :=
  (lead = [] ∧ prev = none) ∨ ∃ s, lead = [s] ∧ fieldStart (Symbol.char s) = true

/-- A field at a place: a sign, a name, an equals sign and a value that goes as far as it can. -/
structure FieldAt (prev : Option Char) (text lead name : List σ) (equals : σ)
    (value rest : List σ) : Prop where
  split : text = lead ++ (name ++ equals :: (value ++ rest))
  opening : Opening prev lead
  name : ScannedName name
  equals : Symbol.char equals = '='
  value : ∀ s ∈ value, fieldValue (Symbol.char s) = true
  ends : ∀ s ∈ rest.head?, fieldValue (Symbol.char s) = false

/-- If one element of a list contributes, it is the first to do so. -/
theorem head?_flatMap_of_unique {α β : Type} {items : List α} {item : α} {f : α → List β}
    (member : item ∈ items) (others : ∀ other ∈ items, other ≠ item → f other = []) :
    (items.flatMap f).head? = (f item).head? := by
  induction items with
  | nil => cases member
  | cons first rest induction =>
    obtain ⟨here, later⟩ := List.forall_mem_cons.mp others
    by_cases same : first = item
    · subst same
      rw [List.flatMap_cons, List.head?_append]
      cases value : (f first).head? with
      | some found => rfl
      | none =>
        by_cases again : first ∈ rest
        · rw [induction again later, value]
          rfl
        · have none_ : rest.flatMap f = [] := by
            refine List.flatMap_eq_nil_iff.mpr fun other listed => later other listed ?_
            rintro rfl
            exact again listed
          rw [none_]
          rfl
    · rw [List.flatMap_cons, here same, List.nil_append]
      exact induction ((List.mem_cons.mp member).resolve_left (Ne.symm same)) later

section Scanner

variable {prev : Option Char}

/-- The part of the pattern behind the sign. -/
def nameAndValue : Regex Char :=
  cat [.group 2 (between 1 100 fieldName), lit "=", .group 3 (Pattern.star fieldValue)]

theorem run_equals (prev : Option Char) (text : List σ) :
    Regex.run Symbol.char (lit "=") prev text =
      match text with
      | [] => []
      | s :: rest => if Symbol.char s == '=' then [⟨[s], [], rest⟩] else [] := by
  cases text <;> rfl

theorem run_group_class (index least : Nat) (most : Option Nat) (test : Char → Bool)
    (prev : Option Char) (text : List σ) :
    Regex.run Symbol.char (.group index (.rep true least most (.one test))) prev text =
      (Regex.counts least (Regex.span Symbol.char test most text)).map fun count =>
        ⟨text.take count, [(index, text.take count)], text.drop count⟩ := by
  rw [Regex.run, Regex.run_rep_one, List.map_map]
  rfl

theorem takeWhile_append_of_stops {α : Type} {test : α → Bool} {first rest : List α}
    (all : ∀ item ∈ first, test item = true) (stops : ∀ item ∈ rest.head?, test item = false) :
    (first ++ rest).takeWhile test = first := by
  rw [List.takeWhile_append_of_pos all]
  cases rest with
  | nil => exact List.append_nil first
  | cons item rest =>
    rw [List.takeWhile_cons_of_neg (by simpa using stops item rfl), List.append_nil]

variable {rest value text : List σ}

section

variable (index : Nat) (prev : Option Char)

/-- The value as far as it goes. -/
theorem head?_run_value (all : ∀ s ∈ value, fieldValue (Symbol.char s) = true)
    (ends : ∀ s ∈ rest.head?, fieldValue (Symbol.char s) = false) :
    (Regex.run Symbol.char (.group index (Pattern.star fieldValue)) prev (value ++ rest)).head? =
      some ⟨value, [(index, value)], rest⟩ := by
  have length : Regex.span Symbol.char fieldValue none (value ++ rest) = value.length := by
    have taken : (value ++ rest).takeWhile (fieldValue ∘ Symbol.char) = value :=
      takeWhile_append_of_stops all ends
    unfold Regex.span
    rw [Option.elim_none, taken]
  rw [Pattern.star, run_group_class, length, List.head?_map, Regex.head?_counts (Nat.zero_le _),
    Option.map_some, List.take_left, List.drop_left]

theorem head?_run_nameAndValue {name : List σ} {equals : σ} (named : ScannedName name)
    (sign : Symbol.char equals = '=') (all : ∀ s ∈ value, fieldValue (Symbol.char s) = true)
    (ends : ∀ s ∈ rest.head?, fieldValue (Symbol.char s) = false) :
    (Regex.run Symbol.char nameAndValue prev (name ++ equals :: (value ++ rest))).head? =
      some ⟨name ++ equals :: value, [(2, name), (3, value)], rest⟩ := by
  have noName : fieldName (Symbol.char equals) = false := by
    rw [sign]
    decide
  have length : Regex.span Symbol.char fieldName (some 100) (name ++ equals :: (value ++ rest)) =
      name.length := by
    have taken : (name ++ equals :: (value ++ rest)).takeWhile (fieldName ∘ Symbol.char) = name :=
      takeWhile_append_of_stops named.1 (by simpa using noName)
    unfold Regex.span
    rw [Option.elim_some, taken]
    exact min_eq_left named.2.2
  have unfolded : nameAndValue = .seq (.group 2 (.rep true 1 (some 100) (.one fieldName)))
      (.seq (lit "=") (.group 3 (Pattern.star fieldValue))) := rfl
  rw [unfolded, Regex.run, run_group_class, length, List.flatMap_map]
  -- a shorter name is not followed by the equals sign
  rw [head?_flatMap_of_unique (Regex.mem_counts.mpr ⟨named.2.1, le_refl name.length⟩)]
  · rw [List.take_left, List.drop_left, Regex.run, run_equals]
    simp only [sign, beq_self_eq_true, if_true, List.flatMap_cons, List.flatMap_nil,
      List.append_nil, List.head?_map, head?_run_value _ _ all ends, Option.map_some]
    rfl
  · intro count listed other
    have shorter : count < name.length :=
      lt_of_le_of_ne (Regex.mem_counts.mp listed).2 other
    obtain ⟨s, behind, dropped⟩ := List.exists_cons_of_ne_nil
      (List.ne_nil_of_length_pos (by rw [List.length_drop]; omega : 0 < (name.drop count).length))
    have letter : fieldName (Symbol.char s) = true :=
      named.1 s (List.mem_of_mem_drop (dropped ▸ List.mem_cons_self))
    have noSign : (Symbol.char s == '=') = false := by
      refine Bool.eq_false_iff.mpr fun same => ?_
      rw [eq_of_beq same] at letter
      exact absurd letter (by decide)
    rw [List.drop_append_of_le_length shorter.le, dropped, List.cons_append, Regex.run, run_equals]
    simp [noSign]

theorem run_nameAndValue_eq_nil
    (missing : ∀ name equals more, text = name ++ equals :: more → ScannedName name →
      Symbol.char equals ≠ '=') : Regex.run Symbol.char nameAndValue prev text = [] := by
  have unfolded : nameAndValue = .seq (.group 2 (.rep true 1 (some 100) (.one fieldName)))
      (.seq (lit "=") (.group 3 (Pattern.star fieldValue))) := rfl
  rw [unfolded, Regex.run, run_group_class]
  refine List.flatMap_eq_nil_iff.mpr fun found member => ?_
  obtain ⟨count, listed, rfl⟩ := List.mem_map.mp member
  obtain ⟨least, most⟩ := Regex.mem_counts.mp listed
  have within : count ≤ (text.takeWhile (fieldName ∘ Symbol.char)).length ∧ count ≤ 100 := by
    unfold Regex.span at most
    exact le_min_iff.mp most
  have named : ScannedName (text.take count) := by
    have inside : text.take count <+: text.takeWhile (fieldName ∘ Symbol.char) :=
      List.prefix_of_prefix_length_le (List.take_prefix _ _) (List.takeWhile_prefix _)
        ((List.length_take_le _ _).trans within.1)
    have long : count ≤ text.length :=
      within.1.trans (List.takeWhile_prefix _).length_le
    have length : (text.take count).length = count := List.length_take_of_le long
    have letters : ∀ s ∈ text.takeWhile (fieldName ∘ Symbol.char),
        (fieldName ∘ Symbol.char) s = true := fun s => List.mem_takeWhile_imp
    exact ⟨fun s member => letters s (inside.subset member), by omega, by omega⟩
  rw [Regex.run, run_equals, List.map_eq_nil_iff]
  cases behind : text.drop count with
  | nil => rfl
  | cons equals more =>
    have noSign : (Symbol.char equals == '=') = false := by
      refine beq_eq_false_iff_ne.mpr (missing (text.take count) equals more ?_ named)
      rw [← behind, List.take_append_drop]
    simp [noSign]

theorem whitespace_of_alphanum {c : Char} (letter : c.isAlphanum = true) :
    isWhitespace c = false :=
  spaceless_generated (by simp [generated, tokenChar, letter])

/-- A sign that a field begins behind is in no name. -/
theorem fieldName_of_fieldStart {c : Char} (opens : fieldStart c = true) :
    fieldName c = false := by
  refine Bool.eq_false_iff.mpr fun named => ?_
  simp only [fieldName, Bool.or_eq_true] at named
  simp only [fieldStart, Bool.or_eq_true] at opens
  rcases named with letter | sign
  · rcases opens with set | space
    · have inside := List.contains_iff_mem.mp set
      have table : ∀ c ∈ "?&;".toList, c.isAlphanum = false := by decide
      exact absurd ((table c inside).symm.trans letter) Bool.false_ne_true
    · exact absurd ((whitespace_of_alphanum letter).symm.trans space) Bool.false_ne_true
  · have inside := List.contains_iff_mem.mp sign
    have table : ∀ c ∈ "_.-[]%".toList, fieldStart c = false := by decide
    exact absurd ((table c inside).symm.trans (by simpa [fieldStart] using opens))
      Bool.false_ne_true

/-- A field does not begin with such a sign. -/
theorem run_nameAndValue_cons {s : σ} (opens : fieldStart (Symbol.char s) = true) :
    Regex.run Symbol.char nameAndValue prev (s :: rest) = [] := by
  refine run_nameAndValue_eq_nil prev fun name equals more split named => ?_
  cases name with
  | nil => exact absurd named.2.1 (by simp)
  | cons first name =>
    rw [List.cons_append, List.cons.injEq] at split
    have letter := named.1 first List.mem_cons_self
    rw [← split.1, fieldName_of_fieldStart opens] at letter
    cases letter

/-- The matches of the whole pattern: those behind the start of the text, then those behind a
sign. -/
theorem run_formKv (text : List σ) :
    Regex.run Symbol.char formKv prev text =
      (if prev.isNone then
        (Regex.run Symbol.char nameAndValue none text).map
          (Found.andThen ⟨[], [(1, [])], text⟩) else []) ++
      (match text with
        | [] => []
        | s :: rest =>
          if fieldStart (Symbol.char s) then
            (Regex.run Symbol.char nameAndValue (some (Symbol.char s)) rest).map
              (Found.andThen ⟨[s], [(1, [s])], rest⟩)
          else []) := by
  have unfolded : formKv =
      .seq (.group 1 (.alt Pattern.start (.one fieldStart))) nameAndValue := rfl
  rw [unfolded, Regex.run, Regex.run, Regex.run, List.map_append, List.flatMap_append]
  congr 1
  · cases prev <;> simp [Pattern.start, Regex.run, Found.nothing, Regex.before]
  · cases text with
    | nil => rfl
    | cons s rest =>
      rw [Regex.run]
      dsimp only
      split_ifs
      · simp [Regex.before]
      · rfl

end

/-- What the pattern finds where there is a field. -/
theorem first_formKv_eq_some {lead name : List σ} {equals : σ}
    (field : FieldAt prev text lead name equals value rest) :
    Regex.first Symbol.char formKv prev text =
      some ⟨lead ++ (name ++ equals :: value), [(1, lead), (2, name), (3, value)], rest⟩ := by
  obtain ⟨rfl, opening, named, sign, all, ends⟩ := field
  have found : (Regex.run Symbol.char formKv prev
      (lead ++ (name ++ equals :: (value ++ rest)))).head? =
      some ⟨lead ++ (name ++ equals :: value), [(1, lead), (2, name), (3, value)], rest⟩ := by
    rw [run_formKv, List.head?_append]
    rcases opening with ⟨rfl, rfl⟩ | ⟨s, rfl, opens⟩
    · rw [List.nil_append, Option.isNone_none, if_pos rfl, List.head?_map,
        head?_run_nameAndValue none named sign all ends]
      rfl
    · rw [List.singleton_append, run_nameAndValue_cons none opens]
      dsimp only
      rw [if_pos opens, List.head?_map, head?_run_nameAndValue _ named sign all ends]
      simp [Found.andThen]
  unfold Regex.first
  rw [found]
  refine Option.filter_eq_some_iff.mpr ⟨rfl, ?_⟩
  simp

/-- If something is found, it is a field. -/
theorem exists_fieldAt {found : Found σ}
    (here : Regex.first Symbol.char formKv prev text = some found) :
    ∃ lead name equals value, FieldAt prev text lead name equals value found.rest ∧
      found = ⟨lead ++ (name ++ equals :: value), [(1, lead), (2, name), (3, value)], found.rest⟩ := by
  -- it is enough that there is a field, since then it is what is found
  suffices exists_ : ∃ lead name equals value rest, FieldAt prev text lead name equals value rest by
    obtain ⟨lead, name, equals, value, rest, field⟩ := exists_
    have same := Option.some.inj (here.symm.trans (first_formKv_eq_some field))
    subst same
    exact ⟨lead, name, equals, value, field, rfl⟩
  by_contra none_
  have missing : ∀ lead, Opening prev lead → ∀ behind, text = lead ++ behind →
      ∀ prev', Regex.run Symbol.char nameAndValue prev' behind = [] := by
    intro lead opening behind split prev'
    refine run_nameAndValue_eq_nil prev' fun name equals more split' named sign => none_ ?_
    refine ⟨lead, name, equals, more.takeWhile (fieldValue ∘ Symbol.char),
      more.dropWhile (fieldValue ∘ Symbol.char), ?_, opening, named, sign, ?_, ?_⟩
    · rw [List.takeWhile_append_dropWhile, ← split', split]
    · exact fun s => List.mem_takeWhile_imp
    · intro s member
      have stops := List.head?_dropWhile_not (fieldValue ∘ Symbol.char) more
      rw [Option.mem_def.mp member] at stops
      simpa using stops
  have nothing : Regex.run Symbol.char formKv prev text = [] := by
    rw [run_formKv]
    refine List.append_eq_nil_iff.mpr ⟨?_, ?_⟩
    · split_ifs with start
      · rw [missing [] (.inl ⟨rfl, Option.isNone_iff_eq_none.mp start⟩) text rfl]
        rfl
      · rfl
    · cases text with
      | nil => rfl
      | cons s rest =>
        dsimp only
        split_ifs with opens
        · rw [missing [s] (.inr ⟨s, rfl, opens⟩) rest rfl]
          rfl
        · rfl
  rw [Regex.first, nothing] at here
  cases here

end Scanner

theorem fieldValue_of_tokenChar {c : Char} (token : tokenChar c = true) : fieldValue c = true := by
  have space : isWhitespace c = false := spaceless_generated (by simp [generated, token])
  have other : oneOf "&;\"'<>" c = false := by
    refine Bool.eq_false_iff.mpr fun set => ?_
    have table : ∀ c ∈ "&;\"'<>".toList, tokenChar c = false := by decide
    exact absurd ((table c (List.contains_iff_mem.mp set)).symm.trans token) Bool.false_ne_true
  simp [fieldValue, space, other]

end ApiSensor
