import ApiSensor.Decoding.Ambiguity
import ApiSensor.Decoding.RoundTrip
import ApiSensor.Redaction

/-!
# Authorization fields

`parse_headers` combines the values of a repeated field with commas, and `redact_header_value` keeps
the first word of what it is given as the scheme.  Behind a bare credential the comma makes that
word out of the credential.
-/

namespace ApiSensor

/-! ## Fields that carry credentials -/

/-- There is something besides white space and the markers, which redaction strips. -/
def Visible (text : Str) : Prop :=
  ∃ c ∈ text, isWhitespace c = false ∧ c ≠ markOpen ∧ c ≠ markClose

instance (text : Str) : Decidable (Visible text) := inferInstanceAs (Decidable (∃ c ∈ text, _))

/-- What an authorization field carries. -/
inductive Authorization where
  | bare (credential : Str)
  | scheme (word gap credential : Str)
  deriving DecidableEq

namespace Authorization

def value : Authorization → Str
  | bare credential => credential
  | scheme word gap credential => word ++ (gap ++ credential)

/-- Words have no white space, and no part of a field goes over the end of its line. -/
def WellFormed : Authorization → Prop
  | bare credential => Visible credential ∧ ∀ c ∈ credential, isWhitespace c = false
  | scheme word gap credential =>
    (Visible word ∧ ∀ c ∈ word, isWhitespace c = false) ∧
      (gap ≠ [] ∧ ∀ c ∈ gap, isWhitespace c = true ∧ c ≠ '\n') ∧
      Visible credential ∧ '\n' ∉ credential

instance (entry : Authorization) : Decidable entry.WellFormed :=
  match entry with
  | bare credential =>
    inferInstanceAs (Decidable (Visible credential ∧ ∀ c ∈ credential, isWhitespace c = false))
  | scheme word gap credential =>
    inferInstanceAs (Decidable ((Visible word ∧ ∀ c ∈ word, isWhitespace c = false) ∧
      (gap ≠ [] ∧ ∀ c ∈ gap, isWhitespace c = true ∧ c ≠ '\n') ∧
      Visible credential ∧ '\n' ∉ credential))

/-- Nothing differs but the credential and the space in front of it. -/
def SameKind : Authorization → Authorization → Prop
  | bare _, bare _ => True
  | scheme word _ _, scheme word' _ _ => word = word'
  | _, _ => False

def isScheme : Authorization → Bool
  | bare _ => false
  | scheme .. => true

end Authorization

/-- The values that a header block has for a field. -/
structure AuthorizationLines (P : Platform) (key : Str) (lines : List Str)
    (entries : List Authorization) : Prop where
  values : (fieldValues P key lines).map trim = entries.map Authorization.value
  wellFormed : ∀ entry ∈ entries, entry.WellFormed

/-- The value of a field in an event: `parse_headers`, then `redact_header_value`. -/
def eventHeader (P : Platform) (R : Redactor) (key : Str) (lines : List Str) : Option Str :=
  ((parseHeaders P lines).get? key).map (redactHeaderValue R key)

/-- A redactor whose hash says nothing about the text. -/
def Redactor.blind (R : Redactor) (hash : UInt64 × UInt64) : Redactor :=
  { R with mac := fun _ => hash }

/-- Without the hash, the value in the event is the same whatever the credentials are. -/
def HashedOnly (P : Platform) (R : Redactor) (key : Str) (lines : List Str)
    (entries : List Authorization) : Prop :=
  ∀ hash others entries', AuthorizationLines P key others entries' →
    List.Forall₂ Authorization.SameKind entries entries' →
    eventHeader P (R.blind hash) key others = eventHeader P (R.blind hash) key lines

/-! ## White space and markers -/

theorem newline_of_visible {text : Str} (words : ∀ c ∈ text, isWhitespace c = false) :
    '\n' ∉ text := fun member => absurd (words _ member) (by decide)

theorem visible_append_left {text : Str} (visible : Visible text) (rest : Str) :
    Visible (text ++ rest) :=
  visible.imp fun _ ⟨member, seen⟩ => ⟨List.mem_append_left _ member, seen⟩

theorem visible_append_right {text : Str} (visible : Visible text) (front : Str) :
    Visible (front ++ text) :=
  visible.imp fun _ ⟨member, seen⟩ => ⟨List.mem_append_right _ member, seen⟩

namespace Authorization

variable {entry : Authorization}

theorem WellFormed.visible (wellFormed : entry.WellFormed) : Visible entry.value := by
  cases entry with
  | bare credential => exact wellFormed.1
  | scheme word gap credential => exact visible_append_left wellFormed.1.1 _

theorem WellFormed.newline (wellFormed : entry.WellFormed) : '\n' ∉ entry.value := by
  cases entry with
  | bare credential => exact newline_of_visible wellFormed.2
  | scheme word gap credential =>
    obtain ⟨⟨-, words⟩, ⟨-, blank⟩, -, line⟩ := wellFormed
    simp only [value, List.mem_append, not_or]
    exact ⟨newline_of_visible words, fun member => (blank _ member).2 rfl, line⟩

theorem SameKind.refl (entry : Authorization) : entry.SameKind entry := by
  cases entry with
  | bare credential => trivial
  | scheme word gap credential => rfl

end Authorization

theorem mem_stripMarkers {text : Str} {c : Char} :
    c ∈ stripMarkers text ↔ c ∈ text ∧ c ≠ markOpen ∧ c ≠ markClose := by
  simp [stripMarkers, Symbol.char]

theorem stripMarkers_idem (text : Str) : stripMarkers (stripMarkers text) = stripMarkers text := by
  simp [stripMarkers, List.filter_filter]

theorem trim_trim (text : Str) : trim (trim text) = trim text := by
  obtain ⟨before, after, whole, begins, ends⟩ := exists_eq_strip isWhitespace text
  rw [← trim] at whole
  conv_rhs => rw [whole, trim_around (trim text) begins ends]

/-- A text with something visible in it keeps it when it is trimmed. -/
theorem trim_ne_nil {text : Str} {c : Char} (member : c ∈ text) (seen : isWhitespace c = false) :
    trim text ≠ [] := by
  intro empty
  obtain ⟨before, after, whole, begins, ends⟩ := exists_eq_strip isWhitespace text
  rw [← trim, empty, List.append_nil] at whole
  rw [whole, List.mem_append] at member
  cases member with
  | inl first => exact absurd (begins c first) (by simp [seen])
  | inr last => exact absurd (ends c last) (by simp [seen])

/-- Trimming takes nothing from a word and the space behind it. -/
theorem trim_word {word rest : Str} {space : Char} (words : ∀ c ∈ word, isWhitespace c = false)
    (nonempty : word ≠ []) {c : Char} (member : c ∈ rest) (seen : isWhitespace c = false) :
    ∃ rest', trim (word ++ space :: rest) = word ++ space :: rest' ∧ c ∈ rest' := by
  obtain ⟨before, after, whole, begins, ends⟩ :=
    exists_eq_strip isWhitespace (word ++ space :: rest)
  rw [← trim] at whole
  have first : before = [] := by
    cases before with
    | nil => rfl
    | cons b before =>
      obtain ⟨w, word, rfl⟩ := List.exists_cons_of_ne_nil nonempty
      have same : w = b := (List.cons.inj whole).1
      exact absurd (begins b List.mem_cons_self) (by simp [← same, words w List.mem_cons_self])
  subst first
  rw [List.nil_append, ← List.singleton_append, ← List.append_assoc] at whole
  have later : c ∉ after := fun last => absurd (ends c last) (by simp [seen])
  rcases List.append_eq_append_iff.mp whole with ⟨rest', trimmed, split⟩ | ⟨middle, -, split⟩
  · rw [split, List.mem_append] at member
    have kept : trim (word ++ space :: rest) = word ++ space :: rest' := by
      simpa using trimmed
    exact ⟨rest', kept, member.resolve_right later⟩
  · exact absurd (split ▸ List.mem_append_right middle member) later

theorem splitOnceAt_append {word : Str} {space : Char} (blank : isWhitespace space = true)
    (words : ∀ c ∈ word, isWhitespace c = false) (rest : Str) :
    splitOnceAt isWhitespace (word ++ space :: rest) = some (word, rest) := by
  induction word with
  | nil => simp [splitOnceAt, Symbol.char, blank]
  | cons c word induction =>
    rw [List.forall_mem_cons] at words
    simp [splitOnceAt, Symbol.char, words.1, induction words.2]

theorem splitOnceAt_none {word : Str} (words : ∀ c ∈ word, isWhitespace c = false) :
    splitOnceAt isWhitespace word = none := by
  induction word with
  | nil => rfl
  | cons c word induction =>
    rw [List.forall_mem_cons] at words
    simp [splitOnceAt, Symbol.char, words.1, induction words.2]

/-! ## One value -/

section Values

variable {R : Redactor} {key : Str}

/-- The fields whose values are read as a scheme and a credential. -/
def authorizationKeys : List Str := [str "authorization", str "proxy-authorization"]

theorem redactHeaderValue_line {name value : Str} (line : '\n' ∉ value) :
    redactHeaderValue R name value =
      stripMarkers (redactHeaderLine R (toAsciiLowercase name) (stripMarkers value)) := by
  have single : splitText '\n' (stripMarkers value) = [stripMarkers value] := by
    refine List.splitOnP_eq_singleton fun c member => ?_
    have different : c ≠ '\n' := by
      rintro rfl
      exact line (mem_stripMarkers.mp member).1
    simpa [Symbol.char] using different
  simp [redactHeaderValue, single, joinText, List.intercalate]

section

variable (named : key ∈ authorizationKeys)
include named

theorem toAsciiLowercase_authorization :
    toAsciiLowercase key = key := by
  revert key
  decide

theorem isAuthorization :
    (decide (key = str "authorization") || decide (key = str "proxy-authorization")) = true := by
  revert key
  decide

theorem separator_authorization : separator key = str ", " := by
  revert key
  decide

/-- The first word is kept, and the rest is hashed. -/
theorem redactHeaderLine_word {word rest : Str} {space : Char}
    (words : ∀ c ∈ word, isWhitespace c = false) (nonempty : word ≠ [])
    (blank : isWhitespace space = true) {c : Char} (member : c ∈ rest)
    (seen : isWhitespace c = false) :
    ∃ credential, redactHeaderLine R key (word ++ space :: rest) =
      word ++ minted (str " ") ++ secretToken R credential := by
  obtain ⟨rest', trimmed, inside⟩ := @trim_word word rest space words nonempty c member seen
  change trimMatches isWhitespace (word ++ space :: rest) = _ at trimmed
  have credential : trimMatches isWhitespace rest' ≠ [] := trim_ne_nil inside seen
  refine ⟨chars (trimMatches isWhitespace rest'), ?_⟩
  unfold redactHeaderLine
  simp only [trimmed, isAuthorization named, splitOnceAt_append blank words, if_true]
  rw [if_neg (by simp), if_pos (by simpa using credential)]

theorem redactHeaderLine_bare {word : Str} (words : ∀ c ∈ word, isWhitespace c = false)
    (nonempty : word ≠ []) :
    redactHeaderLine R key word = secretToken R word := by
  have trimmed : trimMatches isWhitespace word = word := trim_of_forall words
  unfold redactHeaderLine
  simp only [trimmed, isAuthorization named, splitOnceAt_none words, if_true]
  rw [if_neg (by simpa using nonempty)]
  simp [chars, Symbol.char]

theorem redactHeaderValue_word {word rest : Str} {space : Char}
    (words : ∀ c ∈ word, isWhitespace c = false) (begins : Visible word)
    (blank : isWhitespace space = true) (ends : Visible rest) (line : '\n' ∉ word ++ space :: rest) :
    ∃ credential, redactHeaderValue R key (word ++ space :: rest) =
      stripMarkers word ++ (' ' :: stripMarkers (secretToken R credential)) := by
  obtain ⟨first, firstIn, -, firstPlain⟩ := begins
  obtain ⟨later, laterIn, seen, laterPlain⟩ := ends
  have unmarked : space ≠ markOpen ∧ space ≠ markClose := by
    constructor <;> rintro rfl <;> exact absurd blank (by decide)
  have stripped : stripMarkers (word ++ space :: rest) =
      stripMarkers word ++ space :: stripMarkers rest := by
    rw [stripMarkers_append]
    simp [stripMarkers, Symbol.char, unmarked]
  have words' : ∀ c ∈ stripMarkers word, isWhitespace c = false :=
    fun c member => words c (mem_stripMarkers.mp member).1
  obtain ⟨credential, same⟩ := @redactHeaderLine_word R key named _ (stripMarkers rest) space words'
    (List.ne_nil_of_mem (mem_stripMarkers.mpr ⟨firstIn, firstPlain⟩)) blank later
    (mem_stripMarkers.mpr ⟨laterIn, laterPlain⟩) seen
  refine ⟨credential, ?_⟩
  rw [redactHeaderValue_line line, toAsciiLowercase_authorization named, stripped, same,
    stripMarkers_append, stripMarkers_append, stripMarkers_idem]
  simp [minted, str, stripMarkers, Symbol.mint, Symbol.char, markOpen, markClose]

theorem redactHeaderValue_bare {word : Str} (words : ∀ c ∈ word, isWhitespace c = false)
    (begins : Visible word) :
    redactHeaderValue R key word = stripMarkers (secretToken R (stripMarkers word)) := by
  obtain ⟨first, firstIn, -, firstPlain⟩ := begins
  have nonempty : stripMarkers word ≠ [] :=
    List.ne_nil_of_mem (mem_stripMarkers.mpr ⟨firstIn, firstPlain⟩)
  rw [redactHeaderValue_line (newline_of_visible words), toAsciiLowercase_authorization named,
    redactHeaderLine_bare named (fun c member => words c (mem_stripMarkers.mp member).1) nonempty]

end

end Values

/-! ## Combined values -/

section Combined

variable {P : Platform} {R : Redactor} {key : Str} {lines : List Str}

/-- What `parse_headers` appends to the first value. -/
def combinedTail (entries : List Authorization) : Str :=
  (entries.map Authorization.value).flatMap (str ", " ++ ·)

theorem newline_combined {entry : Authorization} {entries : List Authorization}
    (wellFormed : ∀ item ∈ entry :: entries, item.WellFormed) :
    '\n' ∉ entry.value ++ combinedTail entries := by
  rw [List.forall_mem_cons] at wellFormed
  simp only [combinedTail, List.mem_append, List.mem_flatMap, List.mem_map, not_or]
  refine ⟨wellFormed.1.newline, ?_⟩
  rintro ⟨_, ⟨item, member, rfl⟩, separator | inside⟩
  · exact absurd separator (by decide)
  · exact (wellFormed.2 item member).newline inside

theorem eventHeader_nil (carried : AuthorizationLines P key lines []) :
    eventHeader P R key lines = none := by
  rw [eventHeader, parseHeaders, get?_parseHeadersInto_lines, carried.values]
  rfl

section

variable (named : key ∈ authorizationKeys)
include named

theorem eventHeader_cons {entry : Authorization} {entries : List Authorization}
    (carried : AuthorizationLines P key lines (entry :: entries)) :
    eventHeader P R key lines =
      some (redactHeaderValue R key (entry.value ++ combinedTail entries)) := by
  have plain : separator key = str ", " := separator_authorization named
  rw [eventHeader, parseHeaders, get?_parseHeadersInto_lines, carried.values]
  simp only [List.map_cons, List.foldl_cons]
  rw [show extendValue key (Library.Dict.empty.get? key) entry.value = some entry.value from rfl,
    foldl_extendValue_some, plain]
  rfl

theorem eventHeader_scheme {word gap credential : Str} {entries : List Authorization}
    (carried : AuthorizationLines P key lines (.scheme word gap credential :: entries)) :
    ∃ hashed, eventHeader P R key lines =
      some (stripMarkers word ++ (' ' :: stripMarkers (secretToken R hashed))) := by
  have line := newline_combined carried.wellFormed
  obtain ⟨⟨begins, words⟩, ⟨nonempty, blank⟩, seen, -⟩ :=
    carried.wellFormed _ List.mem_cons_self
  obtain ⟨space, gap, rfl⟩ := List.exists_cons_of_ne_nil nonempty
  have whole : Authorization.value (.scheme word (space :: gap) credential) ++
      combinedTail entries = word ++ space :: (gap ++ credential ++ combinedTail entries) := by
    simp [Authorization.value]
  rw [eventHeader_cons named carried]
  rw [whole] at line ⊢
  obtain ⟨hashed, same⟩ := @redactHeaderValue_word R key named word _ space words begins
    (blank space List.mem_cons_self).1 (visible_append_left (visible_append_right seen gap) _) line
  exact ⟨hashed, congrArg some same⟩

theorem eventHeader_bare {credential : Str}
    (carried : AuthorizationLines P key lines [.bare credential]) :
    eventHeader P R key lines =
      some (stripMarkers (secretToken R (stripMarkers credential))) := by
  obtain ⟨seen, words⟩ := carried.wellFormed _ List.mem_cons_self
  rw [eventHeader_cons named carried]
  simp only [combinedTail, List.map_nil, List.flatMap_nil, List.append_nil]
  exact congrArg some (redactHeaderValue_bare named words seen)

/-- A bare credential in front of another value is taken for the scheme. -/
theorem eventHeader_leaks {credential : Str} {entry : Authorization} {entries : List Authorization}
    (carried : AuthorizationLines P key lines (.bare credential :: entry :: entries)) :
    ∃ hashed, eventHeader P R key lines =
      some (stripMarkers credential ++ (',' :: ' ' :: stripMarkers (secretToken R hashed))) := by
  have line := newline_combined carried.wellFormed
  obtain ⟨seen, words⟩ := carried.wellFormed _ List.mem_cons_self
  have next := carried.wellFormed entry (by simp)
  have whole : Authorization.value (.bare credential) ++ combinedTail (entry :: entries) =
      (credential ++ [',']) ++ ' ' :: (entry.value ++ combinedTail entries) := by
    simp [Authorization.value, combinedTail, str]
  have words' : ∀ c ∈ credential ++ [','], isWhitespace c = false := by
    rw [List.forall_mem_append]
    exact ⟨words, by decide⟩
  rw [eventHeader_cons named carried]
  rw [whole] at line ⊢
  obtain ⟨hashed, same⟩ := @redactHeaderValue_word R key named _ _ ' ' words'
    (visible_append_left seen _) (by decide) (visible_append_left next.visible _) line
  refine ⟨hashed, congrArg some (same.trans ?_)⟩
  rw [stripMarkers_append, List.append_assoc]
  rfl

end

end Combined

/-! ## Other credentials -/

section Others

variable {P : Platform} {key : Str}

theorem exists_name {lines : List Str} {value : Str} (member : value ∈ fieldValues P key lines) :
    ∃ name, ':' ∉ name ∧ P.toLowercase (trim name) = key := by
  obtain ⟨line, -, found⟩ := List.mem_filterMap.mp member
  unfold valueFor? at found
  obtain ⟨⟨name, rest⟩, cut, kept⟩ := Option.bind_eq_some_iff.mp found
  refine ⟨name, not_mem_of_splitOnce cut, ?_⟩
  by_contra different
  simp [different] at kept

theorem fieldValues_written {name : Str} (free : ':' ∉ name)
    (same : P.toLowercase (trim name) = key) (values : List Str) :
    fieldValues P key (values.map (name ++ ':' :: ·)) = values := by
  induction values with
  | nil => rfl
  | cons value values induction =>
    have found : valueFor? P key (name ++ ':' :: value) = some value := by
      simp [valueFor?, splitOnce_append free, same]
    rw [List.map_cons, fieldValues_cons, if_neg (by simp), found, induction]
    rfl

/-- Another bare credential could stand in the first line. -/
theorem exists_other {lines : List Str} {credential credential' : Str}
    {entries : List Authorization}
    (carried : AuthorizationLines P key lines (.bare credential :: entries))
    (wellFormed : (Authorization.bare credential').WellFormed) :
    ∃ others, AuthorizationLines P key others (.bare credential' :: entries) := by
  have values := carried.values
  cases found : fieldValues P key lines with
  | nil => simp [found] at values
  | cons value rest =>
    rw [found, List.map_cons, List.map_cons, List.cons.injEq] at values
    obtain ⟨name, free, same⟩ := @exists_name P key lines value (found ▸ List.mem_cons_self)
    have trimmed : (rest.map trim).map trim = rest.map trim := by
      simp only [List.map_map]
      exact List.map_congr_left fun text _ => trim_trim text
    refine ⟨((Authorization.bare credential' :: entries).map Authorization.value).map
      (name ++ ':' :: ·), ?_, List.forall_mem_cons.mpr ⟨wellFormed, ?_⟩⟩
    · rw [fieldValues_written free same, List.map_cons, List.map_cons, ← values.2, trimmed]
      exact congrArg (· :: _) (trim_of_forall wellFormed.2)
    · exact fun entry member => carried.wellFormed entry (List.mem_cons_of_mem _ member)

end Others

section Hidden

variable {P : Platform} {R : Redactor} {key : Str} {lines : List Str}

theorem hashedOnly_nil (carried : AuthorizationLines P key lines []) :
    HashedOnly P R key lines [] := by
  rintro hash others _ carried' ⟨⟩
  rw [eventHeader_nil carried, eventHeader_nil carried']

theorem hashedOnly_bare (named : key ∈ authorizationKeys) {credential : Str}
    (carried : AuthorizationLines P key lines [.bare credential]) :
    HashedOnly P R key lines [.bare credential] := by
  rintro hash others _ carried' (⟨⟩ | ⟨kind, ⟨⟩⟩)
  rename_i entry
  cases entry with
  | bare credential' =>
    rw [eventHeader_bare named carried, eventHeader_bare named carried']
    rfl
  | scheme word gap credential' => exact kind.elim

theorem hashedOnly_scheme (named : key ∈ authorizationKeys) {word gap credential : Str}
    {entries : List Authorization}
    (carried : AuthorizationLines P key lines (.scheme word gap credential :: entries)) :
    HashedOnly P R key lines (.scheme word gap credential :: entries) := by
  rintro hash others _ carried' (⟨⟩ | ⟨kind, rest⟩)
  rename_i entry entries'
  cases entry with
  | bare credential' => exact kind.elim
  | scheme word' gap' credential' =>
    cases kind
    obtain ⟨hashed, same⟩ := eventHeader_scheme (R := R.blind hash) named carried
    obtain ⟨hashed', same'⟩ := eventHeader_scheme (R := R.blind hash) named carried'
    rw [same, same']
    rfl

/-- Two credentials that are read as schemes give two values. -/
theorem not_hashedOnly_leaks (named : key ∈ authorizationKeys) {credential : Str}
    {entry : Authorization} {entries : List Authorization}
    (carried : AuthorizationLines P key lines (.bare credential :: entry :: entries)) :
    ¬ HashedOnly P R key lines (.bare credential :: entry :: entries) := by
  intro hidden
  obtain ⟨other, wellFormed, different⟩ : ∃ other : Str,
      (Authorization.bare other).WellFormed ∧ stripMarkers other ≠ stripMarkers credential := by
    by_cases same : stripMarkers credential = str "a"
    · exact ⟨str "b", by decide, same ▸ by decide⟩
    · exact ⟨str "a", by decide, fun equal => same (equal.symm.trans (by decide))⟩
  obtain ⟨others, carried'⟩ := exists_other carried wellFormed
  have alike : List.Forall₂ Authorization.SameKind (.bare credential :: entry :: entries)
      (.bare other :: entry :: entries) :=
    .cons trivial (List.forall₂_same.mpr fun item _ => Authorization.SameKind.refl item)
  obtain ⟨hashed, shown⟩ := eventHeader_leaks (R := R.blind (0, 0)) named carried
  obtain ⟨hashed', shown'⟩ := eventHeader_leaks (R := R.blind (0, 0)) named carried'
  have equal := hidden (0, 0) others _ carried' alike
  rw [shown, shown', Option.some.injEq] at equal
  -- The two values have the same token, as the hash is blind.
  exact different (List.append_cancel_right equal)

end Hidden

/-- The credentials show in the event through their hash only, unless a bare credential is followed
by another line. -/
theorem authorization_hashedOnly_iff (P : Platform) (R : Redactor) {key : Str}
    (named : key ∈ authorizationKeys) {lines : List Str} {entries : List Authorization}
    (carried : AuthorizationLines P key lines entries) :
    HashedOnly P R key lines entries ↔
      entries.length ≤ 1 ∨ ∃ first ∈ entries.head?, first.isScheme = true := by
  match entries, carried with
  | [], carried => exact iff_of_true (hashedOnly_nil carried) (.inl (by simp))
  | .scheme word gap credential :: entries, carried =>
    exact iff_of_true (hashedOnly_scheme named carried) (.inr ⟨_, rfl, rfl⟩)
  | [.bare credential], carried =>
    exact iff_of_true (hashedOnly_bare named carried) (.inl (by simp))
  | .bare credential :: entry :: entries, carried =>
    refine iff_of_false (not_hashedOnly_leaks named carried) ?_
    rintro (short | ⟨_, ⟨⟩, scheme⟩)
    · simp at short
    · exact absurd scheme (by simp [Authorization.isScheme])

theorem authorization_hashed_behind_scheme :
    HashedOnly asciiPlatform asciiRedactor (str "authorization")
      [str "Authorization: Basic abc", str "Authorization: def"]
      [.scheme (str "Basic") (str " ") (str "abc"), .bare (str "def")] :=
  (authorization_hashedOnly_iff asciiPlatform asciiRedactor (by decide)
    ⟨by decide, by decide⟩).mpr (.inr ⟨_, rfl, rfl⟩)

/-- Of two bare credentials the first one is in the event. -/
theorem authorization_shown_in_front_of_another :
    AuthorizationLines asciiPlatform (str "authorization")
        [str "Authorization: abc", str "Authorization: def"] [.bare (str "abc"), .bare (str "def")] ∧
      eventHeader asciiPlatform asciiRedactor (str "authorization")
        [str "Authorization: abc", str "Authorization: def"] =
        some (str "abc, PII_SECRET_00000000000000030000000000000000") ∧
      ¬ HashedOnly asciiPlatform asciiRedactor (str "authorization")
        [str "Authorization: abc", str "Authorization: def"]
        [.bare (str "abc"), .bare (str "def")] := by
  have carried : AuthorizationLines asciiPlatform (str "authorization")
      [str "Authorization: abc", str "Authorization: def"]
      [.bare (str "abc"), .bare (str "def")] := ⟨by decide, by decide⟩
  exact ⟨carried, by decide +kernel, not_hashedOnly_leaks (by decide) carried⟩

end ApiSensor
