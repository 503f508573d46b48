import ApiSensor.Decoding.Wire
import Mathlib.Data.List.TakeWhile
import Mathlib.Tactic.MkIffOfInductiveProp

/-!
# Ambiguous framing

How RFC 9112 reads the fields and lines that delimit a body, against what the decoder makes of them.
The decoder trims every kind of white space, accepts a sign, and takes a field from a line in which
white space stands around the name.
-/

namespace ApiSensor

/-! ## The strict reading -/

/-- Strip optional whitespace from both ends. -/
def trimOws (text : Str) : Str :=
  ((text.dropWhile isOws).reverse.dropWhile isOws).reverse

/-- The field lines of a header block: those up to the first empty line. -/
def fieldLines (lines : List Str) : List Str := lines.takeWhile fun line => !line.isEmpty

/-- The value that a line has for a field, as `parse_headers` assigns lines to fields. -/
def valueFor? (P : Platform) (key line : Str) : Option Str :=
  (splitOnce ':' line).bind fun (name, value) =>
    if P.toLowercase (trim name) = key then some value else none

/-- The values of a field in a header block. -/
def fieldValues (P : Platform) (key : Str) (lines : List Str) : List Str :=
  (fieldLines lines).filterMap (valueFor? P key)

/-- The comma-separated elements of all values of a field. -/
def elements (values : List Str) : List Str := values.flatMap (split ',')

/-- A line gives a field that frames the body. -/
def framesBody (P : Platform) (line : Str) : Bool :=
  (valueFor? P (str "transfer-encoding") line).isSome ||
    (valueFor? P (str "content-length") line).isSome

/-- A line that continues the one before it. -/
def isFolded (line : Str) : Bool := line.head?.any isOws

/-- White space stands around the field name. -/
def namePadded (line : Str) : Bool :=
  (splitOnce ':' line).any fun (name, _) => trim name ≠ name

/-- Every framing field has its name at the start of a line, directly in front of the colon, and is
not continued. -/
structure RegularLines (P : Platform) (lines : List Str) : Prop where
  names : ∀ line ∈ fieldLines lines, framesBody P line = true → namePadded line = false
  unfolded : (fieldLines lines).IsChain fun line next =>
    framesBody P line = true → isFolded next = false

instance (P : Platform) (lines : List Str) : Decidable (RegularLines P lines) :=
  decidable_of_iff
    ((∀ line ∈ fieldLines lines, framesBody P line = true → namePadded line = false) ∧
      (fieldLines lines).IsChain fun line next => framesBody P line = true → isFolded next = false)
    ⟨fun ⟨names, unfolded⟩ => ⟨names, unfolded⟩, fun ⟨names, unfolded⟩ => ⟨names, unfolded⟩⟩

/-- The number that all elements denote. -/
def agreed (number : Str → Option Nat) (elements : List Str) : Option Nat :=
  (elements.head?.bind number).filter fun n => elements.all fun element => number element = some n

/-- The framing that the values of the two fields ask for, in a reading of list elements and
numbers. -/
def framingOf (clean : Str → Str) (number : Str → Option Nat) (isRequest : Bool) :
    (codings lengths : List Str) → Option Framing
  | [], [] => some (if isRequest then .none else .untilClose)
  | _ :: _, _ :: _ => none
  | codings, [] =>
    if toAsciiLowercase (((elements codings).map clean).getLastD []) = str "chunked" then
      some .chunked
    else if isRequest then none
    else some .untilClose
  | [], lengths =>
    (agreed number ((elements lengths).map clean)).map .fixed

/-- The framing that RFC 9112 derives from a header block, `none` if the block is invalid. -/
def rfcFraming (P : Platform) (lines : List Str) (isRequest : Bool) : Option Framing :=
  if RegularLines P lines then
    framingOf trimOws (digits? 10) isRequest (fieldValues P (str "transfer-encoding") lines)
      (fieldValues P (str "content-length") lines)
  else none

/-- The size in a chunk-size line: hexadecimal digits up to the end or a semicolon. -/
def rfcChunkSize (line : Bytes) : Option Nat :=
  digits? 16 ((line.takeWhile (· ≠ 59)).map fun byte => Char.ofNat byte.toNat)

/-! ## Elements of a combined field -/

theorem split_append_cons (separator : Char) (before after : Str) :
    split separator (before ++ separator :: after) =
      split separator before ++ split separator after := by
  unfold split List.splitOn
  exact List.splitOnP_append_cons _ _ (by simp)

variable {radix n : Nat} {c : Char}

theorem split_cons {separator : Char} (different : c ≠ separator) (text : Str) :
    split separator (c :: text) = (split separator text).modifyHead (c :: ·) := by
  unfold split List.splitOn
  rw [List.splitOnP_cons_eq_if_modifyHead, if_neg (by simpa using different)]

theorem split_ne_nil (separator : Char) (text : Str) : split separator text ≠ [] :=
  List.splitOnP_ne_nil _ _

theorem trim_cons (space : isWhitespace c = true) (text : Str) :
    trim (c :: text) = trim text := by
  simp [trim, space]

theorem map_trim_split_pad {pad : Str} (blank : ∀ c ∈ pad, isWhitespace c = true) (text : Str) :
    (split ',' (pad ++ text)).map trim = (split ',' text).map trim := by
  induction pad with
  | nil => rfl
  | cons c pad induction =>
    rw [List.forall_mem_cons] at blank
    have different : c ≠ ',' := by
      rintro rfl
      exact absurd blank.1 (by decide)
    rw [List.cons_append, split_cons different, ← induction blank.2]
    cases split ',' (pad ++ text) with
    | nil => rfl
    | cons first rest =>
      rw [List.modifyHead_cons, List.map_cons, List.map_cons, trim_cons blank.1]

theorem split_append_pad {pad : Str} (free : ',' ∉ pad) (text : Str) :
    ∃ init last, split ',' text = init ++ [last] ∧
      split ',' (text ++ pad) = init ++ [last ++ pad] := by
  induction text with
  | nil => exact ⟨[], [], rfl, split_eq_singleton free⟩
  | cons c text induction =>
    obtain ⟨init, last, plain, padded⟩ := induction
    by_cases same : c = ','
    · subst same
      refine ⟨[] :: init, last, ?_, ?_⟩
      · have cut := split_append_cons ',' [] text
        rw [plain] at cut
        exact cut
      · have cut := split_append_cons ',' [] (text ++ pad)
        rw [padded] at cut
        exact cut
    · rw [List.cons_append, split_cons same, split_cons same, plain, padded]
      cases init with
      | nil => exact ⟨[], c :: last, rfl, rfl⟩
      | cons first init => exact ⟨(c :: first) :: init, last, rfl, rfl⟩

theorem exists_eq_strip (blank : Char → Bool) (text : Str) : ∃ before after,
    text = before ++ ((text.dropWhile blank).reverse.dropWhile blank).reverse ++ after ∧
      (∀ c ∈ before, blank c = true) ∧ ∀ c ∈ after, blank c = true := by
  refine ⟨text.takeWhile blank, ((text.dropWhile blank).reverse.takeWhile blank).reverse,
    ?_, ?_, ?_⟩
  · rw [List.append_assoc, ← List.reverse_append, List.takeWhile_append_dropWhile,
      List.reverse_reverse, List.takeWhile_append_dropWhile]
  · exact fun c member => List.mem_takeWhile_imp member
  · exact fun c member => List.mem_takeWhile_imp (List.mem_reverse.mp member)

/-- Trimming a value does not change its trimmed elements. -/
theorem map_trim_split_trim (text : Str) :
    (split ',' (trim text)).map trim = (split ',' text).map trim := by
  obtain ⟨before, after, whole, begins, ends⟩ := exists_eq_strip isWhitespace text
  rw [← trim] at whole
  have free : ',' ∉ after := fun member => absurd (ends _ member) (by decide)
  obtain ⟨init, last, plain, padded⟩ := split_append_pad free (trim text)
  have around : trim (last ++ after) = trim last := by
    have inner := @trim_around [] after last (by simp) ends
    rwa [List.nil_append] at inner
  conv_rhs => rw [whole, List.append_assoc, map_trim_split_pad begins, padded]
  rw [plain, List.map_append, List.map_append, List.map_singleton, List.map_singleton, around]

theorem getLastD_map_trim (items : List Str) :
    (items.map trim).getLastD [] = trim (items.getLastD []) := by
  cases items using List.reverseRecOn with
  | nil => rfl
  | append_singleton items last => simp

/-! ## The decoder's reading -/

section Decoder

variable {P : Platform}

theorem fieldValues_cons (key line : Str) (lines : List Str) :
    fieldValues P key (line :: lines) =
      if line.isEmpty then []
      else (valueFor? P key line).toList ++ fieldValues P key lines := by
  unfold fieldValues fieldLines
  rw [List.takeWhile_cons]
  by_cases empty : line.isEmpty = true
  · simp [empty]
  · rw [if_neg empty, if_pos (by simpa using empty), List.filterMap_cons]
    cases valueFor? P key line <;> rfl

theorem get?_parseHeadersInto_lines (lines : List Str) (headers : Headers) (key : Str) :
    (parseHeadersInto P headers lines).get? key =
      ((fieldValues P key lines).map trim).foldl (extendValue key) (headers.get? key) := by
  induction lines generalizing headers with
  | nil => rfl
  | cons line lines induction =>
    rw [parseHeadersInto, fieldValues_cons]
    split_ifs with empty
    · rfl
    · cases found : splitOnce ':' line with
      | none =>
        have absent : valueFor? P key line = none := by simp [valueFor?, found]
        rw [absent]
        exact induction headers
      | some parts =>
        obtain ⟨name, value⟩ := parts
        dsimp only
        rw [induction, get?_combineHeader]
        by_cases same : P.toLowercase (trim name) = key <;> simp [valueFor?, found, same]

/-- Combined values have the elements of all of them. -/
theorem elements_extendValue {key : Str} (plain : separator key = str ", ") (values : List Str)
    (existing : Str) :
    ∃ combined, (values.map trim).foldl (extendValue key) (some existing) = some combined ∧
      (split ',' combined).map trim =
        (split ',' existing).map trim ++ (elements values).map trim := by
  induction values generalizing existing with
  | nil => exact ⟨existing, rfl, by simp [elements]⟩
  | cons value values induction =>
    obtain ⟨combined, stored, same⟩ := induction (existing ++ separator key ++ trim value)
    refine ⟨combined, stored, same.trans ?_⟩
    have cut : existing ++ separator key ++ trim value =
        existing ++ ',' :: ([' '] ++ trim value) := by
      rw [plain]
      simp [str]
    rw [cut, split_append_cons, List.map_append, map_trim_split_pad (by decide),
      map_trim_split_trim]
    simp [elements]

theorem get?_parseHeaders_elements {key : Str} (plain : separator key = str ", ")
    (lines : List Str) :
    ((parseHeaders P lines).get? key = none ↔ fieldValues P key lines = []) ∧
      ∀ combined ∈ (parseHeaders P lines).get? key,
        (split ',' combined).map trim = (elements (fieldValues P key lines)).map trim := by
  unfold parseHeaders
  rw [get?_parseHeadersInto_lines]
  cases fieldValues P key lines with
  | nil => exact ⟨iff_of_true rfl rfl, nofun⟩
  | cons value values =>
    obtain ⟨combined, stored, same⟩ := elements_extendValue plain values (trim value)
    change (((values.map trim).foldl (extendValue key) (some (trim value))) = none ↔ _) ∧
      ∀ combined ∈ (values.map trim).foldl (extendValue key) (some (trim value)), _
    rw [stored]
    refine ⟨iff_of_false nofun (List.cons_ne_nil _ _), ?_⟩
    rintro _ ⟨⟩
    rw [same, map_trim_split_trim]
    simp [elements]

theorem agreed_eq_some {number : Str → Option Nat} {items : List Str} {n : Nat} :
    agreed number items = some n ↔ items ≠ [] ∧ ∀ item ∈ items, number item = some n := by
  unfold agreed
  cases items with
  | nil => simp
  | cons first items =>
    rw [Option.filter_eq_some_iff]
    simp only [List.head?_cons, Option.bind_some, List.all_eq_true, decide_eq_true_eq]
    refine ⟨fun ⟨_, all⟩ => ⟨List.cons_ne_nil _ _, all⟩, fun ⟨_, all⟩ => ⟨?_, all⟩⟩
    exact all first List.mem_cons_self

theorem contentLength_some {parts : List Str} {n : Nat} {result : Option Nat} :
    contentLength (some n) parts = .ok result ↔
      result = some n ∧ ∀ part ∈ parts.map trim, parseU64 10 part = some n := by
  induction parts with
  | nil =>
    rw [contentLength]
    simp [eq_comm]
  | cons part parts induction =>
    rw [contentLength, List.map_cons, List.forall_mem_cons]
    cases parsed : parseU64 10 (trim part) with
    | none => simp
    | some m =>
      dsimp only
      by_cases same : n = m
      · subst same
        rw [if_neg (by simp), induction]
        simp
      · rw [if_pos (by simpa using same)]
        simp only [reduceCtorEq, Option.some.injEq, false_iff, not_and]
        exact fun _ equal => absurd equal.symm same

theorem contentLength_none {parts : List Str} (nonempty : parts ≠ []) {result : Option Nat} :
    contentLength none parts = .ok result ↔
      ∃ n, result = some n ∧ agreed (parseU64 10) (parts.map trim) = some n := by
  cases parts with
  | nil => exact absurd rfl nonempty
  | cons part parts =>
    simp only [agreed_eq_some, List.map_cons, List.forall_mem_cons]
    rw [contentLength]
    cases parsed : parseU64 10 (trim part) with
    | none => simp
    | some m =>
      simp only [Option.any_none, Bool.false_eq_true, if_false, contentLength_some,
        Option.some.injEq, ne_eq, reduceCtorEq, not_false_eq_true, true_and]
      constructor
      · rintro ⟨rfl, all⟩
        exact ⟨m, rfl, rfl, all⟩
      · rintro ⟨n, rfl, rfl, all⟩
        exact ⟨rfl, all⟩

/-- The decoder reads elements between any white space and numbers with a sign. -/
theorem bodyFraming_eq_ok (lines : List Str) (isRequest : Bool) (framing : Framing) :
    bodyFraming (parseHeaders P lines) isRequest = .ok framing ↔
      framingOf trim (parseU64 10) isRequest (fieldValues P (str "transfer-encoding") lines)
        (fieldValues P (str "content-length") lines) = some framing := by
  obtain ⟨noCodings, codings⟩ := @get?_parseHeaders_elements P (str "transfer-encoding") rfl lines
  obtain ⟨noLengths, lengths⟩ := @get?_parseHeaders_elements P (str "content-length") rfl lines
  unfold bodyFraming
  cases te : (parseHeaders P lines).get? (str "transfer-encoding") with
  | none =>
    rw [noCodings.mp te]
    cases cl : (parseHeaders P lines).get? (str "content-length") with
    | none =>
      rw [noLengths.mp cl]
      simp [framingOf]
    | some combined =>
      obtain ⟨first, rest, values⟩ := List.exists_cons_of_ne_nil
        (mt noLengths.mpr (by rw [cl]; exact nofun))
      rw [values] at lengths ⊢
      simp only [framingOf, ← lengths combined cl]
      cases counted : contentLength none (split ',' combined) with
      | error reason =>
        have none_ : agreed (parseU64 10) ((split ',' combined).map trim) = none := by
          refine Option.eq_none_iff_forall_ne_some.mpr fun n some_ => ?_
          have accepted := (contentLength_none (split_ne_nil _ _)).mpr ⟨n, rfl, some_⟩
          rw [counted] at accepted
          cases accepted
        simp [none_]
      | ok result =>
        obtain ⟨n, rfl, some_⟩ := (contentLength_none (split_ne_nil _ _)).mp counted
        simp [some_]
  | some combined =>
    obtain ⟨first, rest, values⟩ := List.exists_cons_of_ne_nil
      (mt noCodings.mpr (by rw [te]; exact nofun))
    rw [values] at codings ⊢
    have last : trim ((split ',' combined).getLastD []) =
        ((elements (first :: rest)).map trim).getLastD [] := by
      rw [← codings combined te, getLastD_map_trim]
    cases cl : (parseHeaders P lines).get? (str "content-length") with
    | none =>
      rw [noLengths.mp cl]
      simp only [framingOf, Option.isSome_some, Option.isSome_none, Bool.and_false,
        Bool.false_eq_true, if_false, last]
      split_ifs <;> simp
    | some lengthText =>
      obtain ⟨_, _, sizes⟩ := List.exists_cons_of_ne_nil
        (mt noLengths.mpr (by rw [cl]; exact nofun))
      rw [sizes]
      simp [framingOf]

end Decoder

/-! ## Header blocks on which the readings agree -/

/-- The framing fields of a block are spelled as they should be, with lengths that fit a `u64`. -/
@[mk_iff]
structure FramingSpelled (P : Platform) (lines : List Str) : Prop where
  regular : RegularLines P lines
  coding : toAsciiLowercase (trim ((elements
      (fieldValues P (str "transfer-encoding") lines)).getLastD [])) = str "chunked" →
    trimOws ((elements (fieldValues P (str "transfer-encoding") lines)).getLastD []) =
      trim ((elements (fieldValues P (str "transfer-encoding") lines)).getLastD [])
  lengths : ∀ element ∈ elements (fieldValues P (str "content-length") lines),
    ∃ n < 2 ^ 64, digits? 10 (trimOws element) = some n

/-- The block has no valid framing in any spelling: both fields, a request that does not end in
chunked coding, or lengths that are no number or disagree. -/
def FramingRefused (P : Platform) (lines : List Str) (isRequest : Bool) : Prop :=
  let codings := fieldValues P (str "transfer-encoding") lines
  let lengths := fieldValues P (str "content-length") lines
  (codings ≠ [] ∧ lengths ≠ []) ∨
    (codings ≠ [] ∧ isRequest = true ∧
      toAsciiLowercase (trim ((elements codings).getLastD [])) ≠ str "chunked") ∨
    (lengths ≠ [] ∧ (¬ ∃ n, ∀ element ∈ elements lengths, parseU64 10 (trim element) = some n) ∧
      ¬ (RegularLines P lines ∧
        ∃ n, ∀ element ∈ elements lengths, digits? 10 (trimOws element) = some n))

theorem trim_trimOws (text : Str) : trim (trimOws text) = trim text := by
  obtain ⟨before, after, whole, begins, ends⟩ := exists_eq_strip isOws text
  conv_rhs => rw [whole]
  exact (trim_around _ (fun c member => isWhitespace_of_isOws (begins c member))
    fun c member => isWhitespace_of_isOws (ends c member)).symm

theorem trim_of_digits? {text : Str} (parsed : digits? radix (trimOws text) = some n) :
    trim text = trimOws text := by
  rw [← trim_trimOws]
  exact trim_of_forall fun c member => (ne_of_digit? ((digit?_of_digits? parsed).2 c member)).1

theorem trim_of_chunked {text : Str} (chunked : toAsciiLowercase (trimOws text) = str "chunked") :
    trim text = trimOws text := by
  rw [← trim_trimOws]
  exact trim_of_forall fun c member => (ne_of_mem_chunked chunked c member).1

theorem parseU64_lt {text : Str} (parsed : parseU64 radix text = some n) :
    n < 2 ^ 64 := by
  unfold parseU64 at parsed
  exact of_decide_eq_true (Option.filter_eq_some_iff.mp parsed).2

section Agreement

variable {P : Platform} {lines : List Str} {isRequest : Bool}

/-- Where the strict reading accepts a length that fits, so does the decoder. -/
theorem parseU64_trim {element : Str} {n : Nat} (parsed : digits? 10 (trimOws element) = some n)
    (fits : n < 2 ^ 64) : parseU64 10 (trim element) = some n := by
  rw [trim_of_digits? parsed]
  exact parseU64_of_digits? parsed fits

theorem regularLines_of_absent (noCodings : fieldValues P (str "transfer-encoding") lines = [])
    (noLengths : fieldValues P (str "content-length") lines = []) : RegularLines P lines := by
  have other : ∀ line ∈ fieldLines lines, framesBody P line = false := by
    intro line member
    have coding := List.filterMap_eq_nil_iff.mp noCodings line member
    have length := List.filterMap_eq_nil_iff.mp noLengths line member
    simp [framesBody, coding, length]
  refine ⟨fun line member frames => absurd frames (by simp [other line member]), ?_⟩
  refine (List.pairwise_of_forall_mem_list fun line member next _ frames => ?_).isChain
  exact absurd frames (by simp [other line member])

theorem elements_ne_nil {values : List Str} (nonempty : values ≠ []) : elements values ≠ [] := by
  obtain ⟨value, rest, rfl⟩ := List.exists_cons_of_ne_nil nonempty
  simp [elements, split_ne_nil]

theorem getLastD_map_trimOws (items : List Str) :
    (items.map trimOws).getLastD [] = trimOws (items.getLastD []) := by
  cases items using List.reverseRecOn with
  | nil => rfl
  | append_singleton items last => simp

theorem framingOf_lengths (clean : Str → Str) (number : Str → Option Nat) {lengths : List Str}
    (nonempty : lengths ≠ []) (framing : Framing) :
    framingOf clean number isRequest [] lengths = some framing ↔
      ∃ n, framing = .fixed n ∧ ∀ element ∈ elements lengths, number (clean element) = some n := by
  obtain ⟨length, rest, rfl⟩ := List.exists_cons_of_ne_nil nonempty
  simp only [framingOf, Option.map_eq_some_iff, agreed_eq_some, List.forall_mem_map]
  refine exists_congr fun n => ?_
  constructor
  · rintro ⟨⟨-, all⟩, rfl⟩
    exact ⟨rfl, all⟩
  · rintro ⟨rfl, all⟩
    exact ⟨⟨by simpa using elements_ne_nil nonempty, all⟩, rfl⟩

theorem lengths_agree_iff {regular : Prop} [Decidable regular] {lengths : List Str}
    (nonempty : lengths ≠ []) :
    (∀ framing, framingOf trim (parseU64 10) isRequest [] lengths = some framing ↔
        (if regular then framingOf trimOws (digits? 10) isRequest [] lengths else none) =
          some framing) ↔
      (regular ∧ ∀ element ∈ elements lengths,
          ∃ n < 2 ^ 64, digits? 10 (trimOws element) = some n) ∨
        (¬ ∃ n, ∀ element ∈ elements lengths, parseU64 10 (trim element) = some n) ∧
          ¬ (regular ∧ ∃ n, ∀ element ∈ elements lengths,
            digits? 10 (trimOws element) = some n) := by
  have strict : ∀ framing, (if regular then framingOf trimOws (digits? 10) isRequest [] lengths
      else none) = some framing ↔ ∃ n, framing = .fixed n ∧ regular ∧
        ∀ element ∈ elements lengths, digits? 10 (trimOws element) = some n := by
    intro framing
    split_ifs with holds
    · rw [framingOf_lengths _ _ nonempty]
      simp [holds]
    · simp [holds]
  obtain ⟨first, some_⟩ := List.exists_mem_of_ne_nil _ (elements_ne_nil nonempty)
  simp only [strict, framingOf_lengths _ _ nonempty]
  constructor
  · intro agree
    by_cases accepted : ∃ n, ∀ element ∈ elements lengths, parseU64 10 (trim element) = some n
    · obtain ⟨n, all⟩ := accepted
      obtain ⟨m, same, holds, plain⟩ := (agree (.fixed n)).mp ⟨n, rfl, all⟩
      cases same
      refine .inl ⟨holds, fun element member => ?_⟩
      exact ⟨n, parseU64_lt (all first some_), plain element member⟩
    · refine .inr ⟨accepted, ?_⟩
      rintro ⟨holds, n, plain⟩
      obtain ⟨m, same, all⟩ := (agree (.fixed n)).mpr ⟨n, rfl, holds, plain⟩
      exact accepted ⟨m, all⟩
  · rintro (⟨holds, spelled⟩ | ⟨refused, invalid⟩) framing
    · refine exists_congr fun n => and_congr_right fun _ => ?_
      rw [and_iff_right holds]
      refine forall_congr' fun element => forall_congr' fun member => ?_
      obtain ⟨m, fits, parsed⟩ := spelled element member
      rw [parseU64_trim parsed fits, parsed]
    · exact iff_of_false (fun ⟨n, _, all⟩ => refused ⟨n, all⟩)
        fun ⟨n, _, holds, plain⟩ => invalid ⟨holds, n, plain⟩

theorem codings_agree_iff {regular : Prop} [Decidable regular] {codings : List Str}
    (nonempty : codings ≠ []) :
    (∀ framing, framingOf trim (parseU64 10) isRequest codings [] = some framing ↔
        (if regular then framingOf trimOws (digits? 10) isRequest codings [] else none) =
          some framing) ↔
      (regular ∧ (toAsciiLowercase (trim ((elements codings).getLastD [])) = str "chunked" →
        trimOws ((elements codings).getLastD []) = trim ((elements codings).getLastD []))) ∨
        isRequest = true ∧
          toAsciiLowercase (trim ((elements codings).getLastD [])) ≠ str "chunked" := by
  obtain ⟨coding, rest, rfl⟩ := List.exists_cons_of_ne_nil nonempty
  simp only [framingOf, getLastD_map_trim, getLastD_map_trimOws]
  generalize (elements (coding :: rest)).getLastD [] = last
  have strict := @trim_of_chunked last
  by_cases chunked : toAsciiLowercase (trimOws last) = str "chunked"
  · have same := strict chunked
    rw [same]
    by_cases holds : regular <;> simp [holds, chunked]
  · by_cases lenient : toAsciiLowercase (trim last) = str "chunked"
    · have different : trimOws last ≠ trim last := fun same => chunked (same ▸ lenient)
      refine iff_of_false (fun agree => ?_) (by simp [lenient, different])
      have read := (agree .chunked).mp (by simp [lenient])
      split_ifs at read
      simp at read
    · by_cases holds : regular <;> cases isRequest <;> simp [holds, chunked, lenient]

/-- The decoder derives the framing that RFC 9112 derives exactly from the blocks that are spelled
as they should be or have no valid framing in any spelling. -/
theorem bodyFraming_strict_iff :
    (∀ framing, bodyFraming (parseHeaders P lines) isRequest = .ok framing ↔
        rfcFraming P lines isRequest = some framing) ↔
      FramingSpelled P lines ∨ FramingRefused P lines isRequest := by
  simp only [bodyFraming_eq_ok, rfcFraming]
  rw [framingSpelled_iff, FramingRefused]
  by_cases noCodings : fieldValues P (str "transfer-encoding") lines = []
  · by_cases noLengths : fieldValues P (str "content-length") lines = []
    · have regular := regularLines_of_absent noCodings noLengths
      have absent : toAsciiLowercase (trim []) ≠ str "chunked" := by decide
      simp [noCodings, noLengths, regular, framingOf, elements, absent]
    · have absent : toAsciiLowercase (trim []) ≠ str "chunked" := by decide
      rw [noCodings, lengths_agree_iff noLengths]
      simp [noLengths, elements, absent]
  · by_cases noLengths : fieldValues P (str "content-length") lines = []
    · rw [noLengths, codings_agree_iff noCodings]
      simp [noCodings, elements]
    · obtain ⟨_, _, codings⟩ := List.exists_cons_of_ne_nil noCodings
      obtain ⟨_, _, lengths⟩ := List.exists_cons_of_ne_nil noLengths
      simp [codings, lengths, framingOf]

end Agreement

/-! ## Chunk-size lines on which the readings agree -/

/-- What `from_str_radix` reads as digits: a sign in front is skipped. -/
def withoutSign : Str → Str
  | '+' :: rest => rest
  | text => text

theorem parseU64_eq (radix : Nat) (text : Str) :
    parseU64 radix text = (digits? radix (withoutSign text)).filter (· < 2 ^ 64) := by
  unfold parseU64
  split
  · rfl
  · rename_i unsigned
    have same : withoutSign text = text := by
      unfold withoutSign
      split
      · exact absurd rfl (unsigned _)
      · rfl
    rw [same]

theorem headD_split_eq (separator : Char) (text : Str) :
    (split separator text).headD [] = text.takeWhile (· ≠ separator) := by
  induction text with
  | nil => rfl
  | cons c text induction =>
    by_cases same : c = separator
    · subst same
      rw [List.takeWhile_cons_of_neg (by simp)]
      exact congrArg (List.headD · []) (split_append_cons c [] text)
    · rw [split_cons same, List.takeWhile_cons_of_pos (by simpa using same), ← induction]
      cases cut : split separator text with
      | nil => exact absurd cut (split_ne_nil _ _)
      | cons first rest => rfl

theorem lt_of_digit? {value : Nat} (digit : digit? radix c = some value) :
    value < radix := by
  unfold digit? at digit
  exact of_decide_eq_true (Option.filter_eq_some_iff.mp digit).2

theorem lt_of_digits? {text : Str} (parsed : digits? radix text = some n) :
    n < radix ^ text.length := by
  have scanned : ∀ (text : Str) (start value : Nat),
      text.foldlM (fun value c => (digit? radix c).map (value * radix + ·)) start = some value →
      value < (start + 1) * radix ^ text.length := by
    intro text
    induction text with
    | nil =>
      rintro start value ⟨⟩
      simp
    | cons c text induction =>
      intro start value parsed
      rw [List.foldlM_cons] at parsed
      obtain ⟨middle, first, rest⟩ := Option.bind_eq_some_iff.mp parsed
      obtain ⟨digit, isDigit, rfl⟩ := Option.map_eq_some_iff.mp first
      refine (induction _ _ rest).trans_le ?_
      have small := lt_of_digit? isDigit
      rw [List.length_cons, pow_succ', ← mul_assoc]
      refine Nat.mul_le_mul_right _ ?_
      rw [Nat.add_mul, one_mul]
      omega
  unfold digits? at parsed
  split_ifs at parsed
  simpa using scanned text 0 n parsed

theorem lt_of_isDigit (isDigit : (digit? radix c).isSome = true) :
    c.toNat < 128 :=
  Nat.lt_succ_of_le (Char.utf8Size_eq_one_iff.mp (ne_of_digit? isDigit).2.2.2.2.2)

/-- Digits are the same as bytes and as characters. -/
theorem digits?_latin (radix : Nat) (text : Str) :
    digits? radix ((utf8 text).map fun byte => Char.ofNat byte.toNat) = digits? radix text := by
  by_cases ascii : ∀ c ∈ text, c.toNat < 128
  · have same : (utf8 text).map (fun byte => Char.ofNat byte.toNat) = text := by
      induction text with
      | nil => rfl
      | cons c text induction =>
        rw [List.forall_mem_cons] at ascii
        have back := toNat_byte (show c.toNat < 256 by omega)
        rw [utf8_cons, utf8EncodeChar_ascii ascii.1, List.map_append, induction ascii.2,
          List.map_singleton, back, Char.ofNat_toNat]
        rfl
    rw [same]
  · have noDigits : digits? radix text = none := by
      refine Option.eq_none_iff_forall_ne_some.mpr fun n parsed => ascii fun c member => ?_
      exact lt_of_isDigit ((digit?_of_digits? parsed).2 c member)
    rw [noDigits]
    refine Option.eq_none_iff_forall_ne_some.mpr fun n parsed => ascii fun c member => ?_
    -- the first byte of the character is a digit, so it is the character
    obtain ⟨lead, tail, encoded, -⟩ := utf8Next_encode c []
    have inChar : lead ∈ String.utf8EncodeChar c := by
      rw [encoded]
      exact List.mem_cons_self
    have inText : lead ∈ utf8 text := List.mem_flatMap.mpr ⟨c, member, inChar⟩
    have small := lt_of_isDigit ((digit?_of_digits? parsed).2 _ (List.mem_map_of_mem inText))
    have range := lead.toNat_lt
    rw [toNat_ofNat (by omega)] at small
    rw [← ofNat_of_mem_encode small inChar, toNat_ofNat (by omega)]
    exact small

theorem takeWhile_utf8 (text : Str) :
    (utf8 text).takeWhile (· ≠ 59) = utf8 (text.takeWhile (· ≠ ';')) := by
  induction text with
  | nil => rfl
  | cons c text induction =>
    by_cases same : c = ';'
    · subst same
      rfl
    · have other : ∀ byte ∈ String.utf8EncodeChar c, decide (byte ≠ 59) = true := by
        intro byte member
        rw [decide_eq_true_eq]
        rintro rfl
        exact same (ofNat_of_mem_encode (by decide) member).symm
      rw [utf8_cons, List.takeWhile_append_of_pos other, induction,
        List.takeWhile_cons_of_pos (by simpa using same), utf8_cons]

theorem rfcChunkSize_of_fromUtf8 {line : Bytes} {text : Str} (decoded : fromUtf8 line = some text) :
    rfcChunkSize line = digits? 16 (text.takeWhile (· ≠ ';')) := by
  unfold rfcChunkSize
  rw [← utf8_of_fromUtf8 decoded, takeWhile_utf8, digits?_latin]

theorem length_withoutSign_le (text : Str) : (withoutSign text).length ≤ text.length := by
  unfold withoutSign
  split
  · exact Nat.le_succ _
  · exact Nat.le_refl _

/-- Sixteen digits always fit. -/
theorem chunkSize?_eq {line : Bytes} {text : Str} (decoded : fromUtf8 line = some text) :
    chunkSize? line = (digits? 16 (withoutSign (trim (text.takeWhile (· ≠ ';'))))).filter
      fun _ => strLen (trim (text.takeWhile (· ≠ ';'))) ≤ 16 := by
  unfold chunkSize?
  rw [decoded, Option.getD_some, headD_split_eq]
  generalize trim (text.takeWhile (· ≠ ';')) = hex
  dsimp only
  rw [parseU64_eq]
  cases parsed : digits? 16 (withoutSign hex) with
  | none => rfl
  | some n =>
    by_cases short : strLen hex ≤ 16
    · have nonempty : hex ≠ [] := by
        rintro rfl
        cases parsed
      have length := (length_withoutSign_le hex).trans ((length_le_strLen hex).trans short)
      have fits : n < 2 ^ 64 :=
        (lt_of_digits? parsed).trans_le (Nat.pow_le_pow_right (by decide) length)
      have notEmpty : hex.isEmpty = false := by simpa using nonempty
      rw [Option.filter_some, if_pos (decide_eq_true fits)]
      simp [short, notEmpty]
    · rw [Option.filter_some (p := fun _ => strLen hex ≤ 16), if_neg (by simpa using short)]
      exact Option.filter_eq_none_iff.mpr fun _ _ => by simp [short]

/-- The size is written in at most 16 hexadecimal digits, and the line is UTF-8; or the line has no
size in front of its extension, whatever white space or sign is taken off. -/
def ChunkLineSpelled (line : Bytes) : Prop :=
  ((rfcChunkSize line).isSome = true ∧ (line.takeWhile (· ≠ 59)).length ≤ 16 ∧
      (fromUtf8 line).isSome = true) ∨
    ((rfcChunkSize line).isNone = true ∧ ∀ text ∈ fromUtf8 line,
      digits? 16 (withoutSign (trim (text.takeWhile (· ≠ ';')))) = none ∨
        16 < strLen (trim (text.takeWhile (· ≠ ';'))))

theorem chunkSize?_strict_iff (line : Bytes) :
    chunkSize? line = rfcChunkSize line ↔ ChunkLineSpelled line := by
  unfold ChunkLineSpelled
  cases decoded : fromUtf8 line with
  | none =>
    have none_ : chunkSize? line = none := by
      unfold chunkSize?
      rw [decoded]
      rfl
    rw [none_]
    cases rfcChunkSize line <;> simp
  | some text =>
    have size : (line.takeWhile (· ≠ 59)).length = strLen (text.takeWhile (· ≠ ';')) := by
      rw [← utf8_of_fromUtf8 decoded, takeWhile_utf8, length_utf8]
    rw [size, chunkSize?_eq decoded, rfcChunkSize_of_fromUtf8 decoded]
    simp only [Option.mem_some_iff, forall_eq']
    generalize text.takeWhile (· ≠ ';') = field
    cases parsed : digits? 16 field with
    | none =>
      cases lenient : digits? 16 (withoutSign (trim field)) with
      | none => simp
      | some n => simp [Option.filter]
    | some n =>
      have plain := fun c member => ne_of_digit? ((digit?_of_digits? parsed).2 c member)
      have bare : trim field = field := trim_of_forall fun c member => (plain c member).1
      have unsigned : withoutSign field = field := by
        unfold withoutSign
        split
        · exact absurd rfl (plain _ List.mem_cons_self).2.2.2.1
        · rfl
      rw [bare, unsigned, parsed]
      simp [Option.filter]

/-! ## Both together -/

/-- The decoder frames bodies as RFC 9112 does for exactly the header blocks and chunk-size lines
that are spelled as they should be or are invalid in any spelling. -/
theorem framing_strict_iff (P : Platform) :
    (∀ lines isRequest, (∀ framing, bodyFraming (parseHeaders P lines) isRequest = .ok framing ↔
          rfcFraming P lines isRequest = some framing) ↔
        FramingSpelled P lines ∨ FramingRefused P lines isRequest) ∧
      ∀ line, chunkSize? line = rfcChunkSize line ↔ ChunkLineSpelled line :=
  ⟨fun _ _ => bodyFraming_strict_iff, chunkSize?_strict_iff⟩

/-- A sign, a space in front of the colon and a folded line are all read as a length. -/
theorem loose_framing_accepted :
    (∀ lines ∈ [[str "Content-Length: +5"], [str "Content-Length : 5"],
        [str "X: y", str " Content-Length: 5"]],
      bodyFraming (parseHeaders asciiPlatform lines) true = .ok (.fixed 5) ∧
        rfcFraming asciiPlatform lines true = none) ∧
      chunkSize? (bytes "+5") = some 5 ∧ rfcChunkSize (bytes "+5") = none := by
  refine ⟨?_, by decide +kernel, by decide +kernel⟩
  simp only [List.forall_mem_cons, List.not_mem_nil, false_implies, implies_true, and_true]
  refine ⟨⟨rfl, by decide +kernel⟩, ⟨rfl, by decide +kernel⟩, rfl, by decide +kernel⟩

end ApiSensor
