import Mathlib.Algebra.Ring.Nat
import Mathlib.Data.List.Basic
import Mathlib.Data.UInt

/-!
# Bytes and text

The byte and string functions of the standard library that the sensor calls, under the names it
calls them by.  A string is the list of its characters; its length in bytes is `strLen`.
-/

namespace ApiSensor

/-- A byte sequence. -/
abbrev Bytes := List UInt8

/-- A Unicode string. -/
abbrev Str := List Char

/-- A string literal as characters. -/
def str (literal : String) : Str := literal.toList

/-- A property of the members of a list is decided along the list, also where the type is finite and
could be enumerated instead (`Char`, `UInt32`). -/
instance (priority := high) decidableForallMem {α : Type*} (items : List α) (P : α → Prop)
    [DecidablePred P] : Decidable (∀ item ∈ items, P item) := List.decidableBAll P items

@[inherit_doc decidableForallMem]
instance (priority := high) decidableExistsMem {α : Type*} (items : List α) (P : α → Prop)
    [DecidablePred P] : Decidable (∃ item ∈ items, P item) := List.decidableBEx P items

@[inherit_doc decidableForallMem]
instance (priority := high) decidableForallMemOption {α : Type*} (item : Option α) (P : α → Prop)
    [DecidablePred P] : Decidable (∀ value ∈ item, P value) :=
  match item with
  | none => isTrue nofun
  | some value => decidable_of_iff (P value) (by simp)

instance (priority := high) decidableMemText (text : Str) (texts : List Str) :
    Decidable (text ∈ texts) := inferInstance

/-- An ASCII byte-string literal. -/
def bytes (literal : String) : Bytes := literal.toList.map fun c => c.toNat.toUInt8

/-- `String::len`: the length of the UTF-8 encoding. -/
def strLen (text : Str) : Nat := (text.map Char.utf8Size).sum

/-- `windows(needle.len()).position(|w| w == needle)` for a non-empty needle. -/
def position (needle : Bytes) : Bytes → Option Nat
  | [] => none
  | byte :: rest =>
    if needle.isPrefixOf (byte :: rest) then some 0 else (position needle rest).map (· + 1)

/-- `from_be_bytes`: the number whose base-256 digits are the given bytes. -/
def fromBeBytes (digits : Bytes) : Nat := digits.foldl (fun value byte => value * 256 + byte.toNat) 0

/-! ## UTF-8 -/

/-- A continuation byte `10xxxxxx`. -/
def isContinuation (byte : UInt8) : Bool := byte &&& 0xC0 == 0x80

/-- Low bits of a byte as a number. -/
def lowBits (byte mask : UInt8) : Nat := (byte &&& mask).toNat

/-- Bounds that the second byte of a three- or four-byte sequence must meet. -/
def secondByteOk (lead second : UInt8) : Bool :=
  if lead == 0xE0 then 0xA0 ≤ second && second ≤ 0xBF
  else if lead == 0xED then 0x80 ≤ second && second ≤ 0x9F
  else if lead == 0xF0 then 0x90 ≤ second && second ≤ 0xBF
  else if lead == 0xF4 then 0x80 ≤ second && second ≤ 0x8F
  else 0x80 ≤ second && second ≤ 0xBF

/-- Decode one character from a non-empty sequence: the character, or `none` for an ill-formed
prefix, with the bytes that follow it.  An ill-formed prefix is as long as the standard library
replaces by a single U+FFFD. -/
def utf8Next (lead : UInt8) (rest : Bytes) : Option Char × Bytes :=
  if lead < 0x80 then (some (Char.ofNat lead.toNat), rest)
  else if 0xC2 ≤ lead && lead ≤ 0xDF then
    match rest with
    | second :: rest' =>
      if isContinuation second then
        (some (Char.ofNat (lowBits lead 0x1F * 64 + lowBits second 0x3F)), rest')
      else (none, rest)
    | [] => (none, rest)
  else if 0xE0 ≤ lead && lead ≤ 0xEF then
    match rest with
    | second :: rest' =>
      if secondByteOk lead second then
        match rest' with
        | third :: rest'' =>
          if isContinuation third then
            (some (Char.ofNat (lowBits lead 0x0F * 4096 + lowBits second 0x3F * 64 +
              lowBits third 0x3F)), rest'')
          else (none, rest')
        | [] => (none, rest')
      else (none, rest)
    | [] => (none, rest)
  else if 0xF0 ≤ lead && lead ≤ 0xF4 then
    match rest with
    | second :: rest' =>
      if secondByteOk lead second then
        match rest' with
        | third :: rest'' =>
          if isContinuation third then
            match rest'' with
            | fourth :: rest''' =>
              if isContinuation fourth then
                (some (Char.ofNat (lowBits lead 0x07 * 262144 + lowBits second 0x3F * 4096 +
                  lowBits third 0x3F * 64 + lowBits fourth 0x3F)), rest''')
              else (none, rest'')
            | [] => (none, rest'')
          else (none, rest')
        | [] => (none, rest')
      else (none, rest)
    | [] => (none, rest)
  else (none, rest)

/-- Characters of a byte sequence, `none` standing for an ill-formed piece.  Each character takes
at least one byte, so `fuel` never runs out when it starts at the length. -/
def utf8Chars : Nat → Bytes → List (Option Char)
  | _, [] => []
  | 0, _ :: _ => []
  | fuel + 1, lead :: rest =>
    let (char, rest') := utf8Next lead rest
    char :: utf8Chars fuel rest'

/-- `std::str::from_utf8`. -/
def fromUtf8 (input : Bytes) : Option Str := (utf8Chars input.length input).mapM id

/-- `String::from_utf8_lossy`. -/
def fromUtf8Lossy (input : Bytes) : Str :=
  (utf8Chars input.length input).map fun char => char.getD '�'

/-! ## Splitting and trimming -/

/-- `char::is_whitespace`: the Unicode property `White_Space`. -/
def isWhitespace (c : Char) : Bool :=
  (0x09 ≤ c.toNat && c.toNat ≤ 0x0D) || c.toNat == 0x20 || c.toNat == 0x85 || c.toNat == 0xA0 ||
    c.toNat == 0x1680 || (0x2000 ≤ c.toNat && c.toNat ≤ 0x200A) || c.toNat == 0x2028 ||
    c.toNat == 0x2029 || c.toNat == 0x202F || c.toNat == 0x205F || c.toNat == 0x3000

/-- `str::trim`. -/
def trim (text : Str) : Str :=
  ((text.dropWhile isWhitespace).reverse.dropWhile isWhitespace).reverse

/-- `str::split_whitespace`. -/
def splitWhitespace (text : Str) : List Str :=
  (text.splitOnP isWhitespace).filter fun word => !word.isEmpty

/-- `str::split` on one character. -/
def split (separator : Char) (text : Str) : List Str := text.splitOn separator

/-- `str::split_once` on one character. -/
def splitOnce (separator : Char) : Str → Option (Str × Str)
  | [] => none
  | c :: rest =>
    if c = separator then some ([], rest)
    else (splitOnce separator rest).map fun (before, after) => (c :: before, after)

/-- `str::split("\r\n")`. -/
def splitCrlf : Str → List Str
  | [] => [[]]
  | '\r' :: '\n' :: rest => [] :: splitCrlf rest
  | c :: rest =>
    match splitCrlf rest with
    | [] => [[c]]
    | line :: lines => (c :: line) :: lines

/-- `str::to_ascii_lowercase`. -/
def toAsciiLowercase (text : Str) : Str := text.map Char.toLower

/-! ## Numbers -/

/-- Value of an ASCII digit in a radix up to 16. -/
def digit? (radix : Nat) (c : Char) : Option Nat :=
  let value :=
    if '0' ≤ c && c ≤ '9' then some (c.toNat - '0'.toNat)
    else if 'a' ≤ c && c ≤ 'z' then some (c.toNat - 'a'.toNat + 10)
    else if 'A' ≤ c && c ≤ 'Z' then some (c.toNat - 'A'.toNat + 10)
    else none
  value.filter (· < radix)

/-- Value of a non-empty digit sequence. -/
def digits? (radix : Nat) (text : Str) : Option Nat :=
  if text.isEmpty then none
  else text.foldlM (fun value c => (digit? radix c).map (value * radix + ·)) 0

/-- `u64::from_str_radix`: an optional `+`, then digits, below `2^64`. -/
def parseU64 (radix : Nat) (text : Str) : Option Nat :=
  let body := match text with
    | '+' :: rest => rest
    | _ => text
  (digits? radix body).filter (· < 2 ^ 64)

/-- `str::parse::<i32>`: an optional sign, then digits, within the range. -/
def parseI32 (text : Str) : Option Int :=
  match text with
  | '-' :: rest => ((digits? 10 rest).filter (· ≤ 2 ^ 31)).map fun value => -(value : Int)
  | '+' :: rest => ((digits? 10 rest).filter (· < 2 ^ 31)).map Int.ofNat
  | _ => ((digits? 10 text).filter (· < 2 ^ 31)).map Int.ofNat

/-- `str::lines`. -/
def lines (text : Str) : List Str :=
  let pieces := split '\n' text
  let pieces := if pieces.getLastD [] = [] then pieces.dropLast else pieces
  pieces.map fun line => if line.getLast? = some '\r' then line.dropLast else line

/-- `str::contains`. -/
def strContains (text needle : Str) : Bool := text.tails.any needle.isPrefixOf

end ApiSensor
