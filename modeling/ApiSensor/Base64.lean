import ApiSensor.Decoding.Utf8

/-!
# Base64

`base64_encode` of the output module and `base64url_decode` of the identity module are inverse to
each other, with or without padding and in both alphabets.
-/

namespace ApiSensor

/-! ## The two codecs -/

/-- The constant `TABLE` of `base64_encode`. -/
def base64Table : Bytes :=
  bytes "ABCDEFGHIJKLMNOPQRSTUVWXYZabcdefghijklmnopqrstuvwxyz0123456789+/"

/-- One turn of the loop of `base64_encode`. -/
def encodeChunk (chunk : Bytes) : Bytes :=
  let b0 := (chunk.getD 0 0).toUInt32
  let b1 := (chunk.getD 1 0).toUInt32
  let b2 := (chunk.getD 2 0).toUInt32
  let n := b0 <<< 16 ||| b1 <<< 8 ||| b2
  let digit (bits : UInt32) : UInt8 := base64Table.getD (bits &&& 0x3f).toNat 0
  [digit (n >>> 18), digit (n >>> 12),
    if 1 < chunk.length then digit (n >>> 6) else '='.toUInt8,
    if 2 < chunk.length then digit n else '='.toUInt8]

/-- The loop of `base64_encode`, along `chunks(3)`. -/
def encodeChunks : Bytes → Bytes
  | b0 :: b1 :: b2 :: rest => encodeChunk [b0, b1, b2] ++ encodeChunks rest
  | [] => []
  | short => encodeChunk short

/-- `base64_encode`. -/
def base64Encode (data : Bytes) : Str := (fromUtf8 (encodeChunks data)).getD []

/-- `b64val`. -/
def b64val (c : UInt8) : Option UInt8 :=
  if 'A'.toUInt8 ≤ c ∧ c ≤ 'Z'.toUInt8 then some (c - 'A'.toUInt8)
  else if 'a'.toUInt8 ≤ c ∧ c ≤ 'z'.toUInt8 then some (c - 'a'.toUInt8 + 26)
  else if '0'.toUInt8 ≤ c ∧ c ≤ '9'.toUInt8 then some (c - '0'.toUInt8 + 52)
  else if c = '+'.toUInt8 then some 62
  else if c = '/'.toUInt8 then some 63
  else if c = '='.toUInt8 then some 0
  else none

/-- The loop of `base64url_decode`.  Up to three characters at the end are not looked at. -/
def decodeGroups : Bytes → Option Bytes
  | s0 :: s1 :: s2 :: s3 :: rest => do
      let a ← b64val s0
      let b ← b64val s1
      let c ← b64val s2
      let d ← b64val s3
      let second := if s2 ≠ '='.toUInt8 then [b <<< 4 ||| c >>> 2] else []
      let third := if s3 ≠ '='.toUInt8 then [c <<< 6 ||| d] else []
      return [a <<< 2 ||| b >>> 4] ++ second ++ third ++ (← decodeGroups rest)
  | _ => some []

/-- The standard alphabet for the URL-safe one. -/
def standardByte (b : UInt8) : UInt8 :=
  if b = '-'.toUInt8 then '+'.toUInt8 else if b = '_'.toUInt8 then '/'.toUInt8 else b

/-- `base64url_decode`. -/
def base64UrlDecode (input : Str) : Option Bytes :=
  let s := (utf8 input).map standardByte
  decodeGroups (match s.length % 4 with
    | 2 => s ++ ['='.toUInt8, '='.toUInt8]
    | 3 => s ++ ['='.toUInt8]
    | _ => s)

/-! ## Bits -/

theorem toNat_joined {x y : UInt8} {k : ℕ} (small : k < 8) (fits : y.toNat < 2 ^ k) :
    (x <<< UInt8.ofNat k ||| y).toNat = 2 ^ k * (x.toNat % 2 ^ (8 - k)) + y.toNat := by
  have whole : 2 ^ 8 = 2 ^ k * 2 ^ (8 - k) := by rw [← Nat.pow_add, Nat.add_sub_cancel' small.le]
  have shift : (UInt8.ofNat k).toNat % 8 = k := by
    rw [UInt8.toNat_ofNat']
    omega
  rw [UInt8.toNat_or, UInt8.toNat_shiftLeft, shift, Nat.shiftLeft_eq, Nat.mul_comm, whole,
    Nat.mul_mod_mul_left, Nat.two_pow_add_eq_or_of_lt fits]

theorem toNat_packed (b0 b1 b2 : UInt8) :
    (b0.toUInt32 <<< 16 ||| b1.toUInt32 <<< 8 ||| b2.toUInt32).toNat =
      65536 * b0.toNat + 256 * b1.toNat + b2.toNat := by
  have small0 := b0.toNat_lt
  have small1 := b1.toNat_lt
  have small2 := b2.toNat_lt
  have high : b0.toNat <<< 16 % 2 ^ 32 = 2 ^ 16 * b0.toNat := by rw [Nat.shiftLeft_eq]; omega
  have middle : b1.toNat <<< 8 % 2 ^ 32 = 2 ^ 8 * b1.toNat := by rw [Nat.shiftLeft_eq]; omega
  simp only [UInt32.toNat_or, UInt32.toNat_shiftLeft, UInt8.toNat_toUInt32, UInt32.reduceToNat,
    Nat.reduceMod, high, middle]
  rw [← Nat.two_pow_add_eq_or_of_lt (by omega : 2 ^ 8 * b1.toNat < 2 ^ 16),
    show 2 ^ 16 * b0.toNat + 2 ^ 8 * b1.toNat = 2 ^ 8 * (256 * b0.toNat + b1.toNat) by omega,
    ← Nat.two_pow_add_eq_or_of_lt small2]
  omega

theorem toNat_sextet (n : UInt32) {k unit : ℕ} (small : k < 32) (pow : 2 ^ k = unit) :
    (n >>> UInt32.ofNat k &&& 0x3f).toNat = n.toNat / unit % 64 := by
  have shift : (UInt32.ofNat k).toNat % 32 = k := by
    rw [UInt32.toNat_ofNat']
    omega
  rw [UInt32.toNat_and, UInt32.toNat_shiftRight, shift, Nat.shiftRight_eq_div_pow, pow]
  exact Nat.and_two_pow_sub_one_eq_mod _ 6

/-! ## Digits -/

/-- The digits of the encoding, without padding. -/
def sextets : Bytes → List ℕ
  | b0 :: b1 :: b2 :: rest =>
    [b0.toNat / 4, b0.toNat % 4 * 16 + b1.toNat / 16, b1.toNat % 16 * 4 + b2.toNat / 64,
      b2.toNat % 64] ++ sextets rest
  | [b0, b1] => [b0.toNat / 4, b0.toNat % 4 * 16 + b1.toNat / 16, b1.toNat % 16 * 4]
  | [b0] => [b0.toNat / 4, b0.toNat % 4 * 16]
  | [] => []

/-- The number of padding characters. -/
def padding (data : Bytes) : ℕ := (3 - data.length % 3) % 3

theorem digits_encodeChunk (b0 b1 b2 : UInt8) :
    let n := b0.toUInt32 <<< 16 ||| b1.toUInt32 <<< 8 ||| b2.toUInt32
    (n >>> 18 &&& 0x3f).toNat = b0.toNat / 4 ∧
      (n >>> 12 &&& 0x3f).toNat = b0.toNat % 4 * 16 + b1.toNat / 16 ∧
      (n >>> 6 &&& 0x3f).toNat = b1.toNat % 16 * 4 + b2.toNat / 64 ∧
      (n &&& 0x3f).toNat = b2.toNat % 64 := by
  intro n
  have packed : n.toNat = _ := toNat_packed b0 b1 b2
  have small0 := b0.toNat_lt
  have small1 := b1.toNat_lt
  have small2 := b2.toNat_lt
  have last : (n &&& 0x3f).toNat = n.toNat % 64 := Nat.and_two_pow_sub_one_eq_mod _ 6
  have first : (n >>> 18 &&& 0x3f).toNat = n.toNat / 262144 % 64 := toNat_sextet n (by decide) rfl
  have second : (n >>> 12 &&& 0x3f).toNat = n.toNat / 4096 % 64 := toNat_sextet n (by decide) rfl
  have third : (n >>> 6 &&& 0x3f).toNat = n.toNat / 64 % 64 := toNat_sextet n (by decide) rfl
  rw [first, second, third, last, packed]
  clear first second third last
  refine ⟨?_, ?_, ?_, ?_⟩ <;> omega

variable (data : Bytes)

/-- The encoding is its digits and the padding. -/
theorem encodeChunks_eq :
    encodeChunks data = (sextets data).map (base64Table.getD · 0) ++
      List.replicate (padding data) '='.toUInt8 := by
  fun_induction encodeChunks data with
  | case1 b0 b1 b2 rest induction =>
    obtain ⟨first, second, third, fourth⟩ := digits_encodeChunk b0 b1 b2
    have same : padding (b0 :: b1 :: b2 :: rest) = padding rest := by
      simp only [padding, List.length_cons]
      omega
    rw [induction, sextets, same, encodeChunk]
    simp [first, second, third, fourth]
  | case2 => rfl
  | case3 short notLong nonempty =>
    match short with
    | [] => exact absurd rfl nonempty
    | [b0] =>
      obtain ⟨first, second, -⟩ := digits_encodeChunk b0 0 0
      simp only [encodeChunk, List.getD_cons_zero, List.getD_cons_succ, List.getD_nil, first,
        second]
      rfl
    | [b0, b1] =>
      obtain ⟨first, second, third, -⟩ := digits_encodeChunk b0 b1 0
      simp only [encodeChunk, List.getD_cons_zero, List.getD_cons_succ, List.getD_nil, first,
        second, third]
      rfl
    | b0 :: b1 :: b2 :: rest => exact absurd rfl (notLong b0 b1 b2 rest)

theorem sextets_lt : ∀ digit ∈ sextets data, digit < 64 := by
  fun_induction sextets data with
  | case1 b0 b1 b2 rest induction =>
    have small0 := b0.toNat_lt
    have small1 := b1.toNat_lt
    have small2 := b2.toNat_lt
    simp only [List.cons_append, List.nil_append, List.forall_mem_cons]
    exact ⟨by omega, by omega, by omega, by omega, induction⟩
  | case2 b0 b1 =>
    have small0 := b0.toNat_lt
    have small1 := b1.toNat_lt
    simp
    omega
  | case3 b0 =>
    have small0 := b0.toNat_lt
    simp
    omega
  | case4 => simp

theorem length_sextets :
    (sextets data).length + padding data = 4 * ((data.length + 2) / 3) := by
  fun_induction sextets data with
  | case1 b0 b1 b2 rest induction =>
    simp only [padding, List.length_append, List.length_cons, List.length_nil] at induction ⊢
    omega
  | case2 | case3 | case4 => simp [padding]

/-! ## Decoding -/

theorem b64val_table : ∀ digit < 64, b64val (base64Table.getD digit 0) = some (UInt8.ofNat digit) ∧
    base64Table.getD digit 0 ≠ '='.toUInt8 := by
  decide +kernel

theorem joined_eq {x : ℕ} {y b : UInt8} {k unit rest : ℕ} (small : k < 8) (digit : x < 64)
    (pow : 2 ^ k = unit) (pow' : 2 ^ (8 - k) = rest) (fits : y.toNat < unit)
    (value : unit * (x % rest) + y.toNat = b.toNat) :
    UInt8.ofNat x <<< UInt8.ofNat k ||| y = b := by
  refine UInt8.toNat_inj.mp ?_
  rw [toNat_joined small (pow ▸ fits), toNat_byte (by omega), pow, pow', value]

theorem toNat_shifted {y : ℕ} (digit : y < 64) :
    (UInt8.ofNat y >>> 4).toNat = y / 16 ∧ (UInt8.ofNat y >>> 2).toNat = y / 4 := by
  simp only [UInt8.toNat_shiftRight, toNat_byte (show y < 256 by omega), UInt8.reduceToNat,
    Nat.reduceMod, Nat.shiftRight_eq_div_pow, Nat.reducePow, and_self]

/-- The three bytes of a group. -/
theorem group_bytes (b0 b1 b2 : UInt8) :
    UInt8.ofNat (b0.toNat / 4) <<< 2 ||| UInt8.ofNat (b0.toNat % 4 * 16 + b1.toNat / 16) >>> 4 =
        b0 ∧
      UInt8.ofNat (b0.toNat % 4 * 16 + b1.toNat / 16) <<< 4 |||
          UInt8.ofNat (b1.toNat % 16 * 4 + b2.toNat / 64) >>> 2 = b1 ∧
      UInt8.ofNat (b1.toNat % 16 * 4 + b2.toNat / 64) <<< 6 ||| UInt8.ofNat (b2.toNat % 64) = b2 := by
  have small0 := b0.toNat_lt
  have small1 := b1.toNat_lt
  have small2 := b2.toNat_lt
  have second := (toNat_shifted (by omega : b0.toNat % 4 * 16 + b1.toNat / 16 < 64)).1
  have third := (toNat_shifted (by omega : b1.toNat % 16 * 4 + b2.toNat / 64 < 64)).2
  have fourth := toNat_byte (show b2.toNat % 64 < 256 by omega)
  refine ⟨@joined_eq _ _ _ 2 4 64 (by decide) (by omega) rfl rfl ?_ ?_,
    @joined_eq _ _ _ 4 16 16 (by decide) (by omega) rfl rfl ?_ ?_,
    @joined_eq _ _ _ 6 64 4 (by decide) (by omega) rfl rfl ?_ ?_⟩
  · omega
  · omega
  · omega
  · omega
  · omega
  · omega

section Groups

variable {x y z w : ℕ} (lt0 : x < 64) (lt1 : y < 64)

include lt0 lt1

theorem decodeGroups_whole (lt2 : z < 64) (lt3 : w < 64) {rest data : Bytes}
    (decoded : decodeGroups rest = some data) :
    decodeGroups ([x, y, z, w].map (base64Table.getD · 0) ++ rest) =
      some ((UInt8.ofNat x <<< 2 ||| UInt8.ofNat y >>> 4) ::
        (UInt8.ofNat y <<< 4 ||| UInt8.ofNat z >>> 2) ::
        (UInt8.ofNat z <<< 6 ||| UInt8.ofNat w) :: data) := by
  have unpadded2 := (b64val_table z lt2).2
  have unpadded3 := (b64val_table w lt3).2
  simp only [List.map_cons, List.map_nil, List.cons_append, List.nil_append, decodeGroups,
    b64val_table x lt0, b64val_table y lt1, b64val_table z lt2, b64val_table w lt3, if_pos unpadded2,
    if_pos unpadded3, decoded]
  rfl

theorem decodeGroups_two (lt2 : z < 64) :
    decodeGroups ([x, y, z].map (base64Table.getD · 0) ++ ['='.toUInt8]) =
      some [UInt8.ofNat x <<< 2 ||| UInt8.ofNat y >>> 4,
        UInt8.ofNat y <<< 4 ||| UInt8.ofNat z >>> 2] := by
  have unpadded2 := (b64val_table z lt2).2
  simp only [List.map_cons, List.map_nil, List.cons_append, List.nil_append, decodeGroups,
    b64val_table x lt0, b64val_table y lt1, b64val_table z lt2, if_pos unpadded2]
  rfl

theorem decodeGroups_one :
    decodeGroups ([x, y].map (base64Table.getD · 0) ++ ['='.toUInt8, '='.toUInt8]) =
      some [UInt8.ofNat x <<< 2 ||| UInt8.ofNat y >>> 4] := by
  simp only [List.map_cons, List.map_nil, List.cons_append, List.nil_append, decodeGroups,
    b64val_table x lt0, b64val_table y lt1]
  rfl

end Groups

theorem decodeGroups_encodeChunks : decodeGroups (encodeChunks data) = some data := by
  rw [encodeChunks_eq]
  have digits := sextets_lt data
  fun_induction sextets data with
  | case1 b0 b1 b2 rest induction =>
    obtain ⟨first, second, third⟩ := group_bytes b0 b1 b2
    have same : padding (b0 :: b1 :: b2 :: rest) = padding rest := by
      simp only [padding, List.length_cons]
      omega
    simp only [List.cons_append, List.nil_append, List.forall_mem_cons] at digits
    obtain ⟨lt0, lt1, lt2, lt3, digits⟩ := digits
    rw [same, List.map_append, List.append_assoc,
      decodeGroups_whole lt0 lt1 lt2 lt3 (induction digits), first, second, third]
  | case2 b0 b1 =>
    obtain ⟨first, second, -⟩ := group_bytes b0 b1 0
    obtain ⟨lt0, lt1, lt2, -⟩ := by simpa only [List.forall_mem_cons] using digits
    rw [← congrArg (fun byte => some [b0, byte]) second, ← congrArg (some [·, _]) first]
    exact decodeGroups_two lt0 lt1 lt2
  | case3 b0 =>
    obtain ⟨first, -⟩ := group_bytes b0 0 0
    obtain ⟨lt0, lt1, -⟩ := by simpa only [List.forall_mem_cons] using digits
    exact (decodeGroups_one lt0 lt1).trans (congrArg (some [·]) first)
  | case4 => rfl

/-! ## Texts -/

/-- The text without padding. -/
def unpadded (text : Str) : Str := text.filter (· ≠ '=')

/-- The URL-safe alphabet for the standard one. -/
def urlChar (c : Char) : Char := if c = '+' then '-' else if c = '/' then '_' else c

/-- The text in the URL-safe alphabet. -/
def urlSafe (text : Str) : Str := text.map urlChar

/-- A digit as a character. -/
def digitChar64 (digit : ℕ) : Char := Char.ofNat (base64Table.getD digit 0).toNat

theorem digitChar64_table : ∀ digit < 64,
    (String.utf8EncodeChar (digitChar64 digit) = [base64Table.getD digit 0] ∧
      digitChar64 digit ≠ '=') ∧
    (String.utf8EncodeChar (digitChar64 digit)).map standardByte = [base64Table.getD digit 0] ∧
      (String.utf8EncodeChar (urlChar (digitChar64 digit))).map standardByte =
        [base64Table.getD digit 0] := by
  decide +kernel

theorem utf8_padding (count : ℕ) :
    utf8 (List.replicate count '=') = List.replicate count '='.toUInt8 := by
  induction count with
  | zero => rfl
  | succ count induction => exact congrArg ('='.toUInt8 :: ·) induction

theorem map_utf8 {items : List ℕ} {f : ℕ → Char} {g : ℕ → UInt8} {h : UInt8 → UInt8}
    (each : ∀ item ∈ items, (String.utf8EncodeChar (f item)).map h = [g item]) :
    (utf8 (items.map f)).map h = items.map g := by
  induction items with
  | nil => rfl
  | cons item items induction =>
    obtain ⟨head, tail⟩ := List.forall_mem_cons.mp each
    rw [List.map_cons, utf8_cons, List.map_append, head, induction tail]
    rfl

theorem utf8_digits :
    utf8 ((sextets data).map digitChar64 ++ List.replicate (padding data) '=') =
      encodeChunks data := by
  have digits := @map_utf8 (sextets data) digitChar64 (base64Table.getD · 0) id fun digit member => by
    rw [List.map_id]
    exact (digitChar64_table digit (sextets_lt data digit member)).1.1
  rw [List.map_id] at digits
  rw [utf8_append, digits, utf8_padding, encodeChunks_eq]

theorem base64Encode_eq :
    base64Encode data = (sextets data).map digitChar64 ++ List.replicate (padding data) '=' := by
  rw [base64Encode, ← utf8_digits, fromUtf8_utf8]
  rfl

theorem unpadded_base64Encode :
    unpadded (base64Encode data) = (sextets data).map digitChar64 ++ List.replicate 0 '=' := by
  have kept : ∀ c ∈ (sextets data).map digitChar64, c ≠ '=' := by
    intro c member
    obtain ⟨digit, inside, rfl⟩ := List.mem_map.mp member
    exact (digitChar64_table digit (sextets_lt data digit inside)).1.2
  rw [base64Encode_eq, unpadded, List.filter_append, List.filter_eq_self.mpr (by simpa using kept)]
  simp

theorem urlSafe_digits (digits : List ℕ) (count : ℕ) :
    urlSafe (digits.map digitChar64 ++ List.replicate count '=') =
      digits.map (urlChar ∘ digitChar64) ++ List.replicate count '=' := by
  rw [urlSafe, List.map_append, List.map_map, List.map_replicate]
  rfl

/-- Digits in either alphabet, with all padding or none, are decoded. -/
theorem base64UrlDecode_digits {data : Bytes} {f : ℕ → Char}
    (standard : ∀ digit < 64,
      (String.utf8EncodeChar (f digit)).map standardByte = [base64Table.getD digit 0])
    {count : ℕ} (padded : count = padding data ∨ count = 0) :
    base64UrlDecode ((sextets data).map f ++ List.replicate count '=') = some data := by
  have bytes_eq : (utf8 ((sextets data).map f ++ List.replicate count '=')).map standardByte =
      (sextets data).map (base64Table.getD · 0) ++ List.replicate count '='.toUInt8 := by
    rw [utf8_append, List.map_append, utf8_padding, List.map_replicate,
      map_utf8 fun digit member => standard digit (sextets_lt data digit member)]
    rfl
  have length := length_sextets data
  rw [base64UrlDecode, bytes_eq, ← decodeGroups_encodeChunks data, encodeChunks_eq,
    List.length_append, List.length_map, List.length_replicate]
  congr 1
  rcases padded with rfl | rfl
  · rw [show ((sextets data).length + padding data) % 4 = 0 by omega]
    rfl
  · -- the padding that is missing is added
    have few : padding data < 3 := Nat.mod_lt _ (by decide)
    rw [Nat.add_zero, List.replicate_zero, List.append_nil]
    generalize padding data = count at length few
    match count with
    | 0 =>
      rw [show (sextets data).length % 4 = 0 by omega]
      exact (List.append_nil _).symm
    | 1 =>
      rw [show (sextets data).length % 4 = 3 by omega]
      rfl
    | 2 =>
      rw [show (sextets data).length % 4 = 2 by omega]
      rfl

theorem base64UrlDecode_base64Encode :
    base64UrlDecode (base64Encode data) = some data := by
  rw [base64Encode_eq]
  exact base64UrlDecode_digits (fun digit lt => (digitChar64_table digit lt).2.1) (.inl rfl)

/-- `base64url_decode` inverts `base64_encode`, with or without padding and in both alphabets.  So
the encoding is injective; every group of up to three bytes takes four characters. -/
theorem base64_inverse (data : Bytes) :
    base64UrlDecode (base64Encode data) = some data ∧
      base64UrlDecode (unpadded (base64Encode data)) = some data ∧
      base64UrlDecode (urlSafe (base64Encode data)) = some data ∧
      base64UrlDecode (urlSafe (unpadded (base64Encode data))) = some data ∧
      Function.Injective base64Encode ∧
      strLen (base64Encode data) = 4 * ((data.length + 2) / 3) := by
  have standard := fun digit lt => (digitChar64_table digit lt).2.1
  have url := fun digit lt => (digitChar64_table digit lt).2.2
  refine ⟨base64UrlDecode_base64Encode data, ?_, ?_, ?_, fun first second same => ?_, ?_⟩
  · rw [unpadded_base64Encode]
    exact base64UrlDecode_digits standard (.inr rfl)
  · rw [base64Encode_eq, urlSafe_digits]
    exact base64UrlDecode_digits url (.inl rfl)
  · rw [unpadded_base64Encode, urlSafe_digits]
    exact base64UrlDecode_digits url (.inr rfl)
  · have decoded := base64UrlDecode_base64Encode first
    rw [same, base64UrlDecode_base64Encode second] at decoded
    exact (Option.some.inj decoded).symm
  · rw [← length_utf8, base64Encode_eq, utf8_digits, encodeChunks_eq, List.length_append,
      List.length_map, List.length_replicate, length_sextets]

end ApiSensor
