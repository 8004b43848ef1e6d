import Mathlib.Data.List.Infix
import Mathlib.Data.List.TakeWhile
import Mathlib.Tactic.Common

/-!
# UTF-8

A string and its bytes. `encode` is the UTF-8 encoding of a list of characters, `decode` the check
and the decoding of a list of bytes (`str::from_utf8`), which undo each other (`decode_eq_some`).
The encoding of a text is a prefix of another one's only if the text is (`prefix_of_encode`), and
its zero bytes are its NUL characters (`takeWhile_encode`). `decodeLossy` decodes any bytes
(`String::from_utf8_lossy`): each longest beginning of an encoding that is not continued becomes one
replacement character.
-/

namespace Utf8

/-- The bytes of a string. -/
def encode (s : List Char) : List UInt8 := s.flatMap String.utf8EncodeChar

/-- The string with these bytes, if they are UTF-8. -/
def decode (bytes : List UInt8) : Option (List Char) :=
  (String.fromUTF8? bytes.toByteArray).map String.toList

@[simp] theorem encode_nil : encode [] = [] := rfl

@[simp] theorem encode_append (s t : List Char) : encode (s ++ t) = encode s ++ encode t := by
  simp [encode]

theorem encode_cons (c : Char) (s : List Char) :
    encode (c :: s) = String.utf8EncodeChar c ++ encode s := by
  simp [encode]

theorem toByteArray_ofList (s : List Char) :
    (String.ofList s).toByteArray = (encode s).toByteArray := by
  rw [String.toByteArray_ofList]
  rfl

theorem encode_injective {s t : List Char} (h : encode s = encode t) : s = t := by
  have hb : (String.ofList s).toByteArray = (String.ofList t).toByteArray := by
    rw [toByteArray_ofList, toByteArray_ofList, h]
  have hl := congrArg String.toList (String.toByteArray_inj.1 hb)
  rwa [String.toList_ofList, String.toList_ofList] at hl

/-- **Decoding undoes encoding**, and only encodings are decoded. -/
theorem decode_eq_some {bytes : List UInt8} {s : List Char} :
    decode bytes = some s ↔ bytes = encode s := by
  unfold decode String.fromUTF8?
  constructor
  · intro h
    split at h
    · rename_i hv
      rw [Option.map_some, Option.some.injEq] at h
      have hstr : String.fromUTF8 bytes.toByteArray hv = String.ofList s := by
        rw [← h, String.ofList_toList]
      have hb := congrArg String.toByteArray hstr
      rw [toByteArray_ofList] at hb
      exact List.toByteArray_inj.1 hb
    · cases h
  · rintro rfl
    have hv : (encode s).toByteArray.IsValidUTF8 := .intro s rfl
    have hstr : String.fromUTF8 (encode s).toByteArray hv = String.ofList s := by
      rw [← String.toByteArray_inj, toByteArray_ofList]
      rfl
    rw [dif_pos hv, Option.map_some, hstr, String.toList_ofList]

/-- **The encoding of a text is a prefix only if the text is.** -/
theorem prefix_of_encode {s t : List Char} (h : encode s <+: encode t) : s <+: t := by
  induction s generalizing t with
  | nil => exact List.nil_prefix
  | cons c s ih =>
    obtain ⟨r, hr⟩ := h
    rw [encode_cons, List.append_assoc] at hr
    cases t with
    | nil => simp at hr
    | cons d t =>
      -- the first character is decoded from the common bytes
      have hc := @ByteArray.utf8DecodeChar?_utf8EncodeChar_append (encode s ++ r).toByteArray c
      have hd := @ByteArray.utf8DecodeChar?_utf8EncodeChar_append (encode t).toByteArray d
      rw [encode_cons] at hr
      rw [← List.toByteArray_append, hr, List.toByteArray_append, hd, Option.some.injEq] at hc
      subst hc
      rw [List.append_cancel_left_eq] at hr
      exact (List.prefix_cons_inj d).2 (ih ⟨r, hr⟩)

/-! ## Any bytes -/

/-- The bytes that follow the second byte of a character. -/
def isContinuation (b : UInt8) : Bool := 0x80 ≤ b && b ≤ 0xBF

/-- An encoding can begin with the bytes `first` and `second`. -/
def begins (first second : UInt8) : Bool :=
  if first = 0xE0 then 0xA0 ≤ second && second ≤ 0xBF
  else if first = 0xED then 0x80 ≤ second && second ≤ 0x9F
  else if first = 0xF0 then 0x90 ≤ second && second ≤ 0xBF
  else if first = 0xF4 then 0x80 ≤ second && second ≤ 0x8F
  else 0xC2 ≤ first && first ≤ 0xF3 && isContinuation second

/-- The length of the longest beginning of an encoding, of bytes that begin with no character. -/
def invalidLength : List UInt8 → Nat
  | first :: second :: third :: _ =>
    if begins first second then if 0xF0 ≤ first && isContinuation third then 3 else 2 else 1
  | [first, second] => if begins first second then 2 else 1
  | _ => 1

/-- The first character of the bytes, if they begin with one. -/
def firstChar (bytes : List UInt8) : Option Char := bytes.toByteArray.utf8DecodeChar? 0

/-- At most `n` characters of the bytes. -/
def decodeLossyUpTo : Nat → List UInt8 → List Char
  | _, [] => []
  | 0, _ => []
  | n + 1, bytes =>
    match firstChar bytes with
    | some c => c :: decodeLossyUpTo n (bytes.drop c.utf8Size)
    | none => '\uFFFD' :: decodeLossyUpTo n (bytes.drop (invalidLength bytes))

/-- `String::from_utf8_lossy`; every character takes a byte. -/
def decodeLossy (bytes : List UInt8) : List Char := decodeLossyUpTo bytes.length bytes

/-! ## NUL -/

theorem ofNat_eq_zero {n : Nat} (hn : n < 256) : (0 : UInt8) = UInt8.ofNat n ↔ n = 0 := by
  rw [← UInt8.toNat_inj, UInt8.toNat_ofNat_of_lt' hn]
  exact eq_comm

theorem zero_mem_utf8EncodeChar {c : Char} : 0 ∈ String.utf8EncodeChar c ↔ c = '\x00' := by
  have hc : c = '\x00' ↔ c.val.toNat = 0 := by
    rw [← Char.val_inj, ← UInt32.toNat_inj]
    rfl
  rw [hc, String.utf8EncodeChar]
  split
  · rename_i h
    rw [List.mem_singleton, ofNat_eq_zero (by omega)]
  split
  · simp only [List.mem_cons, List.not_mem_nil, or_false]
    rw [ofNat_eq_zero (by omega), ofNat_eq_zero (by omega)]
    omega
  split
  · simp only [List.mem_cons, List.not_mem_nil, or_false]
    rw [ofNat_eq_zero (by omega), ofNat_eq_zero (by omega), ofNat_eq_zero (by omega)]
    omega
  · simp only [List.mem_cons, List.not_mem_nil, or_false]
    rw [ofNat_eq_zero (by omega), ofNat_eq_zero (by omega), ofNat_eq_zero (by omega),
      ofNat_eq_zero (by omega)]
    omega

theorem zero_mem_encode {s : List Char} : 0 ∈ encode s ↔ '\x00' ∈ s := by
  rw [encode, List.mem_flatMap]
  constructor
  · rintro ⟨c, hc, h0⟩
    rwa [← zero_mem_utf8EncodeChar.1 h0]
  · exact fun h => ⟨_, h, zero_mem_utf8EncodeChar.2 rfl⟩

/-- The bytes before the first zero are those of the characters before the first NUL. -/
theorem takeWhile_encode (s : List Char) :
    (encode s).takeWhile (· != 0) = encode (s.takeWhile (· != '\x00')) := by
  induction s with
  | nil => rfl
  | cons c s ih =>
    rw [encode_cons, List.takeWhile_cons]
    by_cases hc : c = '\x00'
    · subst hc
      rfl
    · have hall : ∀ b ∈ String.utf8EncodeChar c, (b != 0) = true := by
        intro b hb
        rw [bne_iff_ne]
        rintro rfl
        exact hc (zero_mem_utf8EncodeChar.1 hb)
      rw [List.takeWhile_append_of_pos hall, ih, if_pos (by simpa using hc), encode_cons]

end Utf8
