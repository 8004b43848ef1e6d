import Mathlib.Data.List.TakeWhile
import Mathlib.Tactic.Common

/-!
# C character arrays

An array of C `char`s, which are signed, that holds a C string: the bytes before its first zero.
`store` copies bytes into it one by one and panics at an index out of bounds. What is stored in a
zeroed array with room for a zero is read back up to its first zero byte (`cstr_store`).
-/

/-- An array of C `char`s. -/
abbrev CField := List Int8

namespace CField

/-- An array of `n` zeros. -/
def zeroed (n : Nat) : CField := List.replicate n 0

/-- `field[i] = byte as i8` for each of the bytes in turn, from index `i` on; `none` is the panic of
an index out of bounds. -/
def store (field : CField) (i : Nat) : List UInt8 → Option CField
  | [] => some field
  | byte :: bytes =>
    if i < field.length then store (field.set i byte.toInt8) (i + 1) bytes else none

/-- The C string in the array. -/
def cstr (field : CField) : List UInt8 := (field.takeWhile (· != 0)).map Int8.toUInt8

@[simp] theorem length_zeroed (n : Nat) : (zeroed n).length = n := List.length_replicate

/-- A loop that is at the end of `pre` writes over the elements of `rest`. -/
theorem store_append {bytes : List UInt8} : ∀ {pre rest : CField}, bytes.length ≤ rest.length →
    store (pre ++ rest) pre.length bytes =
      some (pre ++ (bytes.map UInt8.toInt8 ++ rest.drop bytes.length)) := by
  induction bytes with
  | nil => simp [store]
  | cons byte bytes ih =>
    intro pre rest h
    cases rest with
    | nil => simp at h
    | cons r rest =>
      have hset : (pre ++ r :: rest).set pre.length byte.toInt8 =
          (pre ++ [byte.toInt8]) ++ rest := by
        simp [List.set_append_right]
      have hlen : pre.length + 1 = (pre ++ [byte.toInt8]).length := by simp
      simp only [List.length_cons] at h
      rw [store, if_pos (by simp), hset, hlen, ih (by omega)]
      simp

/-- Zeros behind the bytes do not change the C string. -/
theorem cstr_append_zeroed (bytes : List UInt8) {k : Nat} (hk : 0 < k) :
    cstr (bytes.map UInt8.toInt8 ++ zeroed k) = bytes.takeWhile (· != 0) := by
  unfold cstr
  induction bytes with
  | nil =>
    obtain ⟨k, rfl⟩ : ∃ j, k = j + 1 := ⟨k - 1, by omega⟩
    simp [zeroed, List.replicate_succ]
  | cons byte bytes ih =>
    have hzero : (byte.toInt8 != 0) = (byte != 0) := by
      rw [Bool.eq_iff_iff, bne_iff_ne, bne_iff_ne, not_iff_not]
      refine ⟨fun h => ?_, fun h => by rw [h]; rfl⟩
      rw [← UInt8.toUInt8_toInt8 byte, h]
      rfl
    simp only [List.map_cons, List.cons_append, List.takeWhile_cons, hzero]
    split
    · simp [ih]
    · rfl

/-- **What is read back** of bytes stored in a zeroed array with room for a zero. -/
theorem cstr_store {bytes : List UInt8} {n : Nat} (h : bytes.length < n) :
    ∃ field, store (zeroed n) 0 bytes = some field ∧ cstr field = bytes.takeWhile (· != 0) := by
  have hlen : bytes.length ≤ (zeroed n).length := by
    rw [length_zeroed]
    omega
  have hstore : store (zeroed n) 0 bytes =
      some (bytes.map UInt8.toInt8 ++ (zeroed n).drop bytes.length) := @store_append bytes [] _ hlen
  have hdrop : (zeroed n).drop bytes.length = zeroed (n - bytes.length) := by
    simp [zeroed]
  refine ⟨_, hstore, ?_⟩
  rw [hdrop]
  exact cstr_append_zeroed bytes (by omega)

/-- The C string is all that was written exactly when that has no zero. -/
theorem takeWhile_eq_self {bytes : List UInt8} : bytes.takeWhile (· != 0) = bytes ↔ 0 ∉ bytes := by
  rw [List.takeWhile_eq_self_iff]
  constructor
  · intro h h0
    have := h 0 h0
    revert this
    decide
  · intro h b hb
    rw [bne_iff_ne]
    rintro rfl
    exact h hb

end CField
