import Mathlib.Data.List.AList

/-!
# Boxes on the heap

The boxes a program owns through raw pointers: `Box::into_raw` stores a value at an address the
allocator chooses, `Box::from_raw` takes it out and frees the address. The allocator never hands
out the address of a box that is still there, and may hand out a freed one again.

A pointer that is dangling, or was freed and is in use again, reads as `none` or as the value of
another box: nothing here assumes that a pointer is used properly.
-/

/-- The address of a box. -/
abbrev Addr := Nat

/-- The boxes that are allocated, with their values. -/
structure Boxes (α : Type*) where
  cells : AList fun _ : Addr => α

namespace Boxes

variable {α : Type*}

def empty : Boxes α := ⟨∅⟩

/-- The value of the box at `a`. -/
def get (h : Boxes α) (a : Addr) : Option α := h.cells.lookup a

/-- `Box::into_raw(Box::new(v))` at the address `a`, which must be free. -/
def intoRaw (h : Boxes α) (v : α) (a : Addr) : Option (Boxes α) :=
  if a ∈ h.cells then none else some ⟨h.cells.insert a v⟩

/-- `Box::from_raw`: the value at `a`, if there is a box, and the heap without it. -/
def fromRaw (h : Boxes α) (a : Addr) : Option α × Boxes α := (h.get a, ⟨h.cells.erase a⟩)

/-- The number of boxes. -/
def live (h : Boxes α) : Nat := h.cells.entries.length

section
variable {h h' : Boxes α} {v w : α} {a b : Addr}

theorem get_intoRaw (hi : h.intoRaw v a = some h') : h'.get a = some v := by
  unfold intoRaw at hi
  split at hi
  · cases hi
  · cases hi
    exact AList.lookup_insert _

/-- A new box leaves the others alone. -/
theorem get_of_intoRaw (hi : h.intoRaw v a = some h') (hb : h.get b = some w) :
    h'.get b = some w := by
  unfold intoRaw at hi
  split at hi
  · cases hi
  · rename_i ha
    cases hi
    have hne : b ≠ a := by
      rintro rfl
      exact ha (AList.lookup_isSome.1 (by rw [show h.cells.lookup b = some w from hb]; rfl))
    exact (AList.lookup_insert_ne hne).trans hb

theorem live_intoRaw (hi : h.intoRaw v a = some h') : h'.live = h.live + 1 := by
  unfold intoRaw at hi
  split at hi
  · cases hi
  · rename_i ha
    cases hi
    show (AList.insert a v h.cells).entries.length = _
    rw [AList.entries_insert_of_notMem ha]
    rfl

/-- Two boxes with different values are different: freeing one keeps the other. -/
theorem get_fromRaw (ha : h.get a = some v) (hb : h.get b = some w) (hne : v ≠ w) :
    (h.fromRaw a).2.get b = some w := by
  have hab : b ≠ a := by
    rintro rfl
    rw [ha] at hb
    exact hne (Option.some.inj hb)
  exact (AList.lookup_erase_ne hab).trans hb

theorem live_fromRaw (ha : h.get a = some v) : (h.fromRaw a).2.live + 1 = h.live := by
  have hm : (⟨a, v⟩ : Sigma fun _ : Addr => α) ∈ h.cells.entries := AList.mem_lookup_iff.1 ha
  have hlen : (List.kerase a h.cells.entries).length + 1 = h.cells.entries.length := by
    rw [List.kerase, List.length_eraseP_of_mem hm (by simp)]
    have := List.length_pos_of_mem hm
    omega
  exact hlen

end

end Boxes
