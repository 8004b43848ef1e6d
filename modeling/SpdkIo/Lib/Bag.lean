import Mathlib.Data.List.Perm.Basic

/-!
# Bags with a history

A bag from which entries are taken in any order, with the logs of all that was pushed and of all
that was popped. A `Bag` carries its law as a field: what was popped and what is pending is, in some
order, what was pushed.
-/

structure Bag (α : Type*) where
  pending : List α
  pushed : List α
  popped : List α
  perm : (popped ++ pending).Perm pushed

namespace Bag

variable {α : Type*}

def empty : Bag α := ⟨[], [], [], .refl _⟩

def push (b : Bag α) (a : α) : Bag α where
  pending := b.pending ++ [a]
  pushed := b.pushed ++ [a]
  popped := b.popped
  perm := by
    rw [← List.append_assoc]
    exact b.perm.append_right [a]

/-- The entry at `k`, and the bag without it. -/
def pop (b : Bag α) (k : Nat) : Option (α × Bag α) :=
  if h : k < b.pending.length then
    some (b.pending[k],
      { pending := b.pending.eraseIdx k
        pushed := b.pushed
        popped := b.popped ++ [b.pending[k]]
        perm := by
          rw [List.append_assoc]
          exact ((List.getElem_cons_eraseIdx_perm h).append_left b.popped).trans b.perm })
  else none

variable {b b' : Bag α} {a : α} {k : Nat}

/-- What a pop does: it moves one pending entry to the log. -/
theorem pop_eq_some (h : b.pop k = some (a, b')) :
    (a :: b'.pending).Perm b.pending ∧ b'.pushed = b.pushed ∧ b'.popped = b.popped ++ [a] := by
  unfold pop at h
  split at h
  · rename_i hk
    cases h
    exact ⟨List.getElem_cons_eraseIdx_perm hk, rfl, rfl⟩
  · cases h

/-- A pending entry is one that was pushed. -/
theorem mem_pushed (b : Bag α) : a ∈ b.pushed ↔ a ∈ b.popped ∨ a ∈ b.pending := by
  rw [← b.perm.mem_iff, List.mem_append]

end Bag
