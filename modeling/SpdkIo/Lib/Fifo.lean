import Mathlib.Data.List.Nodup
import Mathlib.Logic.Function.Basic

/-!
# Queues with a history

One first-in first-out queue for each key, with the logs of all that was pushed and of all that was
popped. A `Fifo` carries the law of a queue as a field: for each key, what was popped followed by
what is queued is what was pushed.
-/

/-- The entries of a log for the key `k`. -/
def forKey {κ α : Type*} [DecidableEq κ] (k : κ) (log : List (κ × α)) : List α :=
  (log.filter (·.1 = k)).map (·.2)

section forKey

variable {κ α β : Type*} [DecidableEq κ] {k : κ}

@[simp] theorem forKey_append (l l' : List (κ × α)) :
    forKey k (l ++ l') = forKey k l ++ forKey k l' := by
  simp [forKey]

@[simp] theorem forKey_singleton_self (a : α) : forKey k [(k, a)] = [a] := by
  simp [forKey]

theorem forKey_singleton_ne {k' : κ} (h : k' ≠ k) (a : α) : forKey k [(k', a)] = [] := by
  simp [forKey, h]

theorem forKey_map (f : α → β) (log : List (κ × α)) :
    forKey k (log.map fun p => (p.1, f p.2)) = (forKey k log).map f := by
  simp [forKey, List.filter_map, Function.comp_def]

/-- Entries that are distinct in the whole log are distinct for a key. -/
theorem forKey_nodup {f : α → β} {log : List (κ × α)} (h : (log.map fun p => f p.2).Nodup) :
    ((forKey k log).map f).Nodup := by
  rw [forKey, List.map_map]
  exact h.sublist (List.filter_sublist.map _)

end forKey

/-- Queues of `α`, one for each key in `κ`. -/
structure Fifo (κ α : Type*) [DecidableEq κ] where
  queue : κ → List α
  pushed : List (κ × α)
  popped : List (κ × α)
  fifo : ∀ k, forKey k popped ++ queue k = forKey k pushed

namespace Fifo

variable {κ α β : Type*} [DecidableEq κ]

def empty : Fifo κ α where
  queue _ := []
  pushed := []
  popped := []
  fifo _ := rfl

def push (q : Fifo κ α) (k : κ) (a : α) : Fifo κ α where
  queue := Function.update q.queue k (q.queue k ++ [a])
  pushed := q.pushed ++ [(k, a)]
  popped := q.popped
  fifo k' := by
    rcases eq_or_ne k' k with rfl | hne
    · rw [Function.update_self, forKey_append, forKey_singleton_self, ← q.fifo, List.append_assoc]
    · rw [Function.update_of_ne hne, forKey_append, forKey_singleton_ne hne.symm, List.append_nil,
        q.fifo]

theorem queue_push (q : Fifo κ α) (k : κ) (a : α) :
    (q.push k a).queue = Function.update q.queue k (q.queue k ++ [a]) := rfl

/-- The oldest entry of `k`, and the queues without it. -/
def pop (q : Fifo κ α) (k : κ) : Option (α × Fifo κ α) :=
  match h : q.queue k with
  | [] => none
  | a :: as => some (a,
    { queue := Function.update q.queue k as
      pushed := q.pushed
      popped := q.popped ++ [(k, a)]
      fifo := fun k' => by
        rcases eq_or_ne k' k with rfl | hne
        · rw [Function.update_self, forKey_append, forKey_singleton_self, ← q.fifo, h,
            List.append_assoc]
          rfl
        · rw [Function.update_of_ne hne, forKey_append, forKey_singleton_ne hne.symm,
            List.append_nil, q.fifo] })

variable {q q' : Fifo κ α} {k k' : κ} {a b : α}

theorem mem_push (h : b ∈ (q.push k a).queue k') : (k' = k ∧ b = a) ∨ b ∈ q.queue k' := by
  rcases eq_or_ne k' k with rfl | hne
  · rw [queue_push, Function.update_self] at h
    rcases List.mem_append.1 h with h | h
    · exact .inr h
    · exact .inl ⟨rfl, List.mem_singleton.1 h⟩
  · rw [queue_push, Function.update_of_ne hne] at h
    exact .inr h

/-- What a pop does: it takes the head of one queue and logs it. -/
theorem pop_eq_some (h : q.pop k = some (a, q')) :
    ∃ as, q.queue k = a :: as ∧ q'.queue = Function.update q.queue k as ∧
      q'.pushed = q.pushed ∧ q'.popped = q.popped ++ [(k, a)] := by
  unfold pop at h
  split at h
  · cases h
  · rename_i b bs hq
    cases h
    exact ⟨bs, hq, rfl, rfl, rfl⟩

/-- Entries pushed once are queued once. -/
theorem queue_nodup {f : α → β} (h : (q.pushed.map fun p => f p.2).Nodup) :
    ((q.queue k).map f).Nodup := by
  have hk := forKey_nodup (k := k) h
  rw [← q.fifo, List.map_append] at hk
  exact hk.of_append_right

end Fifo
