import SpdkIo.Lib.Boxes
import SpdkIo.Lib.Table

/-!
# Owners of boxes

Entries of a table that hold the address of a box (a context, given to foreign code), where the box
holds the number of the entry. `Boxes.Owned` says that every context leads back to its own entry:
whoever is given the context gets the entry that it was made for. The lemmas are one for each way
in which the table and the boxes change together.
-/

namespace Boxes

variable {α : Type*}

/-- The box at the context of an entry holds the number of the entry. -/
def Owned (h : Boxes Nat) (l : List α) (ctx : α → Option Addr) : Prop :=
  ∀ i a c, l[i]? = some a → ctx a = some c → h.get c = some i

namespace Owned

variable {h h' : Boxes Nat} {l : List α} {ctx : α → Option Addr} {i : Nat} {a b : α} {c : Addr}

theorem nil : Owned h [] ctx := fun _ _ _ ha => by cases ha

theorem get (ho : Owned h l ctx) (ha : l[i]? = some a) (hc : ctx a = some c) :
    h.get c = some i :=
  ho i a c ha hc

/-- An entry changes, and keeps its context. -/
theorem set (ho : Owned h l ctx) (ha : l[i]? = some a) (hb : ctx b = ctx a) :
    Owned h (l.set i b) ctx := by
  intro j x d hj hd
  rcases Table.set_cases hj with ⟨rfl, rfl⟩ | ⟨-, hj⟩
  · exact ho.get ha (hb ▸ hd)
  · exact ho.get hj hd

/-- A new entry without a context. -/
theorem append (ho : Owned h l ctx) (hb : ctx b = none) : Owned h (l ++ [b]) ctx := by
  intro j x d hj hd
  rcases Table.append_cases hj with ⟨-, rfl⟩ | hj
  · cases hb.symm.trans hd
  · exact ho.get hj hd

/-- A new entry, with the context of a new box or none. -/
theorem append_intoRaw (ho : Owned h l ctx) (hi : h.intoRaw l.length c = some h')
    (hb : ∀ d, ctx b = some d → d = c) : Owned h' (l ++ [b]) ctx := by
  intro j x d hj hd
  rcases Table.append_cases hj with ⟨rfl, rfl⟩ | hj
  · rw [hb d hd]
    exact get_intoRaw hi
  · exact get_of_intoRaw hi (ho.get hj hd)

/-- An entry gets the context of a new box, or none. -/
theorem set_intoRaw (ho : Owned h l ctx) (hi : h.intoRaw i c = some h')
    (hb : ∀ d, ctx b = some d → d = c) : Owned h' (l.set i b) ctx := by
  intro j x d hj hd
  rcases Table.set_cases hj with ⟨rfl, rfl⟩ | ⟨-, hj⟩
  · rw [hb d hd]
    exact get_intoRaw hi
  · exact get_of_intoRaw hi (ho.get hj hd)

/-- The box of an entry is taken, and the entry loses its context. -/
theorem set_fromRaw (ho : Owned h l ctx) (ha : l[i]? = some a) (hc : ctx a = some c)
    (hb : ctx b = none) : Owned (h.fromRaw c).2 (l.set i b) ctx := by
  intro j x d hj hd
  rcases Table.set_cases hj with ⟨-, rfl⟩ | ⟨hne, hj⟩
  · cases hb.symm.trans hd
  · exact get_fromRaw (ho.get ha hc) (ho.get hj hd) hne

end Owned

end Boxes
