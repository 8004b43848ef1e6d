import Mathlib.Logic.Function.Basic
import SpdkIo.Lib.Boxes

/-!
# Local variables

A store of local variables with block scope: `declare` makes a variable, and the end of a block
removes the variables that were declared in it. A pointer to a removed variable reads as `none`; an
address is not used again. A `Locals` carries as a field that the addresses from `next` on are free.
-/

/-- The local variables that are alive, with their values in `α`. -/
structure Locals (α : Type) where
  value : Addr → Option α
  next : Addr
  fresh : ∀ a, next ≤ a → value a = none

namespace Locals

variable {α β : Type}

def empty : Locals α := ⟨fun _ => none, 0, fun _ _ => rfl⟩

/-- What is read through a pointer. -/
def get (l : Locals α) (a : Addr) : Option α := l.value a

/-- `let mut x = v`; the address of `x`. -/
def declare (v : α) : StateM (Locals α) Addr := fun l =>
  (l.next,
    { value := Function.update l.value l.next (some v)
      next := l.next + 1
      fresh := fun a ha => by
        rw [Function.update_of_ne (Nat.ne_of_gt (Nat.lt_of_succ_le ha))]
        exact l.fresh a (Nat.le_of_succ_le ha) })

/-- An assignment to the variable at `a`. -/
def modify (a : Addr) (f : α → α) : StateM (Locals α) Unit := fun l =>
  ((),
    { value := Function.update l.value a ((l.value a).map f)
      next := l.next
      fresh := fun b hb => by
        by_cases hab : b = a
        · subst hab
          rw [Function.update_self, l.fresh b hb]
          rfl
        · rw [Function.update_of_ne hab]
          exact l.fresh b hb })

/-- `if let Some(v) = o { .. }` with an assignment. -/
def modifySome (a : Addr) (o : Option β) (f : β → α → α) : StateM (Locals α) Unit :=
  match o with
  | some v => modify a (f v)
  | none => pure ()

/-- The end of the block that began with the variables of `outer`. -/
def endBlock (outer l : Locals α) : Locals α where
  value a := if a < outer.next then l.value a else none
  next := l.next
  fresh a ha := by
    split
    · exact l.fresh a ha
    · rfl

/-- A block: the variables declared in `body` are removed at its end. -/
def block (body : StateM (Locals α) β) : StateM (Locals α) β := fun l =>
  let (r, l') := body l
  (r, endBlock l l')

variable {l l' : Locals α} {a : Addr}

@[simp] theorem declare_fst (v : α) : (declare v l).1 = l.next := rfl

@[simp] theorem get_declare (v : α) : (declare v l).2.get l.next = some v :=
  Function.update_self _ _ _

@[simp] theorem get_modify (f : α → α) : (modify a f l).2.get a = (l.get a).map f :=
  Function.update_self _ _ _

@[simp] theorem get_modifySome (o : Option β) (f : β → α → α) :
    (modifySome a o f l).2.get a = (l.get a).map fun x => o.elim x (f · x) := by
  cases o with
  | none =>
    show l.get a = (l.get a).map id
    rw [Option.map_id, id]
  | some v => exact get_modify _

theorem bind_apply {γ : Type} (m : StateM (Locals α) β) (f : β → StateM (Locals α) γ) :
    (m >>= f) l = f (m l).1 (m l).2 := rfl

theorem pure_apply (b : β) : (pure b : StateM (Locals α) β) l = (b, l) := rfl

/-- A pointer to a variable of a block that has ended reads nothing. -/
theorem get_block {body : StateM (Locals α) β} (h : l.next ≤ a) : (block body l).2.get a = none :=
  if_neg (Nat.not_lt.2 h)

@[simp] theorem block_fst (body : StateM (Locals α) β) : (block body l).1 = (body l).1 := rfl

end Locals
