import Mathlib.Data.Finset.Sort
import SpdkIo.Lib.Iter

/-!
# The reactor cores

`Cores::first`, `Cores::iter` and `CoreIterator` of `event.rs`. SPDK's part is a parameter:
`Enumerates` is its documented behaviour for the cores that the reactors run on.
-/

namespace SpdkIo.Event

/-- `u32::MAX`, and the `UINT32_MAX` of the C interface -/
def u32Max : UInt32 := 0xffffffff

/-- The functions of SPDK that go through the cores. -/
structure SpdkCores where
  /-- `spdk_env_get_first_core` -/
  getFirstCore : UInt32
  /-- `spdk_env_get_next_core` -/
  getNextCore : UInt32 → UInt32

/-- The first core is the least one, if there is one, and the next core the least one above the
argument, or `UINT32_MAX` if there is none. -/
structure SpdkCores.Enumerates (spdk : SpdkCores) (cores : Finset UInt32) : Prop where
  first_mem : cores.Nonempty → spdk.getFirstCore ∈ cores
  first_le : ∀ core ∈ cores, spdk.getFirstCore ≤ core
  next_mem : ∀ {prev core}, core ∈ cores → prev < core →
    spdk.getNextCore prev ∈ cores ∧ prev < spdk.getNextCore prev
  next_le : ∀ {prev core}, core ∈ cores → prev < core → spdk.getNextCore prev ≤ core
  next_none : ∀ {prev}, (∀ core ∈ cores, ¬ prev < core) → spdk.getNextCore prev = u32Max

variable (spdk : SpdkCores)

def Cores.first : UInt32 := spdk.getFirstCore

structure CoreIterator where
  current : UInt32
  deriving DecidableEq, Repr

def Cores.iter : CoreIterator where
  current := u32Max

def CoreIterator.next (self : CoreIterator) : Option UInt32 × CoreIterator :=
  if self.current = u32Max then
    let self := { self with current := Cores.first spdk }
    (some self.current, self)
  else
    let next := spdk.getNextCore self.current
    if next = u32Max then (none, self)
    else
      let self := { self with current := next }
      (some self.current, self)

end SpdkIo.Event
