import SpdkIo.Event.Cores

/-!
# What the core iterator yields

`current` is `u32::MAX` before the first call and a core from then on, as no core is `u32::MAX`.
From a core the iterator yields the cores above it (`yields_above`), by induction on the list of
these.
-/

namespace SpdkIo.Event

variable {spdk : SpdkCores} {cores : Finset UInt32}

theorem next_first : CoreIterator.next spdk Cores.iter =
    (some spdk.getFirstCore, ⟨spdk.getFirstCore⟩) := rfl

/-- From a core, a next core is yielded. -/
theorem next_some {core : UInt32} (hcore : core ≠ u32Max) (hnext : spdk.getNextCore core ≠ u32Max) :
    CoreIterator.next spdk ⟨core⟩ = (some (spdk.getNextCore core), ⟨spdk.getNextCore core⟩) := by
  rw [CoreIterator.next, if_neg hcore]
  exact if_neg hnext

/-- From the last core, nothing is yielded, and the iterator stays at it. -/
theorem next_end {core : UInt32} (hcore : core ≠ u32Max) (hnext : spdk.getNextCore core = u32Max) :
    CoreIterator.next spdk ⟨core⟩ = (none, ⟨core⟩) := by
  rw [CoreIterator.next, if_neg hcore]
  exact if_pos hnext

/-- The head of an ascending list of the elements with `p` is the least of them. -/
theorem eq_head_of_least {p : UInt32 → Prop} {a b : UInt32} {l : List UInt32}
    (hsorted : (a :: l).Pairwise (· < ·)) (hmem : ∀ c, c ∈ a :: l ↔ p c) (hb : p b)
    (hle : ∀ c, p c → b ≤ c) : b = a := by
  rcases List.mem_cons.1 ((hmem b).2 hb) with hba | hbl
  · exact hba
  · have hab : a < b := (List.pairwise_cons.1 hsorted).1 b hbl
    exact absurd (hle a ((hmem a).1 List.mem_cons_self)) (UInt32.not_le.2 hab)

/-- The tail of an ascending list of the cores with `p` has those above its head. -/
theorem mem_tail_iff {p : UInt32 → Prop} {a : UInt32} {l : List UInt32}
    (hsorted : (a :: l).Pairwise (· < ·)) (hmem : ∀ c, c ∈ a :: l ↔ p c) (c : UInt32) :
    c ∈ l ↔ p c ∧ a < c := by
  refine ⟨fun hc => ?_, fun hc => ?_⟩
  · exact ⟨(hmem c).1 (List.mem_cons_of_mem a hc), (List.pairwise_cons.1 hsorted).1 c hc⟩
  · obtain ⟨hc, hac⟩ := hc
    rcases List.mem_cons.1 ((hmem c).2 hc) with rfl | hcl
    · exact absurd hac (UInt32.lt_irrefl c)
    · exact hcl

/-- **From a core the iterator yields the cores above it**, in increasing order. -/
theorem yields_above (h : spdk.Enumerates cores) (hmax : u32Max ∉ cores) {l : List UInt32}
    {core : UInt32} (hcore : core ∈ cores) (hsorted : l.Pairwise (· < ·))
    (hmem : ∀ c, c ∈ l ↔ c ∈ cores ∧ core < c) :
    Iter.Yields (CoreIterator.next spdk) ⟨core⟩ l := by
  have hne : ∀ c ∈ cores, c ≠ u32Max := fun c hc => ne_of_mem_of_not_mem hc hmax
  induction l generalizing core with
  | nil =>
    have hlast : spdk.getNextCore core = u32Max :=
      h.next_none fun c hc hlt => List.not_mem_nil ((hmem c).2 ⟨hc, hlt⟩)
    exact .ended (next_end (hne core hcore) hlast)
  | cons a l ih =>
    obtain ⟨ha, hlt⟩ := (hmem a).1 List.mem_cons_self
    have hnext : spdk.getNextCore core = a :=
      eq_head_of_least hsorted hmem (h.next_mem ha hlt) fun c hc => h.next_le hc.1 hc.2
    have hsome := next_some (hne core hcore) (hnext ▸ hne a ha)
    rw [hnext] at hsome
    refine .cons hsome (ih ha (List.pairwise_cons.1 hsorted).2 fun c => ?_)
    rw [mem_tail_iff hsorted hmem]
    exact ⟨fun hc => ⟨hc.1.1, hc.2⟩, fun hc => ⟨⟨hc.1, UInt32.lt_trans hlt hc.2⟩, hc.2⟩⟩

theorem exists_ascending (cores : Finset UInt32) :
    ∃ l : List UInt32, l.Pairwise (· < ·) ∧ (∀ c, c ∈ l ↔ c ∈ cores) ∧ l.length = cores.card := by
  refine ⟨cores.sort (fun a b => a ≤ b), ?_, fun c => Finset.mem_sort _, Finset.length_sort _⟩
  have hboth := (Finset.pairwise_sort cores fun a b => a ≤ b).and (Finset.sort_nodup cores _)
  exact hboth.imp fun hab => UInt32.lt_of_le_of_ne hab.1 hab.2

/-- **The iterator yields every core once, in increasing order**, and then nothing more; collecting
it ends. -/
theorem iter_yields (hne : cores.Nonempty) (hmax : u32Max ∉ cores) (h : spdk.Enumerates cores) :
    ∃ l : List UInt32, l.Pairwise (· < ·) ∧ (∀ c, c ∈ l ↔ c ∈ cores) ∧
      (∀ i, Iter.nth (CoreIterator.next spdk) i Cores.iter = l[i]?) ∧
      ∀ n, cores.card < n → Iter.collect (CoreIterator.next spdk) n Cores.iter = some l := by
  obtain ⟨l, hsorted, hmem, hlen⟩ := exists_ascending cores
  have hyields : Iter.Yields (CoreIterator.next spdk) Cores.iter l := by
    cases l with
    | nil =>
      obtain ⟨c, hc⟩ := hne
      exact absurd ((hmem c).2 hc) List.not_mem_nil
    | cons a l =>
      have hfirst : spdk.getFirstCore = a :=
        eq_head_of_least hsorted hmem (h.first_mem hne) h.first_le
      have ha : a ∈ cores := (hmem a).1 List.mem_cons_self
      refine .cons (next_first.trans (by rw [hfirst])) ?_
      exact yields_above h hmax ha (List.pairwise_cons.1 hsorted).2 (mem_tail_iff hsorted hmem)
  exact ⟨l, hsorted, hmem, hyields, fun n hn => Iter.collect_of_yields hyields (hlen ▸ hn)⟩

/-- The cores of the mask `0x5`. -/
def coreMask5 : SpdkCores where
  getFirstCore := 0
  getNextCore prev := if prev < 2 then 2 else u32Max

theorem coreMask5_enumerates : coreMask5.Enumerates {0, 2} where
  first_mem _ := by decide
  first_le core _ := UInt32.zero_le
  next_mem {prev core} hcore hlt := by
    have hprev : prev < 2 := by grind
    have hnext : coreMask5.getNextCore prev = 2 := if_pos hprev
    rw [hnext]
    exact ⟨by decide, hprev⟩
  next_le {prev core} hcore hlt := by grind [coreMask5]
  next_none {prev} h := if_neg (h 2 (by decide))

theorem iter_yields_mask5 :
    ∃ l : List UInt32, l.Pairwise (· < ·) ∧ (∀ c, c ∈ l ↔ c ∈ ({0, 2} : Finset UInt32)) ∧
      (∀ i, Iter.nth (CoreIterator.next coreMask5) i Cores.iter = l[i]?) ∧
      ∀ n, 2 < n → Iter.collect (CoreIterator.next coreMask5) n Cores.iter = some l :=
  iter_yields ⟨0, by decide⟩ (by decide) coreMask5_enumerates

end SpdkIo.Event
