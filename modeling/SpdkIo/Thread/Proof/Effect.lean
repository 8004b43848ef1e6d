import SpdkIo.Thread.Proof.Library
import SpdkIo.Thread.Spawn

/-!
# What a step of the thread library does

`step_effect`: a step moves its OS thread and changes at most one of the flag, the library and the
SPDK threads. `Held`: each SPDK thread is held by exactly one OS thread, as a value or on its way
in or out.
-/

namespace SpdkIo.Thread

/-- The SPDK thread on its way in or out. -/
def Pc.ids : Pc → List SpdkId
  | .setThread id | .exiting id | .clearThread id | .destroy id => [id]
  | _ => []

/-- In the init function, or about to lower the flag after it. -/
def Pc.initialising : Pc → Bool
  | .libInit _ _ | .libInitFailed _ _ => true
  | _ => false

/-- The SPDK threads that an OS thread holds. -/
def OsThread.held (o : OsThread) : List SpdkId := o.owned ++ o.pc.ids

variable {s s' : State} {i : OsId} {o o' : OsThread} {a : Action}

/-- What a step of the OS thread `i`, which is `o` before, does. -/
inductive Effect (i : OsId) (s : State) (o : OsThread) : State → Prop
  | move (o' : OsThread) : o'.held.Perm o.held → o.pc.initialising = false →
    o'.pc.initialising = false → (o'.pc.attaching = true → o.pc.attaching = true ∨ s.flag = true) →
    o'.pc ≠ .fini → Effect i s o (s.set i o')
  | raise (o' : OsThread) : s.flag = false → o'.held = o.held → o.pc = .idle →
    o'.pc.initialising = true → Effect i s o { s.set i o' with flag := true }
  | initOk (o' : OsThread) : o.pc.initialising = true → o'.held = o.held →
    o'.pc.initialising = false → o'.pc ≠ .fini → Effect i s o { s.set i o' with ready := true }
  | initFail (o' : OsThread) : o.pc.initialising = true → o'.held = o.held →
    o'.pc.initialising = true → Effect i s o (s.set i o')
  | lower (o' : OsThread) : o.pc.initialising = true → o'.held = o.held → o'.pc = .idle →
    Effect i s o { s.set i o' with flag := false }
  | create (o' : OsThread) : o.pc = .create → o'.held.Perm (s.next :: o.held) →
    o'.pc = .setThread s.next → Effect i s o
      { s.set i o' with threads := s.threads ++ [s.next], next := s.next + 1 }
  | destroy (o' : OsThread) (id : SpdkId) : o.pc = .destroy id → o.held.Perm (id :: o'.held) →
    o'.pc = .count → Effect i s o { s.set i o' with threads := s.threads.erase id }
  | finiSwap (o' : OsThread) : o.pc = .finiSwap → o'.held = o.held → o'.pc = .fini →
    Effect i s o { s.set i o' with flag := false }
  | fini (o' : OsThread) : o.pc = .fini → o'.held = o.held → o'.pc = .idle →
    Effect i s o { s.set i o' with ready := false }

/-- A step that only moves the OS thread, to where it is not creating an SPDK thread. -/
theorem Effect.leave (o' : OsThread) (hperm : o'.held.Perm o.held)
    (hinit : o.pc.initialising = false) (hinit' : o'.pc.initialising = false)
    (hatt : o'.pc.attaching = false) (hfini : o'.pc ≠ .fini) : Effect i s o (s.set i o') :=
  .move o' hperm hinit hinit' (fun h => by rw [hatt] at h; cases h) hfini

/-- The program counter moves, and with it no SPDK thread. -/
theorem held_pc {pc : Pc} (hids : pc.ids = o.pc.ids) (returned : Option (Result SpdkId))
    (current : Option SpdkId) : OsThread.held { o with pc, returned, current } = o.held := by
  simp [OsThread.held, hids]

/-- The flag is swapped. -/
theorem effect_threadLibInit {fn : InitFn} {name : List UInt8}
    (hs : s.threadLibInit i fn name = some s') : ∃ o, s.os[i]? = some o ∧ Effect i s o s' := by
  unfold State.threadLibInit at hs
  obtain ⟨o, ho, hs⟩ := Option.bind_eq_some_iff.1 hs
  refine ⟨o, ho, ?_⟩
  split at hs
  · rename_i hpc
    split at hs
    · rename_i hflag
      obtain rfl := Option.some.inj hs
      exact .move _ (.of_eq (held_pc (by rw [hpc]; rfl) _ _)) (by rw [hpc]; rfl) rfl
        (fun _ => .inr hflag) (fun h => by cases h)
    · rename_i hflag
      obtain rfl := Option.some.inj hs
      exact .raise _ (Bool.not_eq_true _ ▸ hflag) (held_pc (by rw [hpc]; rfl) _ _) hpc rfl
  · cases hs

/-- **What a step does.** -/
theorem step_effect (ha : a.actor = some i) (hs : s.step a = some s') :
    ∃ o, s.os[i]? = some o ∧ Effect i s o s' := by
  cases a with
  | spawn => cases ha
  | current j name =>
    obtain rfl := Option.some.inj ha
    exact effect_threadLibInit hs
  | currentWithMempoolSize j name size =>
    obtain rfl := Option.some.inj ha
    exact effect_threadLibInit hs
  | initRet j rc =>
    obtain rfl := Option.some.inj ha
    obtain ⟨o, ho, hs⟩ := Option.bind_eq_some_iff.1 hs
    refine ⟨o, ho, ?_⟩
    split at hs
    · rename_i hpc
      split at hs
      · obtain rfl := Option.some.inj hs
        exact .initFail _ (by rw [hpc]; rfl) (held_pc (by rw [hpc]; rfl) _ _) rfl
      · obtain rfl := Option.some.inj hs
        exact .initOk _ (by rw [hpc]; rfl) (held_pc (by rw [hpc]; rfl) _ _) rfl
          (fun h => by cases h)
    · cases hs
  | storeFalse j =>
    obtain rfl := Option.some.inj ha
    obtain ⟨o, ho, hs⟩ := Option.bind_eq_some_iff.1 hs
    refine ⟨o, ho, ?_⟩
    split at hs
    · rename_i hpc
      obtain rfl := Option.some.inj hs
      exact .lower _ (by rw [hpc]; rfl) (held_pc (by rw [hpc]; rfl) _ _) rfl
    · cases hs
  | attach j =>
    obtain rfl := Option.some.inj ha
    obtain ⟨o, ho, hs⟩ := Option.bind_eq_some_iff.1 hs
    refine ⟨o, ho, ?_⟩
    split at hs
    · rename_i name hpc
      split at hs
      · rename_i c hok
        obtain rfl := Option.some.inj hs
        have hatt : o.pc.attaching = true := by
          rw [hpc]
          simpa [Pc.attaching] using cstringNew_ok hok
        exact .move _ (.of_eq (held_pc (by rw [hpc]; rfl) _ _)) (by rw [hpc]; rfl) rfl
          (fun _ => .inl hatt) (fun h => by cases h)
      · obtain rfl := Option.some.inj hs
        exact .leave _ (.of_eq (held_pc (by rw [hpc]; rfl) _ _)) (by rw [hpc]; rfl) rfl rfl
          (fun h => by cases h)
    · cases hs
  | create j null =>
    obtain rfl := Option.some.inj ha
    obtain ⟨o, ho, hs⟩ := Option.bind_eq_some_iff.1 hs
    refine ⟨o, ho, ?_⟩
    split at hs
    · rename_i hpc
      split at hs
      · obtain rfl := Option.some.inj hs
        exact .leave _ (.of_eq (held_pc (by rw [hpc]; rfl) _ _)) (by rw [hpc]; rfl) rfl rfl
          (fun h => by cases h)
      · obtain rfl := Option.some.inj hs
        refine .create _ hpc ?_ rfl
        simp [OsThread.held, hpc, Pc.ids, List.perm_append_singleton]
    · cases hs
  | setThread j =>
    obtain rfl := Option.some.inj ha
    obtain ⟨o, ho, hs⟩ := Option.bind_eq_some_iff.1 hs
    refine ⟨o, ho, ?_⟩
    split at hs
    · rename_i hpc
      obtain rfl := Option.some.inj hs
      refine .leave _ ?_ (by rw [hpc]; rfl) rfl rfl (fun h => by cases h)
      simp [OsThread.held, hpc, Pc.ids]
    · cases hs
  | drop j id =>
    obtain rfl := Option.some.inj ha
    obtain ⟨o, ho, hs⟩ := Option.bind_eq_some_iff.1 hs
    refine ⟨o, ho, ?_⟩
    split at hs
    · rename_i hpc
      obtain ⟨hmem, hs⟩ := Option.ite_none_right_eq_some.1 hs
      obtain rfl := Option.some.inj hs
      refine .leave _ ?_ (by rw [hpc]; rfl) rfl rfl (fun h => by cases h)
      simp only [OsThread.held, hpc, Pc.ids, List.append_nil]
      exact (List.perm_append_singleton _ _).trans (List.perm_cons_erase hmem).symm
    · cases hs
  | pollExit j exited =>
    obtain rfl := Option.some.inj ha
    obtain ⟨o, ho, hs⟩ := Option.bind_eq_some_iff.1 hs
    refine ⟨o, ho, ?_⟩
    split at hs
    · rename_i id hpc
      split at hs
      · obtain rfl := Option.some.inj hs
        exact .leave _ (.of_eq (held_pc (by rw [hpc]; rfl) _ _)) (by rw [hpc]; rfl) rfl rfl
          (fun h => by cases h)
      · obtain rfl := Option.some.inj hs
        have hself : s.set j o = s := by
          obtain ⟨hlt, ho⟩ := List.getElem?_eq_some_iff.1 ho
          rw [State.set, ← ho, List.set_getElem_self]
        have hmove : Effect j s o (s.set j o) :=
          .leave _ (.refl _) (by rw [hpc]; rfl) (by rw [hpc]; rfl) (by rw [hpc]; rfl)
            (fun h => by rw [hpc] at h; cases h)
        rwa [hself] at hmove
    · cases hs
  | clearThread j =>
    obtain rfl := Option.some.inj ha
    obtain ⟨o, ho, hs⟩ := Option.bind_eq_some_iff.1 hs
    refine ⟨o, ho, ?_⟩
    split at hs
    · rename_i hpc
      obtain rfl := Option.some.inj hs
      exact .leave _ (.of_eq (held_pc (by rw [hpc]; rfl) _ _)) (by rw [hpc]; rfl) rfl rfl
          (fun h => by cases h)
    · cases hs
  | destroy j =>
    obtain rfl := Option.some.inj ha
    obtain ⟨o, ho, hs⟩ := Option.bind_eq_some_iff.1 hs
    refine ⟨o, ho, ?_⟩
    split at hs
    · rename_i id hpc
      obtain rfl := Option.some.inj hs
      refine .destroy _ id hpc ?_ rfl
      simp [OsThread.held, hpc, Pc.ids, List.perm_append_singleton]
    · cases hs
  | count j =>
    obtain rfl := Option.some.inj ha
    obtain ⟨o, ho, hs⟩ := Option.bind_eq_some_iff.1 hs
    refine ⟨o, ho, ?_⟩
    split at hs
    · rename_i hpc
      split at hs
      · obtain rfl := Option.some.inj hs
        exact .leave _ (.of_eq (held_pc (by rw [hpc]; rfl) _ _)) (by rw [hpc]; rfl) rfl rfl
          (fun h => by cases h)
      · obtain rfl := Option.some.inj hs
        exact .leave _ (.of_eq (held_pc (by rw [hpc]; rfl) _ _)) (by rw [hpc]; rfl) rfl rfl
          (fun h => by cases h)
    · cases hs
  | threadLibFini j =>
    obtain rfl := Option.some.inj ha
    obtain ⟨o, ho, hs⟩ := Option.bind_eq_some_iff.1 hs
    refine ⟨o, ho, ?_⟩
    split at hs
    · rename_i hpc
      split at hs
      · obtain rfl := Option.some.inj hs
        exact .finiSwap _ hpc (held_pc (by rw [hpc]; rfl) _ _) rfl
      · obtain rfl := Option.some.inj hs
        exact .leave _ (.of_eq (held_pc (by rw [hpc]; rfl) _ _)) (by rw [hpc]; rfl) rfl rfl
          (fun h => by cases h)
    · cases hs
  | fini j =>
    obtain rfl := Option.some.inj ha
    obtain ⟨o, ho, hs⟩ := Option.bind_eq_some_iff.1 hs
    refine ⟨o, ho, ?_⟩
    split at hs
    · rename_i hpc
      obtain rfl := Option.some.inj hs
      exact .fini _ hpc (held_pc (by rw [hpc]; rfl) _ _) rfl
    · cases hs

/-- A value stays until its own OS thread drops it. -/
theorem owned_of_step (ha : a.actor = some i) (hs : s.step a = some s') (ho : s.os[i]? = some o)
    {id : SpdkId} (hid : id ∈ o.owned) (hdrop : a ≠ .drop i id) :
    ∃ o', s'.os[i]? = some o' ∧ id ∈ o'.owned := by
  cases a with
  | spawn => cases ha
  | drop j id' =>
    obtain rfl := Option.some.inj ha
    obtain ⟨o₁, ho₁, hs⟩ := Option.bind_eq_some_iff.1 hs
    obtain rfl := Option.some.inj (ho₁.symm.trans ho)
    split at hs
    · obtain ⟨-, hs⟩ := Option.ite_none_right_eq_some.1 hs
      obtain rfl := Option.some.inj hs
      have hne : id ≠ id' := by
        rintro rfl
        exact hdrop rfl
      exact ⟨_, Table.set_self ho, (List.mem_erase_of_ne hne).2 hid⟩
    · cases hs
  | _ =>
    obtain rfl := Option.some.inj ha
    obtain ⟨o₁, ho₁, hs⟩ := Option.bind_eq_some_iff.1 hs
    obtain rfl := Option.some.inj (ho₁.symm.trans ho)
    -- the OS thread after the step has the values it had, or one more
    repeat' split at hs
    all_goals cases hs
    all_goals first
      | exact ⟨_, ho, hid⟩
      | exact ⟨_, Table.set_self ho, hid⟩
      | exact ⟨_, Table.set_self ho, List.mem_append_left _ hid⟩

/-! ## Who holds an SPDK thread -/

/-- Each SPDK thread is held by exactly one OS thread. -/
structure Held (s : State) : Prop where
  perm : (s.os.flatMap OsThread.held).Perm s.threads
  nodup : s.threads.Nodup
  lt : ∀ id ∈ s.threads, id < s.next

theorem Held.mem (h : Held s) (ho : s.os[i]? = some o) {id : SpdkId} (hid : id ∈ o.held) :
    id ∈ s.threads :=
  h.perm.subset (List.mem_flatMap.2 ⟨o, List.mem_of_getElem? ho, hid⟩)

/-- No two OS threads hold the same SPDK thread. -/
theorem Held.unique (h : Held s) {j : OsId} (ho : s.os[i]? = some o) (ho' : s.os[j]? = some o')
    {id : SpdkId} (hid : id ∈ o.held) (hid' : id ∈ o'.held) : i = j :=
  Table.index_unique (h.perm.nodup_iff.2 h.nodup) ho ho' hid hid'

/-- An OS thread that holds the same SPDK threads. -/
theorem Held.set (h : Held s) (ho : s.os[i]? = some o) (hperm : o'.held.Perm o.held) :
    Held (s.set i o') where
  perm := by
    have hset := Table.flatMap_set_perm (b := o') OsThread.held ho
    have hcancel := (List.perm_append_right_iff _).1 (hset.trans (hperm.append_left _))
    exact hcancel.trans h.perm
  nodup := h.nodup
  lt := h.lt

theorem Held.create (h : Held s) (ho : s.os[i]? = some o)
    (hperm : o'.held.Perm (s.next :: o.held)) :
    Held { s.set i o' with threads := s.threads ++ [s.next], next := s.next + 1 } where
  perm := by
    have hset := Table.flatMap_set_perm (b := o') OsThread.held ho
    have hnew := (hset.trans (hperm.append_left _)).trans List.perm_middle
    rw [← List.cons_append] at hnew
    have hcancel := (List.perm_append_right_iff _).1 hnew
    exact hcancel.trans ((h.perm.cons _).trans (List.perm_append_singleton _ _).symm)
  nodup := by
    refine h.nodup.append (List.nodup_singleton _) fun id hid hnew => ?_
    rw [List.mem_singleton] at hnew
    exact absurd (h.lt id hid) (hnew ▸ Nat.lt_irrefl _)
  lt id hid := by
    rcases List.mem_append.1 hid with hid | hid
    · exact Nat.lt_succ_of_lt (h.lt id hid)
    · rw [List.mem_singleton] at hid
      exact hid ▸ Nat.lt_succ_self _

theorem Held.destroy (h : Held s) (ho : s.os[i]? = some o) {id : SpdkId}
    (hperm : o.held.Perm (id :: o'.held)) :
    Held { s.set i o' with threads := s.threads.erase id } where
  perm := by
    have hset := (hperm.symm.append_left _).trans
      (Table.flatMap_set_perm (b := o') OsThread.held ho)
    have hgone := List.perm_middle.symm.trans hset
    rw [← List.cons_append] at hgone
    have hcancel := (List.perm_append_right_iff _).1 hgone
    have herase := (hcancel.trans h.perm).erase id
    rwa [List.erase_cons_head] at herase
  nodup := h.nodup.erase id
  lt id' hid' := h.lt id' (List.mem_of_mem_erase hid')

/-- **Every step keeps it.** -/
theorem Held.step (h : Held s) (ha : a.actor = some i) (hs : s.step a = some s') : Held s' := by
  obtain ⟨o, ho, heff⟩ := step_effect ha hs
  cases heff with
  | move o' hperm => exact h.set ho hperm
  | raise o' _ hheld => exact { h.set ho (.of_eq hheld) with }
  | initOk o' _ hheld => exact { h.set ho (.of_eq hheld) with }
  | initFail o' _ hheld => exact h.set ho (.of_eq hheld)
  | lower o' _ hheld => exact { h.set ho (.of_eq hheld) with }
  | create o' _ hperm => exact h.create ho hperm
  | destroy o' id _ hperm => exact h.destroy ho hperm
  | finiSwap o' _ hheld => exact { h.set ho (.of_eq hheld) with }
  | fini o' _ hheld => exact { h.set ho (.of_eq hheld) with }

/-- A new OS thread holds nothing. -/
theorem Held.append (h : Held s) {name : List UInt8} :
    Held { s with os := s.os ++ [⟨.attach name, [], none, none⟩] } where
  perm := by
    simp only [List.flatMap_append, List.flatMap_singleton, OsThread.held, Pc.ids, List.append_nil]
    exact h.perm
  nodup := h.nodup
  lt := h.lt

end SpdkIo.Thread
