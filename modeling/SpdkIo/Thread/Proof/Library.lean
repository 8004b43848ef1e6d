import SpdkIo.Thread.Model
import SpdkIo.Lib.Table

/-!
# Calls of the thread library

The flag is raised before the init function is called and is lowered apart from the test
`count() == 0`, so a second OS thread can come in between. `safe_of_orderly`: in the runs whose
swaps and tests are not taken in these windows (`Orderly`), SPDK threads are created only while the
library is ready, and it is finalised only when there are none. In general it is not so
(`library_not_safe`).
-/

namespace SpdkIo.Thread

/-- `spdk_thread_create` is called only while the library is ready, and `spdk_thread_lib_fini` only
when no SPDK thread exists. -/
def Safe (s : State) : Prop :=
  (∀ i null s', s.step (.create i null) = some s' → s.ready = true) ∧
    ∀ i s', s.step (.fini i) = some s' → s.threads = []

/-! ## The windows -/

/-- Past the flag, and going to call `spdk_thread_create`: the name has no NUL byte. -/
def Pc.creating : Pc → Bool
  | .libInit _ name | .attach name => !name.contains 0
  | .create => true
  | _ => false

/-- Past the init function, and going to call `spdk_thread_create`. -/
def Pc.attaching : Pc → Bool
  | .attach name => !name.contains 0
  | .create => true
  | _ => false

/-- Past the test `count() == 0`, and going to call `spdk_thread_lib_fini`. -/
def Pc.finishing : Pc → Bool
  | .finiSwap | .fini => true
  | _ => false

/-- The flag tells the truth to a call with this name, and no OS thread is finalising. -/
def State.mayEnter (s : State) (name : List UInt8) : Bool :=
  name.contains 0 || ((!s.flag || s.ready) && s.os.all fun o => !o.pc.finishing)

/-- The step is outside the windows: the flag is swapped to `true` only when it is lowered or the
library is ready, and no OS thread is about to finalise it; no SPDK threads are counted only when
no OS thread is about to create one. -/
def Orderly (s : State) : Action → Prop
  | .current _ name | .currentWithMempoolSize _ name _ => s.mayEnter name = true
  | .count _ => s.threads = [] → s.os.all (fun o => !o.pc.creating) = true
  | _ => True

instance (s : State) : ∀ a, Decidable (Orderly s a)
  | .current _ name | .currentWithMempoolSize _ name _ =>
    inferInstanceAs (Decidable (s.mayEnter name = true))
  | .count _ =>
    inferInstanceAs (Decidable (s.threads = [] → s.os.all (fun o => !o.pc.creating) = true))
  | .spawn | .initRet _ _ | .storeFalse _ | .attach _ | .create _ _ | .setThread _ | .drop _ _
  | .pollExit _ _ | .clearThread _ | .destroy _ | .threadLibFini _ | .fini _ => .isTrue trivial

/-! ## The invariant -/

structure Inv (s : State) : Prop where
  attaching : ∀ o ∈ s.os, o.pc.attaching = true → s.ready = true
  threads : s.threads ≠ [] → s.ready = true
  finishing : ∀ o ∈ s.os, o.pc.finishing = true →
    s.threads = [] ∧ ∀ o' ∈ s.os, o'.pc.creating = false

variable {s s' : State} {i : OsId} {o o' : OsThread}

theorem Pc.creating_of_attaching {pc : Pc} (h : pc.attaching = true) : pc.creating = true := by
  cases pc <;> first | exact h | cases h

/-- An OS thread moves to a program counter that is in none of the windows it was not in. -/
theorem Inv.set (h : Inv s) (ho : s.os[i]? = some o)
    (hatt : o'.pc.attaching = true → o.pc.attaching = true)
    (hcre : o'.pc.creating = true → o.pc.creating = true)
    (hfin : o'.pc.finishing = true → o.pc.finishing = true) : Inv (s.set i o') where
  attaching x hx hpc := by
    rcases List.mem_or_eq_of_mem_set hx with hx | rfl
    · exact h.attaching x hx hpc
    · exact h.attaching o (List.mem_of_getElem? ho) (hatt hpc)
  threads := h.threads
  finishing x hx hpc := by
    have hnone : s.threads = [] ∧ ∀ o' ∈ s.os, o'.pc.creating = false := by
      rcases List.mem_or_eq_of_mem_set hx with hx | rfl
      · exact h.finishing x hx hpc
      · exact h.finishing o (List.mem_of_getElem? ho) (hfin hpc)
    refine ⟨hnone.1, fun y hy => ?_⟩
    rcases List.mem_or_eq_of_mem_set hy with hy | rfl
    · exact hnone.2 y hy
    · have hout := hnone.2 o (List.mem_of_getElem? ho)
      rw [← Bool.not_eq_true] at hout ⊢
      exact fun hc => hout (hcre hc)

/-- An OS thread that leaves all windows. -/
theorem Inv.leave (h : Inv s) (ho : s.os[i]? = some o) (hcre : o'.pc.creating = false)
    (hfin : o'.pc.finishing = false) : Inv (s.set i o') :=
  h.set ho (fun ha => by rw [Pc.creating_of_attaching ha] at hcre; cases hcre)
    (fun hc => by rw [hc] at hcre; cases hcre) (fun hf => by rw [hf] at hfin; cases hfin)

/-- No OS thread is finalising while another is creating. -/
theorem Inv.not_finishing (h : Inv s) (ho : s.os[i]? = some o) (hcre : o.pc.creating = true) :
    ∀ o ∈ s.os, o.pc.finishing = false := by
  intro x hx
  rw [← Bool.not_eq_true]
  intro hf
  rw [(h.finishing x hx hf).2 o (List.mem_of_getElem? ho)] at hcre
  cases hcre

/-- An OS thread comes in to create, with the library ready if it is past the init function. -/
theorem Inv.enter (h : Inv s) (hfin : ∀ o ∈ s.os, o.pc.finishing = false)
    (hready : o'.pc.attaching = true → s.ready = true) (hnf : o'.pc.finishing = false) :
    Inv (s.set i o') where
  attaching x hx hpc := by
    rcases List.mem_or_eq_of_mem_set hx with hx | rfl
    · exact h.attaching x hx hpc
    · exact hready hpc
  threads := h.threads
  finishing x hx hpc := by
    rcases List.mem_or_eq_of_mem_set hx with hx | rfl
    · rw [hfin x hx] at hpc
      cases hpc
    · rw [hnf] at hpc
      cases hpc

/-! ## Creation -/

theorem Inv.threadLibInit (h : Inv s) {fn : InitFn} {name : List UInt8}
    (hmay : s.mayEnter name = true) (hs : s.threadLibInit i fn name = some s') : Inv s' := by
  unfold State.threadLibInit at hs
  obtain ⟨o, ho, hs⟩ := Option.bind_eq_some_iff.1 hs
  split at hs
  · by_cases hnul : name.contains 0 = true
    · -- the call returns before it creates a thread
      have hstay : ∀ pc : Pc, pc = .attach name ∨ pc = .libInit fn name →
          Inv (s.set i { o with pc }) := by
        intro pc hpc
        apply h.leave ho
        · rcases hpc with rfl | rfl <;> simpa [Pc.creating] using hnul
        · rcases hpc with rfl | rfl <;> rfl
      split at hs
      · cases hs
        exact hstay _ (.inl rfl)
      · cases hs
        exact { hstay _ (.inr rfl) with }
    · simp only [State.mayEnter, Bool.or_eq_true, Bool.and_eq_true, hnul, List.all_eq_true,
        Bool.not_eq_true'] at hmay
      obtain ⟨hflag, hfin⟩ := hmay.resolve_left Bool.false_ne_true
      split at hs
      · rename_i hraised
        cases hs
        refine h.enter hfin (fun _ => ?_) rfl
        rcases hflag with hflag | hready
        · rw [hraised] at hflag
          cases hflag
        · exact hready
      · cases hs
        have henter : Inv (s.set i { o with pc := .libInit fn name }) :=
          h.enter hfin (fun ha => by cases ha) rfl
        exact { henter with }
  · cases hs

theorem Inv.initRet (h : Inv s) {rc : Int32} (hs : s.initRet i rc = some s') : Inv s' := by
  unfold State.initRet at hs
  obtain ⟨o, ho, hs⟩ := Option.bind_eq_some_iff.1 hs
  split at hs
  · rename_i fn name hpc
    split at hs
    · cases hs
      exact h.leave ho rfl rfl
    · cases hs
      -- the library is ready now, and the name decides whether a thread will be created
      have hinv : Inv { s with ready := true } :=
        { attaching := fun _ _ _ => rfl, threads := fun _ => rfl, finishing := h.finishing }
      by_cases hnul : name.contains 0 = true
      · exact hinv.leave ho (by simpa [Pc.creating] using hnul) rfl
      · refine hinv.enter (h.not_finishing ho ?_) (fun _ => rfl) rfl
        rw [hpc]
        simpa [Pc.creating] using hnul
  · cases hs

theorem Inv.storeFalse (h : Inv s) (hs : s.storeFalse i = some s') : Inv s' := by
  unfold State.storeFalse at hs
  obtain ⟨o, ho, hs⟩ := Option.bind_eq_some_iff.1 hs
  split at hs
  · cases hs
    have hleave : ∀ returned, Inv (s.set i { o with pc := .idle, returned }) :=
      fun _ => h.leave ho rfl rfl
    exact { hleave _ with }
  · cases hs

/-- A name that `CString::new` accepts has no NUL byte. -/
theorem cstringNew_ok {name c : List UInt8} (h : State.cstringNew name = .ok c) :
    name.contains 0 = false := by
  unfold State.cstringNew at h
  split at h
  · cases h
  · rename_i hnone
    rw [List.findIdx?_eq_none_iff] at hnone
    rw [← Bool.not_eq_true, List.contains_iff_mem]
    intro hmem
    have := hnone 0 hmem
    simp at this

theorem Inv.attach (h : Inv s) (hs : s.attach i = some s') : Inv s' := by
  unfold State.attach at hs
  obtain ⟨o, ho, hs⟩ := Option.bind_eq_some_iff.1 hs
  split at hs
  · rename_i name hpc
    split at hs
    · rename_i c hok
      cases hs
      have hatt : o.pc.attaching = true := by
        rw [hpc]
        simpa [Pc.attaching] using cstringNew_ok hok
      exact h.set ho (fun _ => hatt) (fun _ => Pc.creating_of_attaching hatt)
        (fun hf => by cases hf)
    · cases hs
      exact h.leave ho rfl rfl
  · cases hs

theorem Inv.create (h : Inv s) {null : Bool} (hs : s.create i null = some s') : Inv s' := by
  unfold State.create at hs
  obtain ⟨o, ho, hs⟩ := Option.bind_eq_some_iff.1 hs
  split at hs
  · rename_i hpc
    have hready : s.ready = true := h.attaching o (List.mem_of_getElem? ho) (by rw [hpc]; rfl)
    have hnf := h.not_finishing ho (by rw [hpc]; rfl)
    split at hs
    · cases hs
      exact h.leave ho rfl rfl
    · cases hs
      have hinv : Inv { s with threads := s.threads ++ [s.next], next := s.next + 1 } :=
        { attaching := h.attaching
          threads := fun _ => hready
          finishing := fun x hx hf => by rw [hnf x hx] at hf; cases hf }
      exact hinv.leave ho rfl rfl
  · cases hs

/-! ## Drop -/

theorem Inv.destroy (h : Inv s) (hs : s.destroy i = some s') : Inv s' := by
  unfold State.destroy at hs
  obtain ⟨o, ho, hs⟩ := Option.bind_eq_some_iff.1 hs
  split at hs
  · rename_i id hpc
    cases hs
    have hinv : Inv { s with threads := s.threads.erase id } :=
      { attaching := h.attaching
        threads := fun hne => h.threads fun hnil => hne (by rw [hnil]; rfl)
        finishing := fun x hx hf => by
          obtain ⟨hnil, hcre⟩ := h.finishing x hx hf
          exact ⟨by rw [hnil]; rfl, hcre⟩ }
    exact hinv.leave ho rfl rfl
  · cases hs

theorem Inv.count (h : Inv s) (horder : Orderly s (.count i)) (hs : s.count i = some s') :
    Inv s' := by
  unfold State.count at hs
  obtain ⟨o, ho, hs⟩ := Option.bind_eq_some_iff.1 hs
  split at hs
  · split at hs
    · rename_i hzero
      cases hs
      have hnil : s.threads = [] := List.length_eq_zero_iff.1 hzero
      have hcre : ∀ x ∈ s.os, x.pc.creating = false := by
        have hall := horder hnil
        simpa only [List.all_eq_true, Bool.not_eq_true'] using hall
      have hcre' : ∀ x ∈ s.os.set i { o with pc := .finiSwap }, x.pc.creating = false := by
        intro x hx
        rcases List.mem_or_eq_of_mem_set hx with hx | rfl
        · exact hcre x hx
        · rfl
      exact
        { attaching := fun x hx ha => by
            have := Pc.creating_of_attaching ha
            rw [hcre' x hx] at this
            cases this
          threads := h.threads
          finishing := fun _ _ _ => ⟨hnil, hcre'⟩ }
    · cases hs
      exact h.leave ho rfl rfl
  · cases hs

theorem Inv.threadLibFini (h : Inv s) (hs : s.threadLibFini i = some s') : Inv s' := by
  unfold State.threadLibFini at hs
  obtain ⟨o, ho, hs⟩ := Option.bind_eq_some_iff.1 hs
  split at hs
  · rename_i hpc
    split at hs
    · cases hs
      have hset : Inv (s.set i { o with pc := .fini }) :=
        h.set ho (fun ha => by cases ha) (fun hc => by cases hc) (fun _ => by rw [hpc]; rfl)
      exact { hset with }
    · cases hs
      exact h.leave ho rfl rfl
  · cases hs

/-- Nothing needs the library when it is finalised. -/
theorem Inv.fini (h : Inv s) (hs : s.fini i = some s') : Inv s' := by
  unfold State.fini at hs
  obtain ⟨o, ho, hs⟩ := Option.bind_eq_some_iff.1 hs
  split at hs
  · rename_i hpc
    cases hs
    obtain ⟨hnil, hcre⟩ := h.finishing o (List.mem_of_getElem? ho) (by rw [hpc]; rfl)
    have hinv : Inv { s with ready := false } :=
      { attaching := fun x hx ha => by
          have := Pc.creating_of_attaching ha
          rw [hcre x hx] at this
          cases this
        threads := fun hne => absurd hnil hne
        finishing := h.finishing }
    exact hinv.leave ho rfl rfl
  · cases hs

/-! ## Runs -/

theorem Inv.spawn (h : Inv s) : Inv s.spawn where
  attaching x hx ha := by
    rcases List.mem_append.1 hx with hx | hx
    · exact h.attaching x hx ha
    · obtain rfl := List.mem_singleton.1 hx
      cases ha
  threads := h.threads
  finishing x hx hf := by
    rcases List.mem_append.1 hx with hx | hx
    · obtain ⟨hnil, hcre⟩ := h.finishing x hx hf
      refine ⟨hnil, fun y hy => ?_⟩
      rcases List.mem_append.1 hy with hy | hy
      · exact hcre y hy
      · obtain rfl := List.mem_singleton.1 hy
        rfl
    · obtain rfl := List.mem_singleton.1 hx
      cases hf

theorem Inv.step (h : Inv s) {a : Action} (horder : Orderly s a) (hs : s.step a = some s') :
    Inv s' := by
  cases a with
  | spawn =>
    cases hs
    exact h.spawn
  | current i name => exact h.threadLibInit horder hs
  | currentWithMempoolSize i name size => exact h.threadLibInit horder hs
  | initRet i rc => exact h.initRet hs
  | storeFalse i => exact h.storeFalse hs
  | attach i => exact h.attach hs
  | create i null => exact h.create hs
  | destroy i => exact h.destroy hs
  | count i => exact h.count horder hs
  | threadLibFini i => exact h.threadLibFini hs
  | fini i => exact h.fini hs
  | setThread i =>
    obtain ⟨o, ho, hs⟩ := Option.bind_eq_some_iff.1 hs
    split at hs <;> cases hs
    exact h.leave ho rfl rfl
  | drop i id =>
    obtain ⟨o, ho, hs⟩ := Option.bind_eq_some_iff.1 hs
    split at hs
    · obtain ⟨-, hs⟩ := Option.ite_none_right_eq_some.1 hs
      cases hs
      exact h.leave ho rfl rfl
    · cases hs
  | pollExit i exited =>
    obtain ⟨o, ho, hs⟩ := Option.bind_eq_some_iff.1 hs
    split at hs
    · split at hs <;> cases hs
      · exact h.leave ho rfl rfl
      · exact h
    · cases hs
  | clearThread i =>
    obtain ⟨o, ho, hs⟩ := Option.bind_eq_some_iff.1 hs
    split at hs <;> cases hs
    exact h.leave ho rfl rfl

/-- **The thread library is used only while it is ready**, in every orderly run. -/
theorem safe_of_orderly (h : lts.ReachBy Orderly s) : Safe s := by
  have hinv : Inv s := by
    refine Lts.ReachBy.invariant (G := Orderly) (I := Inv) ?_ (fun hi hg hs => hi.step hg hs) h
    exact
      { attaching := fun o ho => by cases ho
        threads := fun hne => absurd rfl hne
        finishing := fun o ho => by cases ho }
  constructor
  · intro i null s' hs
    obtain ⟨o, ho, hs⟩ := Option.bind_eq_some_iff.1 hs
    split at hs
    · rename_i hpc
      exact hinv.attaching o (List.mem_of_getElem? ho) (by rw [hpc]; rfl)
    · cases hs
  · intro i s' hs
    obtain ⟨o, ho, hs⟩ := Option.bind_eq_some_iff.1 hs
    split at hs
    · rename_i hpc
      exact (hinv.finishing o (List.mem_of_getElem? ho) (by rw [hpc]; rfl)).1
    · cases hs

/-- Two OS threads that use the library one after the other, and once together: the second is
about to create its thread, and the library is ready. -/
theorem safe_of_orderly_shared : ∃ s s' : State,
    s.step (.create 1 false) = some s' ∧ s.ready = true := by
  obtain ⟨s, hs, hp⟩ := Lts.exists_of_runBy (M := lts) (G := Orderly)
    [.spawn, .spawn, .current 0 [97], .initRet 0 0, .attach 0, .create 0 false, .setThread 0,
     .drop 0 0, .pollExit 0 false, .pollExit 0 true, .clearThread 0, .destroy 0, .count 0,
     .threadLibFini 0, .fini 0,
     .currentWithMempoolSize 0 [97] 1023, .initRet 0 (-12), .storeFalse 0,
     .current 0 [97], .initRet 0 0, .attach 0, .create 0 false, .current 1 [98], .setThread 0,
     .attach 1]
    (fun s => (s.step (.create 1 false)).isSome) (by decide)
  obtain ⟨s', hs'⟩ := Option.isSome_iff_exists.1 hp
  exact ⟨s, s', hs', (safe_of_orderly hs).1 1 false s' hs'⟩

/-- A second OS thread finds the flag raised while the first is still in the init function, and
creates its thread. -/
theorem library_not_safe : ¬ ∀ s, lts.Reach s → Safe s := by
  intro hall
  obtain ⟨s, hs, hp⟩ := Lts.exists_of_run (M := lts)
    [.spawn, .spawn, .current 0 [97], .current 1 [98], .attach 1]
    (fun s => (s.step (.create 1 false)).isSome && !s.ready) (by decide)
  obtain ⟨hcreate, hready⟩ := Bool.and_eq_true_iff.1 hp
  obtain ⟨s', hs'⟩ := Option.isSome_iff_exists.1 hcreate
  have := (hall s hs).1 1 false s' hs'
  rw [this] at hready
  cases hready

end SpdkIo.Thread
