import SpdkIo.Thread.Local.Proof.Exits

/-!
# One OS thread of the process

What `SpdkIo.Thread.Local` does in one step, one OS thread of `SpdkIo.Thread` does in several, from
one state in which it is idle to the next (`refines`). An `attach` of its own is not among the
actions there.
-/

namespace SpdkIo.Thread.Local

open Thread (Pc)

/-- The process of one OS thread, at `pc`. -/
def embed (s : State) (pc : Pc) (returned : Option (Result SpdkId)) : Thread.State :=
  ⟨s.flag, s.ready, s.threads, s.next, [⟨pc, s.owned, s.thread, returned⟩]⟩

variable {s s' : State} {name : List UInt8} {returned : Option (Result SpdkId)} {id : SpdkId}
  {polls : Nat}

/-! ## Creation -/

/-- Both `current` functions begin with `thread_lib_init`. -/
theorem exists_threadLibInit (t : Thread.State) (fn : InitFn) (name : List UInt8) :
    ∃ a, Thread.lts.step t a = t.threadLibInit 0 fn name := by
  cases fn with
  | libInit => exact ⟨.current 0 name, rfl⟩
  | libInitExt size => exact ⟨.currentWithMempoolSize 0 name size, rfl⟩

/-- Where the OS thread is after `thread_lib_init`. -/
def initialised (name : List UInt8) (returned : Option (Result SpdkId)) :
    Result Unit × State → Thread.State
  | (.ok (), s) => embed s (.attach name) returned
  | (.error e, s) => embed s .idle (some (.error e))

theorem steps_threadLibInit (s : State) (fn : InitFn) (name : List UInt8) (rc : Int32)
    (returned : Option (Result SpdkId)) :
    Thread.lts.Steps (embed s .idle returned)
      (initialised name returned (s.threadLibInit fn rc)) := by
  obtain ⟨a, ha⟩ := exists_threadLibInit (embed s .idle returned) fn name
  unfold State.threadLibInit
  by_cases hf : s.flag = true
  · rw [if_pos hf]
    refine (Lts.Steps.refl _).next (ha.trans ?_)
    simp [Thread.State.threadLibInit, Thread.State.set, embed, initialised, hf]
  · rw [if_neg hf]
    -- the flag is raised before the init function is called
    have hcall : Thread.lts.step (embed s .idle returned) a =
        some (embed { s with flag := true } (.libInit fn name) returned) := by
      rw [ha]
      simp [Thread.State.threadLibInit, Thread.State.set, embed, hf]
    by_cases hrc : rc = 0
    · subst hrc
      exact ((Lts.Steps.refl _).next hcall).next (a := .initRet 0 0) rfl
    · rw [if_pos hrc]
      have hret : Thread.lts.step (embed { s with flag := true } (.libInit fn name) returned)
          (.initRet 0 rc) =
            some (embed { s with flag := true } (.libInitFailed fn rc) returned) := by
        simp [Thread.lts, Thread.State.step, Thread.State.initRet, Thread.State.set, embed, hrc]
      exact (((Lts.Steps.refl _).next hcall).next hret).next (a := .storeFalse 0) rfl

theorem steps_attach (s : State) (name : List UInt8) (null : Bool)
    (returned : Option (Result SpdkId)) :
    Thread.lts.Steps (embed s (.attach name) returned)
      (embed (s.attach name null).2 .idle (some (s.attach name null).1)) := by
  unfold State.attach
  cases hn : Thread.State.cstringNew name with
  | error e =>
    refine (Lts.Steps.refl _).next (a := .attach 0) ?_
    simp [Thread.lts, Thread.State.step, Thread.State.attach, embed, hn, Thread.State.set]
  | ok bytes =>
    have hattach : Thread.lts.step (embed s (.attach name) returned) (.attach 0) =
        some (embed s .create returned) := by
      simp [Thread.lts, Thread.State.step, Thread.State.attach, embed, hn, Thread.State.set]
    have hcreate := (Lts.Steps.refl _).next hattach
    cases null with
    | true => exact hcreate.next (a := .create 0 true) rfl
    | false => exact (hcreate.next (a := .create 0 false) rfl).next (a := .setThread 0) rfl

/-- A call of `current` or `current_with_mempool_size`, to its result. -/
theorem steps_currentBy (s : State) (fn : InitFn) (name : List UInt8) (rc : Int32) (null : Bool)
    (returned : Option (Result SpdkId)) :
    Thread.lts.Steps (embed s .idle returned)
      (embed (s.currentBy fn name rc null).2 .idle (some (s.currentBy fn name rc null).1)) := by
  have hinit := steps_threadLibInit s fn name rc returned
  unfold State.currentBy
  generalize s.threadLibInit fn rc = r at hinit ⊢
  rcases r with ⟨_ | _, t⟩
  · exact hinit
  · exact hinit.trans (steps_attach t name null returned)

/-! ## Drop -/

/-- The polls of a thread that exits after `polls` of them. -/
theorem steps_pollExit (s : State) (id : SpdkId) (returned : Option (Result SpdkId)) :
    ∀ polls : Nat, Thread.lts.Steps (embed s (.exiting id) returned)
      (embed ((State.pollThread · id)^[polls] s) (.exiting id) returned)
  | 0 => .refl _
  | polls + 1 => by
    rw [Function.iterate_succ_apply, pollThread_eq]
    exact (steps_pollExit s id returned polls).next (a := .pollExit 0 false) rfl

/-- `thread_lib_fini` after the test `count() == 0`. -/
theorem steps_threadLibFini (s : State) (returned : Option (Result SpdkId)) :
    Thread.lts.Steps (embed s .finiSwap returned) (embed s.threadLibFini .idle returned) := by
  unfold State.threadLibFini
  by_cases hf : s.flag = true
  · rw [if_pos hf]
    have hswap : Thread.lts.step (embed s .finiSwap returned) (.threadLibFini 0) =
        some (embed { s with flag := false } .fini returned) := by
      simp [Thread.lts, Thread.State.step, Thread.State.threadLibFini, Thread.State.set, embed, hf]
    exact ((Lts.Steps.refl _).next hswap).next (a := .fini 0) rfl
  · rw [if_neg hf]
    refine (Lts.Steps.refl _).next (a := .threadLibFini 0) ?_
    simp [Thread.lts, Thread.State.step, Thread.State.threadLibFini, Thread.State.set, embed, hf]

theorem steps_drop (h : s.drop id polls = some s') (returned : Option (Result SpdkId)) :
    Thread.lts.Steps (embed s .idle returned) (embed s' .idle returned) := by
  unfold State.drop at h
  split at h
  · rename_i hm
    let exiting : State := { s with owned := s.owned.erase id }
    let cleared : State := { exiting with thread := none }
    let destroyed : State := { cleared with
      threads := s.threads.erase id
      drops := s.drops ++ [Drop.mk s.getCurrent id none] }
    have hexit : Thread.lts.step (embed s .idle returned) (.drop 0 id) =
        some (embed exiting (.exiting id) returned) := by
      simp [Thread.lts, Thread.State.step, Thread.State.drop, Thread.State.set, embed, hm, exiting]
    have hpolled := steps_pollExit exiting id returned polls
    rw [pollThread_iterate] at hpolled
    have hclear : Thread.lts.Steps (embed exiting (.exiting id) returned)
        (embed cleared (.destroy id) returned) :=
      (hpolled.next (a := .pollExit 0 true) rfl).next (a := .clearThread 0) rfl
    have hdestroy : Thread.lts.Steps (embed s .idle returned) (embed destroyed .count returned) :=
      (((Lts.Steps.refl _).next hexit).trans hclear).next (a := .destroy 0) rfl
    simp only [pollThread_iterate] at h
    obtain rfl := Option.some.inj h
    show Thread.lts.Steps _ (embed (if (s.threads.erase id).length = 0 then
      destroyed.threadLibFini else destroyed) .idle returned)
    by_cases hcount : (s.threads.erase id).length = 0
    · have hlast : Thread.lts.step (embed destroyed .count returned) (.count 0) =
          some (embed destroyed .finiSwap returned) := if_pos hcount
      rw [if_pos hcount]
      exact (hdestroy.next hlast).trans (steps_threadLibFini destroyed returned)
    · have hleft : Thread.lts.step (embed destroyed .count returned) (.count 0) =
          some (embed destroyed .idle returned) := if_neg hcount
      rw [if_neg hcount]
      exact hdestroy.next hleft
  · cases h

/-! ## Runs -/

/-- The actions that the process has, too. -/
def NoAttach (_ : State) : Action → Prop
  | .attach _ _ => False
  | _ => True

theorem steps_step {a : Action} (hg : NoAttach s a) (hs : s.step a = some s')
    (returned : Option (Result SpdkId)) :
    ∃ returned', Thread.lts.Steps (embed s .idle returned) (embed s' .idle returned') := by
  cases a with
  | current name rc null =>
    obtain rfl := Option.some.inj hs
    exact ⟨_, steps_currentBy s .libInit name rc null returned⟩
  | currentWithMempoolSize name size rc null =>
    obtain rfl := Option.some.inj hs
    exact ⟨_, steps_currentBy s (.libInitExt size) name rc null returned⟩
  | attach name null => exact hg.elim
  | poll id =>
    obtain rfl := poll_eq_some hs
    exact ⟨returned, .refl _⟩
  | drop id polls => exact ⟨returned, steps_drop hs returned⟩

/-- **Each run of the OS thread is a run of the process**: its states between two calls are states
of the process in which the OS thread is idle. -/
theorem refines (h : lts.ReachBy NoAttach s) :
    ∃ returned, Thread.lts.Reach (embed s .idle returned) := by
  have hspawn : Thread.lts.Reach (embed lts.init .idle none) :=
    Lts.ReachBy.init.next (a := .spawn) trivial rfl
  obtain ⟨t, ht, returned, rfl⟩ := h.simulate (N := Thread.lts)
    (R := fun s t => ∃ returned, t = embed s .idle returned) ⟨_, hspawn, none, rfl⟩ (by
      rintro s a s' _ ⟨returned, rfl⟩ hg hs
      obtain ⟨returned', hsteps⟩ := steps_step hg hs returned
      exact ⟨_, hsteps, returned', rfl⟩)
  exact ⟨returned, ht⟩

instance decidableNoAttach (s : State) : (a : Action) → Decidable (NoAttach s a)
  | .attach _ _ => .isFalse fun h => h
  | .current _ _ _ | .currentWithMempoolSize _ _ _ _ | .poll _ | .drop _ _ => .isTrue trivial

/-- Two threads, one of them polled, that are dropped in the order of their creation. -/
theorem refines_two : ∃ (s : State) (returned : _),
    s.drops = [⟨some 1, 0, none⟩, ⟨none, 1, none⟩] ∧ s.ready = false ∧
      Thread.lts.Reach (embed s .idle returned) := by
  obtain ⟨s, hs, hp⟩ := Lts.exists_of_runBy (M := lts) (G := NoAttach)
    [.current [97] 0 false, .currentWithMempoolSize [98] 255 0 false, .poll 0, .drop 0 3,
     .drop 1 0]
    (fun s => decide (s.drops = [⟨some 1, 0, none⟩, ⟨none, 1, none⟩] ∧ s.ready = false)) (by decide)
  obtain ⟨hdrops, hready⟩ := of_decide_eq_true hp
  obtain ⟨returned, hr⟩ := refines hs
  exact ⟨s, returned, hdrops, hready, hr⟩

end SpdkIo.Thread.Local
