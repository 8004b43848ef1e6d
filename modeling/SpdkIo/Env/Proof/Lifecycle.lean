import SpdkIo.Env.Model

/-!
# The life of the environment

`envFlag_iff`: `ENV_INITIALIZED` is raised exactly while a guard is alive, exactly if no build gets
past the flag with a NUL byte in its texts: such a build leaves the flag raised.
-/

namespace SpdkIo.Env

variable {s s' : State} {b : SpdkEnvBuilder} {defaults : EnvOpts} {rc : Int32}

/-! ## What a step does -/

/-- The calls of a build that reaches `spdk_env_init`. -/
def State.callsOf (s : State) (b : SpdkEnvBuilder) (opts : EnvOpts) (rc : Int32) : List Call :=
  s.calls ++ b.logLevel.toList.map .logSetPrintLevel ++ [.envInit opts rc]

/-- The four exits of `build`. -/
inductive Built (s : State) (b : SpdkEnvBuilder) (defaults : EnvOpts) (rc : Int32) :
    Result Unit × State → Prop
  | already : s.flag = true → Built s b defaults rc (.error .alreadyInitialized, s)
  | nul {e : Error} : s.flag = false → ¬ b.NulFree →
      Built s b defaults rc (.error e, { s with flag := true })
  | failed {message : String} {opts : EnvOpts} : s.flag = false → b.NulFree →
      b.opts defaults = .ok opts → rc ≠ 0 →
      Built s b defaults rc
        (.error (.envInit message), { s with calls := s.callsOf b opts rc })
  | ok {opts : EnvOpts} : s.flag = false → b.NulFree → b.opts defaults = .ok opts → rc = 0 →
      Built s b defaults rc
        (.ok (), { s with flag := true, guards := s.guards + 1, calls := s.callsOf b opts rc })

theorem build_built (s : State) (b : SpdkEnvBuilder) (defaults : EnvOpts) (rc : Int32) :
    Built s b defaults rc (s.build b defaults rc) := by
  unfold State.build
  by_cases hf : s.flag = true
  · rw [if_pos hf]
    exact .already hf
  · rw [if_neg hf]
    rw [Bool.not_eq_true] at hf
    by_cases hb : b.NulFree
    · obtain ⟨opts, ho⟩ := b.opts_of_nulFree hb defaults
      simp only [ho]
      by_cases hrc : rc = 0
      · rw [if_neg (not_not.2 hrc)]
        exact .ok hf hb ho hrc
      · rw [if_pos hrc, ← hf]
        exact .failed hf hb ho hrc
    · obtain ⟨e, he⟩ := b.opts_of_not hb defaults
      simp only [he]
      exact .nul hf hb

theorem drop_eq_some (h : s.drop = some s') :
    0 < s.guards ∧ s' = { s with guards := s.guards - 1, dropped := s.dropped + 1,
                                 calls := s.calls ++ [.envFini], flag := false } := by
  unfold State.drop at h
  split at h
  · exact ⟨‹_›, (Option.some.inj h).symm⟩
  · cases h

theorem run_step {b : SpdkAppBuilder} {defaults : AppOpts}
    (h : s.step (.run b defaults) = some s') :
    (¬ b.NulFree ∧ s' = s) ∨
      b.NulFree ∧ ∃ opts, s' = { s with running := s.running + 1, runs := s.runs + 1,
                                        calls := s.calls ++ [.appStart opts] } := by
  simp only [State.step, State.run] at h
  by_cases hb : b.NulFree
  · obtain ⟨opts, ho⟩ := b.opts_of_nulFree hb defaults
    rw [ho] at h
    exact .inr ⟨hb, opts, (Option.some.inj h).symm⟩
  · obtain ⟨e, he⟩ := b.opts_of_not hb defaults
    rw [he] at h
    exact .inl ⟨hb, (Option.some.inj h).symm⟩

theorem runRet_step (h : s.step (.runRet rc) = some s') :
    0 < s.running ∧
      s' = { s with running := s.running - 1, calls := s.calls ++ [.appFini] } := by
  obtain ⟨p, hp, rfl⟩ := Option.map_eq_some_iff.1 h
  unfold State.runRet at hp
  split at hp
  · refine ⟨‹_›, ?_⟩
    split at hp <;> cases hp <;> rfl
  · cases hp

/-! ## The flag -/

/-- `SpdkEnv::is_initialized()` says whether a guard is alive. -/
def FlagTracksGuard (s : State) : Prop := s.isInitialized = true ↔ 0 < s.guards

/-- A build that finds the flag lowered has no NUL byte in its texts. -/
def NulFreeBuilds (s : State) : Action → Prop
  | .build b _ _ => s.flag = false → b.NulFree
  | _ => True

instance (s : State) : ∀ a, Decidable (NulFreeBuilds s a)
  | .build b _ _ => inferInstanceAs (Decidable (s.flag = false → b.NulFree))
  | .drop | .run _ _ | .runRet _ => .isTrue trivial

/-- There is one guard at most, and the flag is raised while it is alive. -/
def OneGuard (s : State) : Prop := 0 < s.guards → s.guards = 1 ∧ s.flag = true

theorem OneGuard.lowered (h : OneGuard s) (hf : s.flag = false) : s.guards = 0 := by
  by_contra hg
  have := (h (Nat.pos_of_ne_zero hg)).2
  rw [hf] at this
  cases this

theorem OneGuard.step (h : OneGuard s) {a : Action} (hs : s.step a = some s') : OneGuard s' := by
  cases a with
  | build b defaults rc =>
    obtain rfl := Option.some.inj hs
    have hb := build_built s b defaults rc
    generalize s.build b defaults rc = r at hb
    cases hb with
    | already _ => exact h
    | nul hf _ => exact fun hg => ⟨(h hg).1, rfl⟩
    | failed _ _ _ _ => exact h
    | ok hf _ _ _ =>
      have := h.lowered hf
      exact fun _ => ⟨by show s.guards + 1 = 1; omega, rfl⟩
  | drop =>
    obtain ⟨hg, rfl⟩ := drop_eq_some hs
    have := (h hg).1
    intro hg'
    have : 0 < s.guards - 1 := hg'
    omega
  | run b defaults =>
    obtain ⟨-, rfl⟩ | ⟨-, opts, rfl⟩ := run_step hs
    · exact h
    · exact h
  | runRet rc =>
    obtain ⟨-, rfl⟩ := runRet_step hs
    exact h

theorem oneGuard_of_reach (h : lts.Reach s) : OneGuard s :=
  h.invariant (fun h0 => absurd h0 (Nat.lt_irrefl 0)) fun hi hs => hi.step hs

/-- A step from a state whose flag is right keeps it right exactly if it is no build that gets past
the flag with a NUL byte. -/
theorem flagTracksGuard_step (h1 : OneGuard s) (h : FlagTracksGuard s) {a : Action}
    (hs : s.step a = some s') : FlagTracksGuard s' ↔ NulFreeBuilds s a := by
  cases a with
  | build b defaults rc =>
    obtain rfl := Option.some.inj hs
    have hb := build_built s b defaults rc
    generalize s.build b defaults rc = r at hb
    cases hb with
    | already hf => exact iff_of_true h fun hn => by rw [hf] at hn; cases hn
    | nul hf hnul =>
      -- the flag is raised and no guard is alive
      refine iff_of_false (fun ht => ?_) fun hn => hnul (hn hf)
      have hg : 0 < s.guards := ht.1 rfl
      have := h1.lowered hf
      omega
    | failed hf hnul _ _ => exact iff_of_true h fun _ => hnul
    | ok _ hnul _ _ => exact iff_of_true (iff_of_true rfl (Nat.succ_pos _)) fun _ => hnul
  | drop =>
    obtain ⟨hg, rfl⟩ := drop_eq_some hs
    refine iff_of_true (iff_of_false Bool.false_ne_true ?_) trivial
    show ¬ 0 < s.guards - 1
    have := (h1 hg).1
    omega
  | run b defaults =>
    obtain ⟨-, rfl⟩ | ⟨-, opts, rfl⟩ := run_step hs
    · exact iff_of_true h trivial
    · exact iff_of_true h trivial
  | runRet rc =>
    obtain ⟨-, rfl⟩ := runRet_step hs
    exact iff_of_true h trivial

/-- A build that fails leaves the flag as it found it, exactly if it does not get past the flag
with a NUL byte. -/
theorem failed_build_iff (s : State) (b : SpdkEnvBuilder) (defaults : EnvOpts) (rc : Int32) :
    (∀ e, (s.build b defaults rc).1 = .error e →
        (s.build b defaults rc).2.isInitialized = s.isInitialized) ↔
      (s.flag = false → b.NulFree) := by
  have hb := build_built s b defaults rc
  generalize s.build b defaults rc = r at hb
  cases hb with
  | already hf => exact iff_of_true (fun _ _ => rfl) fun hn => by rw [hf] at hn; cases hn
  | nul hf hnul =>
    refine iff_of_false (fun hk => ?_) fun hn => hnul (hn hf)
    have : true = s.flag := hk _ rfl
    rw [hf] at this
    cases this
  | failed _ hnul _ _ => exact iff_of_true (fun _ _ => rfl) fun _ => hnul
  | ok _ hnul _ _ => exact iff_of_true (fun _ he => by cases he) fun _ => hnul

/-- A build without NUL bytes that fails with `AlreadyInitialized` found the flag raised. -/
theorem flag_of_alreadyInitialized (hb : b.NulFree)
    (h : (s.build b defaults rc).1 = .error .alreadyInitialized) : s.flag = true := by
  have hbuilt := build_built s b defaults rc
  generalize s.build b defaults rc = r at hbuilt h
  cases hbuilt with
  | already hf => exact hf
  | nul _ hnul => exact absurd hb hnul
  | failed _ _ _ _ => cases h
  | ok _ _ _ _ => cases h

/-- **The flag tracks the guard** exactly in the runs in which no build gets past the flag with a
NUL byte. Such a build is also the only one that fails and changes the flag; without it, a build
that finds the environment initialised finds a guard alive. -/
theorem envFlag_iff (s : State) :
    (lts.ReachBy NulFreeBuilds s ↔ lts.ReachIn FlagTracksGuard s) ∧
    (∀ b defaults rc,
      (∀ e, (s.build b defaults rc).1 = .error e →
        (s.build b defaults rc).2.isInitialized = s.isInitialized) ↔
      (s.flag = false → b.NulFree)) ∧
    (lts.ReachBy NulFreeBuilds s → ∀ b defaults rc, b.NulFree →
      (s.build b defaults rc).1 = .error .alreadyInitialized → 0 < s.guards) := by
  have h0 : FlagTracksGuard lts.init := iff_of_false Bool.false_ne_true (Nat.lt_irrefl 0)
  have hiff : lts.ReachBy NulFreeBuilds s ↔ lts.ReachIn FlagTracksGuard s :=
    Lts.reachBy_iff_reachIn h0 fun hr hp hs => flagTracksGuard_step (oneGuard_of_reach hr) hp hs
  refine ⟨hiff, failed_build_iff s, fun h b defaults rc hb he => ?_⟩
  exact (hiff.1 h).holds.1 (flag_of_alreadyInitialized hb he)

/-- A failed build, a guard that is dropped, a second guard, and a build beside it. -/
theorem envFlag_second_guard : ∃ s, lts.ReachIn FlagTracksGuard s ∧ 0 < s.guards := by
  let d : EnvOpts := ⟨none, none, -1, -1, -1, false, false, false⟩
  obtain ⟨s, hs, hp⟩ := Lts.exists_of_runBy (M := lts) (G := NulFreeBuilds)
    [.build .new d (-1), .build .new d 0, .drop, .build .new d 0, .build .new d 0]
    (fun s => decide ((s.build .new d 0).1 = .error .alreadyInitialized)) (by decide)
  exact ⟨s, (envFlag_iff s).1.1 hs,
    (envFlag_iff s).2.2 hs .new d 0 (by decide) (of_decide_eq_true hp)⟩

/-- After a build with the name `a\0b` the flag is raised, and no guard is alive. -/
theorem not_flagTracksGuard : ¬ ∀ s, lts.Reach s → FlagTracksGuard s := by
  intro hall
  let d : EnvOpts := ⟨none, none, -1, -1, -1, false, false, false⟩
  obtain ⟨s, hs, hp⟩ := Lts.exists_of_run (M := lts)
    [.build { SpdkEnvBuilder.new with name := some [97, 0, 98] } d 0]
    (fun s => s.flag && decide (s.guards = 0)) (by decide)
  obtain ⟨hf, hg⟩ := Bool.and_eq_true_iff.1 hp
  have hpos := (hall s hs).1 hf
  rw [of_decide_eq_true hg] at hpos
  exact absurd hpos (Nat.lt_irrefl 0)

end SpdkIo.Env
