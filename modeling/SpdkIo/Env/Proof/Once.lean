import SpdkIo.Env.Proof.Lifecycle
import SpdkIo.Env.Spec

/-!
# Starting SPDK once

`oncePerProcess_iff`: SPDK is started once per process exactly if the program sees to it. The flag
only keeps out a `build` while a guard is alive: a drop lowers it, and `run` neither reads nor
raises it.
-/

namespace SpdkIo.Env

variable {s s' : State}

/-! ## The phase -/

/-- The environment is unused exactly until the first guard or the first `spdk_app_start`. -/
structure PhaseInv (s : State) : Prop where
  unused : phase s.calls = .unused ↔ s.guards = 0 ∧ s.dropped = 0 ∧ s.runs = 0
  running : s.running ≤ s.runs

theorem phase_callsOf (b : SpdkEnvBuilder) (opts : EnvOpts) (rc : Int32) :
    phase (s.callsOf b opts rc) = if rc = 0 then .up else phase s.calls := by
  rw [State.callsOf, phase_append, phase_logLevel]
  rfl

theorem oncePerProcess_callsOf (b : SpdkEnvBuilder) (opts : EnvOpts) (rc : Int32) :
    OncePerProcess (s.callsOf b opts rc) ↔ OncePerProcess s.calls ∧ phase s.calls = .unused := by
  rw [State.callsOf, oncePerProcess_append, oncePerProcess_logLevel, phase_logLevel]
  exact and_congr_right fun _ => ⟨fun h => h rfl, fun h _ => h⟩

theorem PhaseInv.step (h : PhaseInv s) {a : Action} (hs : s.step a = some s') : PhaseInv s' := by
  cases a with
  | build b defaults rc =>
    obtain rfl := Option.some.inj hs
    have hb := build_built s b defaults rc
    generalize s.build b defaults rc = r at hb
    cases hb with
    | already _ => exact h
    | nul _ _ => exact { h with }
    | failed _ _ _ hrc =>
      refine ⟨?_, h.running⟩
      show phase (s.callsOf b _ rc) = _ ↔ _
      rw [phase_callsOf, if_neg hrc]
      exact h.unused
    | ok _ _ _ hrc =>
      refine ⟨?_, h.running⟩
      show phase (s.callsOf b _ rc) = _ ↔ _
      rw [phase_callsOf, if_pos hrc]
      exact iff_of_false (by simp) fun hg => Nat.succ_ne_zero _ hg.1
  | drop =>
    obtain ⟨-, rfl⟩ := drop_eq_some hs
    refine ⟨?_, h.running⟩
    show phase (s.calls ++ [.envFini]) = _ ↔ _
    rw [phase_append]
    exact iff_of_false (by simp [Phase.after]) fun hg => Nat.succ_ne_zero _ hg.2.1
  | run b defaults =>
    obtain ⟨-, rfl⟩ | ⟨-, opts, rfl⟩ := run_step hs
    · exact h
    · refine ⟨?_, Nat.succ_le_succ h.running⟩
      show phase (s.calls ++ [.appStart opts]) = _ ↔ _
      rw [phase_append]
      exact iff_of_false (by simp [Phase.after]) fun hg => Nat.succ_ne_zero _ hg.2.2
  | runRet rc =>
    obtain ⟨hrun, rfl⟩ := runRet_step hs
    have hle := h.running
    refine ⟨?_, by show s.running - 1 ≤ s.runs; omega⟩
    show phase (s.calls ++ [.appFini]) = _ ↔ s.guards = 0 ∧ s.dropped = 0 ∧ s.runs = 0
    rw [phase_append]
    exact iff_of_false (by simp [Phase.after]) (by omega)

theorem phaseInv_of_reach (h : lts.Reach s) : PhaseInv s :=
  h.invariant ⟨iff_of_true rfl ⟨rfl, rfl, rfl⟩, Nat.le_refl 0⟩ fun hi hs => hi.step hs

/-! ## The condition -/

/-- A `build` without NUL bytes that finds the flag lowered comes before the first drop of a guard
and the first `run`; a `run` without NUL bytes comes before every guard and every other `run`. -/
def FirstUse (s : State) : Action → Prop
  | .build b _ _ => s.flag = false → b.NulFree → s.dropped = 0 ∧ s.runs = 0
  | .run b _ => b.NulFree → s.guards = 0 ∧ s.dropped = 0 ∧ s.runs = 0
  | _ => True

instance (s : State) : ∀ a, Decidable (FirstUse s a)
  | .build b _ _ =>
    inferInstanceAs (Decidable (s.flag = false → b.NulFree → s.dropped = 0 ∧ s.runs = 0))
  | .run b _ =>
    inferInstanceAs (Decidable (b.NulFree → s.guards = 0 ∧ s.dropped = 0 ∧ s.runs = 0))
  | .drop | .runRet _ => .isTrue trivial

/-- A step keeps the rule exactly if it meets `FirstUse`. -/
theorem oncePerProcess_step (h1 : OneGuard s) (hphase : PhaseInv s) (h : OncePerProcess s.calls)
    {a : Action} (hs : s.step a = some s') : OncePerProcess s'.calls ↔ FirstUse s a := by
  cases a with
  | build b defaults rc =>
    obtain rfl := Option.some.inj hs
    have hb := build_built s b defaults rc
    -- with the flag lowered there is no guard
    have hunused : s.flag = false → (phase s.calls = .unused ↔ s.dropped = 0 ∧ s.runs = 0) := by
      intro hf
      rw [hphase.unused]
      exact and_iff_right (h1.lowered hf)
    generalize s.build b defaults rc = r at hb
    cases hb with
    | already hf => exact iff_of_true h fun hn => by rw [hf] at hn; cases hn
    | nul _ hnul => exact iff_of_true h fun _ hn => absurd hn hnul
    | failed hf hnul _ _ | ok hf hnul _ _ =>
      show OncePerProcess (s.callsOf b _ rc) ↔ _
      rw [oncePerProcess_callsOf, hunused hf]
      exact ⟨fun hp _ _ => hp.2, fun hg => ⟨h, hg hf hnul⟩⟩
  | drop =>
    obtain ⟨-, rfl⟩ := drop_eq_some hs
    exact iff_of_true (oncePerProcess_append.2 ⟨h, fun hs => by cases hs⟩) trivial
  | run b defaults =>
    obtain ⟨hnul, rfl⟩ | ⟨hnul, opts, rfl⟩ := run_step hs
    · exact iff_of_true h fun hn => absurd hn hnul
    · show OncePerProcess (s.calls ++ [.appStart opts]) ↔ _
      rw [oncePerProcess_append, hphase.unused]
      exact ⟨fun hp _ => hp.2 rfl, fun hg => ⟨h, fun _ => hg hnul⟩⟩
  | runRet rc =>
    obtain ⟨-, rfl⟩ := runRet_step hs
    exact iff_of_true (oncePerProcess_append.2 ⟨h, fun hs => by cases hs⟩) trivial

/-- A build that meets `FirstUse` where SPDK was started before fails without reaching it. -/
theorem build_of_started (h1 : OneGuard s) (hphase : PhaseInv s) (hp : phase s.calls ≠ .unused)
    {b : SpdkEnvBuilder} {defaults : EnvOpts} {rc : Int32}
    (hg : FirstUse s (.build b defaults rc)) :
    ∃ e s', s.build b defaults rc = (.error e, s') ∧ s'.calls = s.calls := by
  have hfirst : s.flag = false → ¬ b.NulFree := fun hf hnul =>
    hp (hphase.unused.2 ⟨h1.lowered hf, hg hf hnul⟩)
  have hb := build_built s b defaults rc
  generalize s.build b defaults rc = r at hb
  cases hb with
  | already _ => exact ⟨_, _, rfl, rfl⟩
  | nul _ _ => exact ⟨_, _, rfl, rfl⟩
  | failed hf hnul _ _ | ok hf hnul _ _ => exact absurd hnul (hfirst hf)

theorem run_of_started (hphase : PhaseInv s) (hp : phase s.calls ≠ .unused)
    {b : SpdkAppBuilder} {defaults : AppOpts} (hg : FirstUse s (.run b defaults)) :
    ∃ e, s.run b defaults = .error e := by
  have hnul : ¬ b.NulFree := fun hn => hp (hphase.unused.2 (hg hn))
  obtain ⟨e, he⟩ := b.opts_of_not hnul defaults
  exact ⟨e, by rw [State.run, he]; rfl⟩

/-- **SPDK is started once** exactly in the runs of the program that meet `FirstUse`; there, a call
that comes too late fails without reaching SPDK. -/
theorem oncePerProcess_iff (s : State) :
    (lts.ReachBy FirstUse s ↔ lts.ReachIn (fun s => OncePerProcess s.calls) s) ∧
    (lts.ReachBy FirstUse s → phase s.calls ≠ .unused →
      (∀ b defaults rc, FirstUse s (.build b defaults rc) →
        ∃ e s', s.build b defaults rc = (.error e, s') ∧ s'.calls = s.calls) ∧
      ∀ b defaults, FirstUse s (.run b defaults) → ∃ e, s.run b defaults = .error e) := by
  have h0 : OncePerProcess lts.init.calls := fun before c after hc _ => by
    have := congrArg List.length hc
    simp [lts] at this
  refine ⟨Lts.reachBy_iff_reachIn (P := fun s => OncePerProcess s.calls) h0 fun hr hp hs =>
    oncePerProcess_step (oneGuard_of_reach hr) (phaseInv_of_reach hr) hp hs, fun h hp => ?_⟩
  have hreach : lts.Reach s := h.mono fun _ _ _ => trivial
  have hphase := phaseInv_of_reach hreach
  exact ⟨fun b defaults rc hg => build_of_started (oneGuard_of_reach hreach) hphase hp hg,
    fun b defaults hg => run_of_started hphase hp hg⟩

/-- A guard after a build that failed, and a second build while it is alive. -/
theorem oncePerProcess_guard : ∃ s, lts.ReachIn (fun s => OncePerProcess s.calls) s ∧
    s.calls.length = 2 ∧ ∃ e s', s.build .new ⟨none, none, -1, -1, -1, false, false, false⟩ 0 =
      (.error e, s') ∧ s'.calls = s.calls := by
  let d : EnvOpts := ⟨none, none, -1, -1, -1, false, false, false⟩
  obtain ⟨s, hs, hp⟩ := Lts.exists_of_runBy (M := lts) (G := FirstUse)
    [.build .new d (-1), .build .new d 0]
    (fun s => decide (s.flag = true ∧ s.calls.length = 2 ∧ phase s.calls = .up)) (by decide)
  obtain ⟨hf, hlen, hup⟩ := of_decide_eq_true hp
  have hstarted : phase s.calls ≠ .unused := by
    rw [hup]
    decide
  exact ⟨s, (oncePerProcess_iff s).1.1 hs, hlen,
    ((oncePerProcess_iff s).2 hs hstarted).1 .new d 0 fun hn => by rw [hf] at hn; cases hn⟩

/-- `spdk_env_init` is called again after the guard was dropped. -/
theorem not_oncePerProcess : ¬ ∀ s, lts.Reach s → OncePerProcess s.calls := by
  intro hall
  let d : EnvOpts := ⟨none, none, -1, -1, -1, false, false, false⟩
  obtain ⟨s, hs, hp⟩ := Lts.exists_of_run (M := lts)
    [.build .new d 0, .drop, .build .new d 0]
    (fun s => decide (s.calls = [.envInit d 0, .envFini, .envInit d 0])) (by decide)
  have hphase := hall s hs [.envInit d 0, .envFini] (.envInit d 0) [] (of_decide_eq_true hp) rfl
  cases hphase

end SpdkIo.Env
