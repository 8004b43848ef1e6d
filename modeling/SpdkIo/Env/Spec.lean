import SpdkIo.Env.Model

/-!
# The rule of one environment

What the SPDK environment is for a process, over the calls of SPDK alone: it is unused, then up,
then down for good. `OncePerProcess` is the documented rule: the calls that bring it up
(`spdk_env_init`, `spdk_app_start`) find it unused.
-/

namespace SpdkIo.Env

inductive Phase
  | unused
  | up
  | down
  deriving DecidableEq

/-- The phase after a call. An `spdk_env_init` that fails changes nothing; from `spdk_app_start` to
`spdk_app_fini` the environment is up. -/
def Phase.after : Phase → Call → Phase
  | p, .logSetPrintLevel _ => p
  | p, .envInit _ rc => if rc = 0 then .up else p
  | _, .appStart _ => .up
  | _, .envFini | _, .appFini => .down

/-- The phase after all the calls. -/
def phase (calls : List Call) : Phase := calls.foldl Phase.after .unused

/-- The call brings the environment up. -/
def Call.starts : Call → Bool
  | .envInit _ _ | .appStart _ => true
  | .logSetPrintLevel _ | .envFini | .appFini => false

/-- SPDK is started only where it was never up before. -/
def OncePerProcess (calls : List Call) : Prop :=
  ∀ before c after, calls = before ++ c :: after → c.starts = true → phase before = .unused

variable {calls : List Call} {c : Call}

@[simp] theorem phase_append : phase (calls ++ [c]) = (phase calls).after c := by
  rw [phase, List.foldl_append]
  rfl

/-- The log level does not touch the environment. -/
theorem phase_logLevel (levels : List LogLevel) :
    phase (calls ++ levels.map .logSetPrintLevel) = phase calls := by
  induction levels generalizing calls with
  | nil => rw [List.map_nil, List.append_nil]
  | cons level levels ih =>
    rw [List.map_cons, ← List.singleton_append, ← List.append_assoc, ih, phase_append]
    rfl

theorem oncePerProcess_append :
    OncePerProcess (calls ++ [c]) ↔
      OncePerProcess calls ∧ (c.starts = true → phase calls = .unused) := by
  constructor
  · intro h
    refine ⟨fun before d after hd hs => h before d (after ++ [c]) ?_ hs,
      fun hs => h calls c [] rfl hs⟩
    rw [hd, List.append_assoc, List.cons_append]
  · rintro ⟨h, hc⟩ before d after hd hs
    rcases List.eq_nil_or_concat after with rfl | ⟨after, e, rfl⟩
    · obtain ⟨rfl, rfl⟩ := List.append_singleton_inj.1 hd
      exact hc hs
    · rw [List.concat_eq_append, ← List.cons_append, ← List.append_assoc] at hd
      obtain ⟨rfl, -⟩ := List.append_singleton_inj.1 hd
      exact h before d after rfl hs

theorem oncePerProcess_logLevel (levels : List LogLevel) :
    OncePerProcess (calls ++ levels.map .logSetPrintLevel) ↔ OncePerProcess calls := by
  induction levels generalizing calls with
  | nil => rw [List.map_nil, List.append_nil]
  | cons level levels ih =>
    rw [List.map_cons, ← List.singleton_append, ← List.append_assoc, ih, oncePerProcess_append]
    exact and_iff_left fun hs => by cases hs

end SpdkIo.Env
