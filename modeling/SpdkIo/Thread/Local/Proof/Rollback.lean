import SpdkIo.Thread.Local.Proof.Exits

/-!
# Creations that fail

`failedCurrent_iff`: `SpdkThread::current` and `SpdkThread::current_with_mempool_size` leave the
thread library as it was when they fail, unless they initialised it themselves and failed after
that. Only the failure of the init function is undone.
-/

namespace SpdkIo.Thread.Local

variable {s s' : State} {name : List UInt8} {rc : Int32} {null : Bool}

/-- The library, its flag and the current thread are the same in both states. -/
structure SameLibrary (s s' : State) : Prop where
  ready : s'.ready = s.ready
  flag : s'.flag = s.flag
  thread : s'.getCurrent = s.getCurrent

/-- If the function fails, it leaves the library as it was. -/
def FailureKeeps {α : Type} (s : State) (r : Result α × State) : Prop :=
  ∀ e, r.1 = .error e → SameLibrary s r.2

/-- The call initialises the library, and then the name has a NUL byte or `spdk_thread_create`
returns NULL. -/
def FailsInitialised (s : State) (name : List UInt8) (rc : Int32) (null : Bool) : Prop :=
  s.flag = false ∧ rc = 0 ∧ (0 ∈ name ∨ null = true)

/-- An `attach` that fails changes nothing. -/
theorem Attached.failureKeeps {r : Result SpdkId × State} (h : Attached s name null r) :
    FailureKeeps s r := by
  cases h with
  | failed _ => exact fun _ _ => ⟨rfl, rfl, rfl⟩
  | ok _ _ => exact fun _ he => by cases he

theorem Attached.failed_iff {r : Result SpdkId × State} (h : Attached s name null r) :
    (∃ e, r.1 = .error e) ↔ 0 ∈ name ∨ null = true := by
  cases h with
  | failed hf => exact iff_of_true ⟨_, rfl⟩ hf
  | ok hm hnull =>
    refine iff_of_false (fun ⟨_, he⟩ => by cases he) fun hf => ?_
    rcases hf with hf | hf
    · exact hm hf
    · rw [hnull] at hf
      cases hf

theorem Current.failureKeeps_iff {r : Result SpdkId × State} (h : Current s name rc null r) :
    FailureKeeps s r ↔ ¬ FailsInitialised s name rc null := by
  cases h with
  | failed _ hrc => exact iff_of_true (fun _ _ => ⟨rfl, rfl, rfl⟩) fun hf => hrc hf.2.1
  | attach hinit hatt =>
    cases hinit with
    | already hf =>
      refine iff_of_true (fun e he => ?_) fun hg => ?_
      · have hk := hatt.failureKeeps e he
        exact ⟨hk.ready, hk.flag, hk.thread⟩
      · cases hf.symm.trans hg.1
    | ok hf hrc =>
      -- the flag was raised by this call, so a failure of `attach` leaves it raised
      constructor
      · intro hk hg
        obtain ⟨e, he⟩ := hatt.failed_iff.2 hg.2.2
        have hflag := (hatt.failureKeeps e he).flag.symm.trans (hk e he).flag
        rw [hf] at hflag
        cases hflag
      · intro hg e he
        exact absurd ⟨hf, hrc, hatt.failed_iff.1 ⟨e, he⟩⟩ hg

/-- **A creation that fails leaves the library as it was** exactly if it did not initialise it
before it failed. -/
theorem failedCurrent_iff (s : State) (name : List UInt8) (size : UInt64) (rc : Int32)
    (null : Bool) :
    (FailureKeeps s (s.current name rc null) ↔ ¬ FailsInitialised s name rc null) ∧
    (FailureKeeps s (s.currentWithMempoolSize name size rc null) ↔
      ¬ FailsInitialised s name rc null) :=
  ⟨(currentBy_exits s .libInit name rc null).failureKeeps_iff,
    (currentBy_exits s (.libInitExt size) name rc null).failureKeeps_iff⟩

/-- The first call, with `spdk_thread_create` returning NULL: the library stays initialised, and
there is no `SpdkThread`. -/
theorem not_failureKeeps : ¬ ∀ (s : State) name rc null,
    FailureKeeps s (s.current name rc null) := by
  intro hall
  have hkeeps := hall lts.init [97] 0 true (.envInit "spdk_thread_create returned NULL") rfl
  cases hkeeps.ready

end SpdkIo.Thread.Local
