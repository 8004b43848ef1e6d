import SpdkIo.Poller.Model

/-!
# The polls of the poller task

`limited_run`: in every run of `spdk_poller_limited(max_iters)` the task calls `thread.poll()`
exactly `max_iters` times until it returns, yields once for each call that found no work and never
else, and wakes itself each time it yields; for 0 it never returns. The invariant counts the
iterations that are done and left (`Inv.place`).
-/

namespace SpdkIo.Poller

/-- The number of polls of the future that have not returned `Pending`. -/
def Pc.open : Pc → Nat
  | .unresumed | .yielding _ _ => 0
  | .loop _ | .returned | .panicked _ => 1

/-- The task will not be polled again. -/
def Pc.ended : Pc → Bool
  | .returned | .panicked _ => true
  | _ => false

/-- `left` iterations are left of `maxIters`, after `done`. -/
def Left (maxIters : UInt64) (done : Nat) : Option Nat → Prop
  | none => maxIters = 0
  | some l => maxIters ≠ 0 ∧ done + l = maxIters.toNat

/-- Where the task is, by the results of its polls. -/
def Pc.At (maxIters : UInt64) (works : List Int32) : Pc → Prop
  | .unresumed | .panicked _ => works = []
  | .loop left => left ≠ some 0 ∧ Left maxIters works.length left
  | .yielding y left =>
    y.yielded = true ∧ works.getLast? = some 0 ∧ Left maxIters works.length left
  | .returned => Left maxIters works.length (some 0)

structure Inv (maxIters : UInt64) (s : State) : Prop where
  place : s.pc.At maxIters s.works
  pendings : s.pendings = s.works.count 0
  wakes : s.wakes = s.pendings
  resumes : s.resumes = s.pendings + s.pc.open

variable {maxIters : UInt64} {s s' : State} {left : Option Nat}

theorem Inv.init : Inv maxIters (lts maxIters).init := ⟨rfl, rfl, rfl, rfl⟩

/-- The task goes on to the next iteration. -/
theorem Inv.next (hleft : Left maxIters s.works.length left)
    (hpendings : s.pendings = s.works.count 0) (hwakes : s.wakes = s.pendings)
    (hresumes : s.resumes = s.pendings + 1) : Inv maxIters (s.next left) := by
  unfold State.next
  split
  · rename_i h0
    subst h0
    exact ⟨hleft, hpendings, hwakes, hresumes⟩
  · rename_i h0
    exact ⟨⟨h0, hleft⟩, hpendings, hwakes, hresumes⟩

theorem left_init (h : maxIters ≠ 0) : Left maxIters 0 (some maxIters.toNat) :=
  ⟨h, Nat.zero_add _⟩

/-- An iteration is done. -/
theorem Left.succ {done : Nat} (h : Left maxIters done left) (h0 : left ≠ some 0) :
    Left maxIters (done + 1) (left.map (· - 1)) := by
  cases left with
  | none => exact h
  | some l =>
    have hl : l ≠ 0 := fun hl => h0 (by rw [hl])
    obtain ⟨hne, hsum⟩ := h
    refine ⟨hne, ?_⟩
    simp only
    omega

theorem Left.le {done : Nat} (h : Left maxIters done left) (h0 : maxIters ≠ 0) :
    done ≤ maxIters.toNat := by
  cases left with
  | none => exact absurd h h0
  | some l =>
    have := h.2
    omega

theorem Inv.resume (h : Inv maxIters s) {current : Bool}
    (hs : s.resume maxIters current = some s') : Inv maxIters s' := by
  obtain ⟨hplace, hpendings, hwakes, hresumes⟩ := h
  unfold State.resume at hs
  cases hpc : s.pc with
  | unresumed =>
    simp only [hpc] at hs
    rw [hpc] at hplace hresumes
    have hworks : s.works = [] := hplace
    split at hs
    · rename_i h0
      split at hs
      · obtain rfl := Option.some.inj hs
        exact Inv.next h0 hpendings hwakes (by simp [hresumes, Pc.open])
      · obtain rfl := Option.some.inj hs
        exact ⟨hworks, hpendings, hwakes, by simp [hresumes, Pc.open]⟩
    · rename_i h0
      split at hs
      · obtain rfl := Option.some.inj hs
        refine Inv.next ?_ hpendings hwakes (by simp [hresumes, Pc.open])
        show Left maxIters s.works.length _
        rw [hworks]
        exact left_init h0
      · obtain rfl := Option.some.inj hs
        exact ⟨hworks, hpendings, hwakes, by simp [hresumes, Pc.open]⟩
  | yielding y left =>
    simp only [hpc] at hs
    rw [hpc] at hplace hresumes
    obtain ⟨hy, -, hleft⟩ := hplace
    obtain rfl := Option.some.inj hs
    simp only [State.await, YieldNow.poll, hy, if_true, Bool.toNat_false, Nat.add_zero]
    exact Inv.next hleft hpendings hwakes (by simp [hresumes, Pc.open])
  | loop left => simp [hpc] at hs
  | returned => simp [hpc] at hs
  | panicked message => simp [hpc] at hs

theorem Inv.threadPoll (h : Inv maxIters s) {work : Int32}
    (hs : s.threadPoll work = some s') : Inv maxIters s' := by
  obtain ⟨hplace, hpendings, hwakes, hresumes⟩ := h
  unfold State.threadPoll at hs
  cases hpc : s.pc with
  | loop left =>
    simp only [hpc] at hs
    rw [hpc] at hplace hresumes
    have hleft := hplace.2.succ hplace.1
    have hlen : (s.works ++ [work]).length = s.works.length + 1 := by simp
    split at hs
    · rename_i h0
      obtain rfl := Option.some.inj hs
      subst h0
      simp only [State.await, YieldNow.poll, yieldNow, Bool.false_eq_true, if_false,
        Bool.toNat_true]
      exact
        { place := ⟨rfl, by simp, by rw [hlen]; exact hleft⟩
          pendings := by simp [hpendings]
          wakes := by simp [hwakes]
          resumes := by simp [hresumes, Pc.open] }
    · rename_i h0
      obtain rfl := Option.some.inj hs
      refine Inv.next (by rw [hlen]; exact hleft) ?_ hwakes hresumes
      simp [hpendings, h0]
  | unresumed => simp [hpc] at hs
  | yielding y left => simp [hpc] at hs
  | returned => simp [hpc] at hs
  | panicked message => simp [hpc] at hs

theorem inv_of_reach (h : (lts maxIters).Reach s) : Inv maxIters s :=
  Lts.Reach.invariant Inv.init (fun {_ a _} hi hs => by
    cases a with
    | resume current => exact hi.resume hs
    | threadPoll work => exact hi.threadPoll hs) h

/-- No more iterations than asked for. -/
theorem Inv.length_le (h : Inv maxIters s) (h0 : maxIters ≠ 0) :
    s.works.length ≤ maxIters.toNat := by
  have hplace := h.place
  cases hpc : s.pc with
  | unresumed =>
    rw [hpc] at hplace
    have hworks : s.works = [] := hplace
    simp [hworks]
  | panicked message =>
    rw [hpc] at hplace
    have hworks : s.works = [] := hplace
    simp [hworks]
  | loop left =>
    rw [hpc] at hplace
    exact hplace.2.le h0
  | yielding y left =>
    rw [hpc] at hplace
    exact hplace.2.2.le h0
  | returned =>
    rw [hpc] at hplace
    have hleft : Left maxIters s.works.length (some 0) := hplace
    exact hleft.le h0

/-- When the task has returned. -/
theorem Inv.returned_iff (h : Inv maxIters s) :
    s.pc = .returned ↔
      maxIters ≠ 0 ∧ s.works.length = maxIters.toNat ∧ s.resumes = s.pendings + 1 := by
  obtain ⟨hplace, -, -, hresumes⟩ := h
  refine ⟨fun hpc => ?_, fun hend => ?_⟩
  · rw [hpc] at hplace hresumes
    exact ⟨hplace.1, hplace.2, hresumes⟩
  · obtain ⟨h0, hlen, hopen⟩ := hend
    cases hpc : s.pc with
    | returned => rfl
    | unresumed =>
      rw [hpc, Pc.open] at hresumes
      omega
    | yielding y left =>
      rw [hpc, Pc.open] at hresumes
      omega
    | panicked message =>
      rw [hpc] at hplace
      have hworks : s.works = [] := hplace
      rw [hworks, List.length_nil] at hlen
      exact absurd (UInt64.toNat_inj.1 hlen.symm) h0
    | loop left =>
      rw [hpc] at hplace
      obtain ⟨hne, hleft⟩ := hplace
      cases left with
      | none => exact absurd hleft h0
      | some l =>
        have hl : l = 0 := by
          have := hleft.2
          omega
        exact absurd (congrArg some hl) hne

/-- A task that has not ended can be resumed, or polls the thread. -/
theorem progress (s : State) (h : s.pc.ended = false) :
    (∀ current, ∃ s', s.resume maxIters current = some s') ∨
      ∀ work, ∃ s', s.threadPoll work = some s' := by
  unfold State.resume State.threadPoll
  cases hpc : s.pc with
  | unresumed =>
    refine .inl fun current => ?_
    dsimp only
    repeat' split
    all_goals exact ⟨_, rfl⟩
  | loop left =>
    refine .inr fun work => ?_
    dsimp only
    split
    · exact ⟨_, rfl⟩
    · exact ⟨_, rfl⟩
  | yielding y left => exact .inl fun _ => ⟨_, rfl⟩
  | returned =>
    rw [hpc] at h
    cases h
  | panicked message =>
    rw [hpc] at h
    cases h

/-- **Every run of `spdk_poller_limited`**: what the executor sees of it, when it returns, and that
it does not stop before. -/
theorem limited_run {maxIters : UInt64} {s : State} (h : (lts maxIters).Reach s) :
    s.pendings = s.works.count 0 ∧ s.wakes = s.pendings ∧ s.resumes ≤ s.pendings + 1 ∧
      (maxIters ≠ 0 → s.works.length ≤ maxIters.toNat) ∧
      (s.pc = .returned ↔
        maxIters ≠ 0 ∧ s.works.length = maxIters.toNat ∧ s.resumes = s.pendings + 1) ∧
      (∀ y left, s.pc = .yielding y left → s.works.getLast? = some 0) ∧
      (s.pc.ended = false → (∀ current, ∃ s', s.resume maxIters current = some s') ∨
        ∀ work, ∃ s', s.threadPoll work = some s') := by
  have hinv := inv_of_reach h
  refine ⟨hinv.pendings, hinv.wakes, ?_, hinv.length_le, hinv.returned_iff, fun y left hpc => ?_,
    progress s⟩
  · have hresumes := hinv.resumes
    have hopen : s.pc.open ≤ 1 := by cases s.pc <;> simp [Pc.open]
    omega
  · have hplace := hinv.place
    rw [hpc] at hplace
    exact hplace.2.1

/-- Two iterations, the second without work: the task has yielded once and returned. -/
theorem limited_run_two : ∃ s : State, s.pc = .returned ∧ s.works.length = 2 := by
  obtain ⟨s, hs, hp⟩ := Lts.exists_of_run (M := lts 2)
    [.resume true, .threadPoll 1, .threadPoll 0, .resume true]
    (fun s => decide (s.works.length = 2 ∧ s.resumes = s.pendings + 1)) (by decide)
  obtain ⟨hlen, hresumes⟩ := of_decide_eq_true hp
  obtain ⟨-, -, -, -, hreturned, -, -⟩ := limited_run hs
  exact ⟨s, hreturned.2 ⟨by decide, hlen, hresumes⟩, hlen⟩

end SpdkIo.Poller
