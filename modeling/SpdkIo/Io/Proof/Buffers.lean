import SpdkIo.Io.Proof.Inv

/-!
# Buffers of operations in flight

A future borrows its buffer while it is alive; SPDK uses the buffer until the callback.
`buffersKept_of_reach`: as long as no future is dropped while its operation is in flight, no buffer
in use by SPDK is written to or freed. `not_buffersKept`: a dropped future gives its buffer back
too early.
-/

namespace SpdkIo.Io

variable {O : Oneshot (Result Unit)}

/-- The buffer that the caller writes to or frees. -/
def Action.touches : Action → Option BufId
  | .mutate b | .free b => some b
  | _ => none

/-- No buffer of an operation in flight can be written to or freed. -/
def BuffersKept (s : State O) : Prop :=
  ∀ a b s', a.touches = some b → s.step a = some s' →
    ∀ op ∈ s.ops, op.buf = some b → op.inFlight = false

/-- The future of an operation in flight is dropped. -/
def State.dropsInFlight (s : State O) : Action → Bool
  | .drop i => s.ops[i]?.any (·.inFlight)
  | _ => false

/-- The step keeps the futures of the operations in flight. -/
abbrev KeepsInFlight (s : State O) (a : Action) : Prop := s.dropsInFlight a = false

/-- No future of an operation in flight was dropped. -/
def FuturesKept (s : State O) : Prop :=
  ∀ op ∈ s.ops, op.inFlight = true → op.fut ≠ .dropped

variable {s s' : State O}

/-! ## Steps -/

/-- An operation changes, and does not become one in flight whose future was dropped. -/
theorem FuturesKept.set {i : OpId} {op' : Op O} (h : FuturesKept s)
    (hop' : op'.inFlight = true → op'.fut ≠ .dropped) :
    ∀ o ∈ s.ops.set i op', o.inFlight = true → o.fut ≠ .dropped := by
  intro o ho
  rcases List.mem_or_eq_of_mem_set ho with ho | rfl
  · exact h o ho
  · exact hop'

theorem FuturesKept.append {op' : Op O} (h : FuturesKept s) (hop' : op'.fut ≠ .dropped) :
    FuturesKept { s with ops := s.ops ++ [op'] } := by
  intro o ho hin
  rcases List.mem_append.1 ho with ho | ho
  · exact h o ho hin
  · obtain rfl := List.mem_singleton.1 ho
    exact hop'

theorem FuturesKept.pollRx {i : OpId} {op : Op O} (h : FuturesKept s) :
    FuturesKept (s.pollRx i op) := by
  unfold State.pollRx
  split
  · exact h.set fun _ hd => by cases hd
  · exact h.set fun _ hd => by cases hd

theorem FuturesKept.call (h : FuturesKept s) {kind : OpKind} {buf : Option BufId}
    (hs : s.call kind buf = some s') : FuturesKept s' := by
  unfold State.call at hs
  split at hs
  · cases hs
    exact h.append fun hd => by cases hd
  · obtain ⟨-, hs⟩ := Option.ite_none_right_eq_some.1 hs
    cases hs
    exact h.append fun hd => by cases hd
  · cases hs

theorem FuturesKept.submit (h : FuturesKept s) {i : OpId} {ctx : Addr} {rc : Int32}
    (hs : s.submit i ctx rc = some s') : FuturesKept s' := by
  unfold State.submit at hs
  obtain ⟨op, -, hs⟩ := Option.bind_eq_some_iff.1 hs
  split at hs
  · obtain ⟨heap, -, rfl⟩ := Option.map_eq_some_iff.1 hs
    exact h.set fun _ hd => by cases hd
  · cases hs

theorem FuturesKept.ret (h : FuturesKept s) {i : OpId} (hs : s.ret i = some s') :
    FuturesKept s' := by
  unfold State.ret at hs
  obtain ⟨op, -, hs⟩ := Option.bind_eq_some_iff.1 hs
  split at hs
  · split at hs
    · cases hs
      exact h.set fun _ hd => by cases hd
    · cases hs
      exact h.pollRx
  · cases hs

theorem FuturesKept.poll (h : FuturesKept s) {i : OpId} (hs : s.poll i = some s') :
    FuturesKept s' := by
  unfold State.poll at hs
  obtain ⟨op, -, hs⟩ := Option.bind_eq_some_iff.1 hs
  split at hs
  · cases hs
    exact h.pollRx
  · cases hs

/-- The one step that drops a future: it is not one of an operation in flight. -/
theorem FuturesKept.dropFut (h : FuturesKept s) {i : OpId}
    (hkeep : KeepsInFlight s (.drop i)) (hs : s.dropFut i = some s') : FuturesKept s' := by
  unfold State.dropFut at hs
  obtain ⟨op, hop, hs⟩ := Option.bind_eq_some_iff.1 hs
  have hout : op.inFlight = false := by
    have hk : s.ops[i]?.any (·.inFlight) = false := hkeep
    rwa [hop, Option.any_some] at hk
  split at hs
  · cases hs
    exact h.set fun hin => absurd (hout.symm.trans hin) (by decide)
  · cases hs
    exact h.set fun hin => absurd (hout.symm.trans hin) (by decide)
  · cases hs

theorem FuturesKept.callback (h : FuturesKept s) (hinv : Inv s) {i : OpId} {status : Status}
    (hs : s.callback i status = some s') : FuturesKept s' := by
  obtain ⟨op, ctx, result, -, -, -, rfl⟩ := hinv.callback_eq hs
  exact h.set fun hin => by cases hin

theorem FuturesKept.step (h : FuturesKept s) (hinv : Inv s) {a : Action}
    (hkeep : KeepsInFlight s a) (hs : s.step a = some s') : FuturesKept s' := by
  cases a with
  | alloc =>
    cases hs
    exact h
  | call kind buf => exact h.call hs
  | submit i ctx rc => exact h.submit hs
  | ret i => exact h.ret hs
  | poll i => exact h.poll hs
  | drop i => exact h.dropFut hkeep hs
  | callback i status => exact h.callback hinv hs
  | mutate b | free b =>
    obtain ⟨-, hs⟩ := Option.ite_none_right_eq_some.1 hs
    cases hs
    exact h

/-! ## Runs -/

/-- A buffer is touched only when no future that is alive borrows it. -/
theorem alive_of_touches {a : Action} {b : BufId} (ha : a.touches = some b)
    (hs : s.step a = some s') : ∀ op ∈ s.ops, op.buf = some b → op.alive = false := by
  have hborrow : s.mayBorrow b .mut = true := by
    cases a with
    | mutate b' | free b' =>
      cases ha
      exact (Option.ite_none_right_eq_some.1 hs).1
    | _ => cases ha
  intro op hop hb
  simp only [State.mayBorrow, State.borrowed, Bool.and_eq_true, Bool.not_eq_true',
    List.any_eq_false] at hborrow
  have := hborrow.2 op hop
  simpa [hb] using this

/-- **No buffer in use by SPDK is written to or freed**, in every run that keeps the futures of
the operations in flight. -/
theorem buffersKept_of_reach (h : (lts O).ReachBy KeepsInFlight s) : BuffersKept s := by
  have hkept : Inv s ∧ FuturesKept s :=
    Lts.ReachBy.invariant (I := fun s => Inv s ∧ FuturesKept s)
      ⟨Inv.init, fun op hop => by cases hop⟩
      (fun hi hg hs => ⟨hi.1.step hs, hi.2.step hi.1 hg hs⟩) h
  obtain ⟨hinv, hfut⟩ := hkept
  intro a b s' ha hs op hop hb
  have halive := alive_of_touches ha hs op hop hb
  obtain ⟨i, hi⟩ := List.getElem?_of_mem hop
  rw [← Bool.not_eq_true]
  intro hin
  rcases (hinv.ops hi).inFlight hin with hal | hd
  · rw [halive] at hal
    cases hal
  · exact hfut op hop hin hd

/-- A write and a read on one buffer, one dropped before it is submitted: it can be freed once the
other has completed. -/
theorem buffersKept_completed : ∃ s s' : State (.cell (Result Unit)),
    s.step (.free 0) = some s' ∧ ∀ op ∈ s.ops, op.buf = some 0 → op.inFlight = false := by
  obtain ⟨s, hs, hp⟩ := Lts.exists_of_runBy (M := lts (.cell (Result Unit))) (G := KeepsInFlight)
    [.alloc, .call .bdevWrite (some 0), .submit 0 7 0, .ret 0, .call .bdevWrite (some 0), .drop 1,
     .callback 0 (.bdev true), .poll 0]
    (fun s => (s.step (.free 0)).isSome) (by decide)
  obtain ⟨s', hs'⟩ := Option.isSome_iff_exists.1 hp
  exact ⟨s, s', hs', buffersKept_of_reach hs (.free 0) 0 s' rfl hs'⟩

/-- The future of a read in flight is dropped, and its buffer freed. -/
theorem not_buffersKept :
    ¬ ∀ s : State (.cell (Result Unit)), (lts (.cell (Result Unit))).Reach s → BuffersKept s := by
  intro hall
  obtain ⟨s, hs, hp⟩ := Lts.exists_of_run (M := lts (.cell (Result Unit)))
    [.alloc, .call .bdevRead (some 0), .submit 0 7 0, .ret 0, .drop 0]
    (fun s => (s.step (.free 0)).isSome && s.ops.any fun op => op.buf == some 0 && op.inFlight)
    (by decide)
  obtain ⟨hfree, hany⟩ := Bool.and_eq_true_iff.1 hp
  obtain ⟨s', hs'⟩ := Option.isSome_iff_exists.1 hfree
  obtain ⟨op, hop, hbuf⟩ := List.any_eq_true.1 hany
  obtain ⟨hb, hin⟩ := Bool.and_eq_true_iff.1 hbuf
  have hout := hall s hs (.free 0) 0 s' rfl hs' op hop (eq_of_beq hb)
  rw [hin] at hout
  cases hout

end SpdkIo.Io
