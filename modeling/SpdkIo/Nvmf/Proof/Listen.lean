import SpdkIo.Nvmf.Listen

/-!
# What the caller of `add_transport` and `add_listener` gets

`CallInv`: the future and the channel of a call follow what SPDK did. So the future returns what
the callback sent, at the first poll after it (`CallInv.completed`).
-/

namespace SpdkIo.Nvmf

variable {O : Oneshot (Result Unit)} {done : Int32 → Result Unit} {s s' : CallState O}

/-- A call at a legal point. -/
def CallInv (done : Int32 → Result Unit) (s : CallState O) : Prop :=
  match s.io with
  | .uncalled => s.fut = .unresumed ∨ s.fut = .dropped
  | .pending =>
    O.Waiting s.chan ∧ (s.fut = .calling ∨ s.fut = .awaiting ∨ s.fut = .dropped)
  | .completed status =>
    (O.Holding s.chan (done status) ∧ (s.fut = .calling ∨ s.fut = .awaiting)) ∨
      s.fut = .returned (done status) ∨ s.fut = .dropped

/-- The future returns the result: it returned no other, and if it was called and has not returned,
its next poll does. -/
def CallDelivers (L : Lts (CallState O) CallAction) (s : CallState O) (result : Result Unit) :
    Prop :=
  (∀ r, s.fut = .returned r → r = result) ∧
    (s.fut = .calling ∨ s.fut = .awaiting →
      ∃ s', L.step s .poll = some s' ∧ s'.fut = .returned result)

theorem pollRx_waiting (hw : O.Waiting s.chan) :
    ∃ chan, O.Waiting chan ∧ s.pollRx = { s with fut := .awaiting, chan } := by
  obtain ⟨chan, hw', hp⟩ := CompletionReceiver.poll_waiting hw
  exact ⟨chan, hw', by rw [CallState.pollRx, hp]⟩

theorem pollRx_holding {result : Result Unit} (hh : O.Holding s.chan result) :
    ∃ chan, s.pollRx = { s with fut := .returned result, chan } := by
  obtain ⟨chan, hp⟩ := CompletionReceiver.poll_holding hh
  exact ⟨chan, by rw [CallState.pollRx, hp]⟩

theorem CallInv.poll (h : CallInv done s) (hf : s.fut = .calling ∨ s.fut = .awaiting) :
    CallInv done s.pollRx := by
  unfold CallInv at h
  split at h
  · rcases hf with hf | hf <;> rw [hf] at h <;> rcases h with h | h <;> cases h
  · rename_i hio
    obtain ⟨chan, hw, heq⟩ := pollRx_waiting h.1
    rw [heq, CallInv]
    simp only [hio]
    exact ⟨hw, .inr (.inl trivial)⟩
  · rename_i status hio
    rcases h with ⟨hh, -⟩ | hr | hd
    · obtain ⟨chan, heq⟩ := pollRx_holding hh
      rw [heq, CallInv]
      simp only [hio]
      exact .inr (.inl trivial)
    · rcases hf with hf | hf <;> rw [hf] at hr <;> cases hr
    · rcases hf with hf | hf <;> rw [hf] at hd <;> cases hd

theorem CallInv.callback (h : CallInv done s) (hio : s.io = .pending) (status : Int32) :
    CallInv done { s with
      io := .completed status
      chan := CompletionSender.complete O s.chan (done status) } := by
  rw [CallInv, hio] at h
  obtain ⟨hw, hf | hf | hf⟩ := h
  · exact .inl ⟨O.holding_send hw, .inl hf⟩
  · exact .inl ⟨O.holding_send hw, .inr hf⟩
  · exact .inr (.inr hf)

theorem CallInv.drop (h : CallInv done s) : CallInv done { s with fut := .dropped } := by
  unfold CallInv at h ⊢
  split at h <;> rename_i hio <;> simp only [hio]
  · exact .inr trivial
  · exact ⟨h.1, .inr (.inr trivial)⟩
  · exact .inr (.inr trivial)

theorem CallInv.step (h : CallInv done s) {a : CallAction}
    (hs : (callLts done O).step s a = some s') : CallInv done s' := by
  change s.step done a = some s' at hs
  cases a with
  | call =>
    simp only [CallState.step] at hs
    split at hs <;> cases hs
    exact ⟨O.waiting_channel, .inl rfl⟩
  | callback status =>
    simp only [CallState.step] at hs
    split at hs
    · rename_i hio
      cases hs
      exact h.callback hio status
    · cases hs
  | poll =>
    simp only [CallState.step] at hs
    split at hs
    · rename_i hf
      cases hs
      exact h.poll (.inl hf)
    · rename_i hf
      cases hs
      exact h.poll (.inr hf)
    · cases hs
  | drop =>
    simp only [CallState.step] at hs
    split at hs
    · cases hs
      exact h.drop
    · cases hs
      exact h.drop
    · cases hs

theorem CallInv.init : CallInv done (callLts done O).init := Or.inl rfl

theorem CallInv.reach (hs : (callLts done O).Reach s) : CallInv done s :=
  Lts.Reach.invariant (I := CallInv done) .init (fun hi hs => hi.step hs) hs

/-- **The caller gets what the callback sent**, at the first poll after it. -/
theorem CallInv.completed (h : CallInv done s) {status : Int32} (hio : s.io = .completed status) :
    CallDelivers (callLts done O) s (done status) := by
  rw [CallInv, hio] at h
  constructor
  · intro result hr
    rcases h with ⟨-, hf | hf⟩ | hf | hf <;> rw [hf] at hr <;> cases hr
    rfl
  · intro hf
    rcases h with ⟨hh, -⟩ | hr | hd
    · obtain ⟨chan, heq⟩ := pollRx_holding hh
      have hstep : (callLts done O).step s .poll = some s.pollRx := by
        change s.step done .poll = _
        rcases hf with hf | hf <;> simp only [CallState.step, hf]
      exact ⟨_, hstep, by rw [heq]⟩
    · rcases hf with hf | hf <;> rw [hf] at hr <;> cases hr
    · rcases hf with hf | hf <;> rw [hf] at hd <;> cases hd

end SpdkIo.Nvmf
