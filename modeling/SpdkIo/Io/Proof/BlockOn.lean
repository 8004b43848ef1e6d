import SpdkIo.Io.Proof.Buffers
import SpdkIo.Io.Proof.Effect

/-!
# Blocking on an operation

`blockOn_op`: `block_on` of a read, a write or a state change returns the outcome of its own
operation. It returns after the first poll of the thread in which the callback ran, and polls the
thread not at all where the submission was refused. Until it returns nobody can write to the buffer
or free it, and when it has returned SPDK does not use the buffer any more.
-/

namespace SpdkIo.Io

variable {O : Oneshot (Result Unit)} {s s' : State O} {i : OpId} {op op₀ : Op O} {n : Nat}

/-- The operation `i`, with its future at `fut`. -/
structure At (op₀ : Op O) (i : OpId) (p : Op O → Prop) (s : State O) : Prop where
  reach : (lts O).Reach s
  op : ∃ op, s.ops[i]? = some op ∧ op.kind = op₀.kind ∧ op.buf = op₀.buf ∧ p op

theorem At.stepsBy {p : Op O → Prop} (h : At op₀ i p s)
    (hp : ∀ {op op'}, Stays op op' → p op → p op')
    (hs : (lts O).StepsBy (fun _ => Action.leaves i) s s') : At op₀ i p s' := by
  obtain ⟨op, hop, hkind, hbuf, hpop⟩ := h.op
  obtain ⟨op', hop', hst⟩ := stays_stepsBy h.reach hs hop
  exact ⟨h.reach.stepsBy hs, op', hop', hst.kind.trans hkind, hst.buf.trans hbuf, hp hst hpop⟩

/-- The operation before the first poll, and before a later one. -/
def Waits (n : Nat) (op : Op O) : Prop := op.fut = if n = 0 then .unresumed else .awaiting

/-- The operation when `result` was returned after `n` polls of the thread. -/
def Returned (n : Nat) (result : Result Unit) (op : Op O) : Prop :=
  op.fut = .returned result ∧ (op.isRefused = true → n = 0)

/-- The operation after a poll of its future that returned `r`. -/
def Polled (n : Nat) : Poll (Result Unit) → Op O → Prop
  | .pending, op => op.fut = .awaiting
  | .ready result, op => Returned n result op

theorem Waits.stays {op op' : Op O} (hst : Stays op op') (h : Waits n op) : Waits n op' :=
  hst.fut.trans h

theorem Returned.stays {result : Result Unit} {op op' : Op O} (hst : Stays op op')
    (h : Returned n result op) : Returned n result op' :=
  ⟨hst.fut.trans h.1, fun hr => h.2 (hst.refused.symm.trans hr)⟩

/-- The future of a refused operation does not wait. -/
theorem not_refused (h : Inv s) (hop : s.ops[i]? = some op) (hf : op.fut = .awaiting) :
    op.isRefused = false := by
  have hok := h.ops hop
  unfold Op.Ok at hok
  unfold Op.isRefused
  cases hio : op.io with
  | refused rc => simp [hio, hf] at hok
  | unsubmitted | accepted ctx | completed status => rfl

/-- **A poll of the future** leaves it where its result says. -/
theorem At.poll (h : At op₀ i (Waits n) s) {r : Poll (Result Unit)} (hp : PollFut i s r s') :
    At op₀ i (Polled n r) s' := by
  obtain ⟨op, hop, hkind, hbuf, hwaits⟩ := h.op
  -- the operation after the poll, and why it was not refused if this was not the first
  have hpolled : ∃ op', s'.ops[i]? = some op' ∧ op'.kind = op₀.kind ∧ op'.buf = op₀.buf ∧
      (lts O).Reach s' ∧ s'.polled i = some r ∧ (op'.isRefused = true → n = 0) := by
    cases hp with
    | @first ctx rc s₁ s₂ hs₁ hsteps hs' hr =>
      obtain ⟨op₁, op₂, hr₂, hf₁⟩ := submit_replaces hs₁
      obtain rfl := Option.some.inj (hr₂.before.symm.trans hop)
      have hn : n = 0 := by
        by_contra hn
        rw [Waits, hf₁, if_neg hn] at hwaits
        cases hwaits
      have hr₁ : (lts O).Reach s₁ := h.reach.next (a := .submit i ctx rc) trivial hs₁
      obtain ⟨op₃, hop₃, hst⟩ := stays_stepsBy hr₁ hsteps hr₂.after
      obtain ⟨op₄, op', _, hpolls, -⟩ := ret_polls hs'
      obtain rfl := Option.some.inj (hpolls.before.symm.trans hop₃)
      exact ⟨op', hpolls.after, hpolls.kind.trans (hst.kind.trans (hr₂.kind.trans hkind)),
        hpolls.buf.trans (hst.buf.trans (hr₂.buf.trans hbuf)),
        (hr₁.stepsBy hsteps).next (a := .ret i) trivial hs', hr, fun _ => hn⟩
    | later hs' hr =>
      obtain ⟨op₁, op', hpolls, hf₁⟩ := poll_polls hs'
      obtain rfl := Option.some.inj (hpolls.before.symm.trans hop)
      refine ⟨op', hpolls.after, hpolls.kind.trans hkind, hpolls.buf.trans hbuf,
        h.reach.next (a := .poll i) trivial hs', hr, fun hrefused => ?_⟩
      have hold := not_refused (inv_of_reach h.reach) hop hf₁
      rw [Op.isRefused, ← hpolls.io, ← Op.isRefused, hrefused] at hold
      cases hold
  obtain ⟨op', hop', hkind', hbuf', hreach, hr, hrefused⟩ := hpolled
  refine ⟨hreach, op', hop', hkind', hbuf', ?_⟩
  rw [State.polled, hop', Option.bind_some] at hr
  split at hr
  · rename_i hf
    obtain rfl := Option.some.inj hr
    exact hf
  · rename_i result hf
    obtain rfl := Option.some.inj hr
    exact ⟨hf, hrefused⟩
  · cases hr

/-- A future that waits is polled to its end exactly when the operation is not in flight. -/
theorem pollFut_awaiting (h : Inv s) (hop : s.ops[i]? = some op) (hf : op.fut = .awaiting) :
    (∃ r s', PollFut i s r s') ∧
      ∀ r s', PollFut i s r s' → (r = .pending ↔ op.inFlight = true) := by
  obtain ⟨s', op', hs', hop', hcases⟩ := poll_awaiting h hop hf
  have hone : ∃ r, s'.polled i = some r ∧ (r = .pending ↔ op.inFlight = true) := by
    rw [State.polled, hop', Option.bind_some]
    rcases hcases with ⟨hin, hf'⟩ | ⟨hout, result, hf'⟩
    · exact ⟨.pending, by rw [hf'], by simp [hin]⟩
    · exact ⟨.ready result, by rw [hf'], by simp [hout]⟩
  obtain ⟨r, hr, hiff⟩ := hone
  refine ⟨⟨r, s', .later hs' hr⟩, fun r' s'' hp => ?_⟩
  cases hp with
  | first hs₁ _ _ _ =>
    obtain ⟨op₁, _, hr₁, hf₁⟩ := submit_replaces hs₁
    obtain rfl := Option.some.inj (hr₁.before.symm.trans hop)
    exact absurd (hf₁.symm.trans hf) nofun
  | later hs'' hr' =>
    obtain rfl := Option.some.inj (hs''.symm.trans hs')
    obtain rfl := Option.some.inj (hr'.symm.trans hr)
    exact hiff

/-- The buffer of a future that is alive cannot be touched. -/
theorem untouched (hop : s.ops[i]? = some op) (hal : op.alive = true) {a : Action} {b : BufId}
    (ha : a.touches = some b) (hb : op.buf = some b) : s.step a = none := by
  rw [Option.eq_none_iff_forall_not_mem]
  intro s' hs
  have hdead := alive_of_touches ha hs op (List.mem_of_getElem? hop) hb
  rw [hal] at hdead
  cases hdead

theorem alive_of_fut {op : Op O} (hf : op.fut = .unresumed ∨ op.fut = .awaiting) :
    op.alive = true := by
  unfold Op.alive
  rcases hf with hf | hf
  · rw [hf]
  · rw [hf]

/-- A future that has returned: SPDK has done with the operation. -/
theorem done_of_returned (h : Inv s) (hop : s.ops[i]? = some op) {result : Result Unit}
    (hf : op.fut = .returned result) : op.Outcome result ∧ op.inFlight = false := by
  have hok := h.ops hop
  refine ⟨hok.outcome hf, ?_⟩
  rw [← Bool.not_eq_true]
  intro hin
  rcases hok.inFlight hin with hal | hd
  · rw [Op.alive, hf] at hal
    cases hal
  · cases hf.symm.trans hd

/-- **`block_on` of an operation**, from its future to the result, with anything else going on. -/
theorem blockOn_op {τ : Type} {s₀ s : State O} {i : OpId} {op₀ : Op O} {t : τ} {n : Nat}
    {pc : BlockOn.Pc (Result Unit)} (h : (lts O).Reach s₀) (hop₀ : s₀.ops[i]? = some op₀)
    (hf₀ : op₀.fut = .unresumed) (hr : BlockOn.Run (awaiting τ i) (some t) s₀ n pc s) :
    ∃ op, s.ops[i]? = some op ∧ op.kind = op₀.kind ∧ op.buf = op₀.buf ∧
      (∀ result, pc = .returned result →
        op.Outcome result ∧ op.inFlight = false ∧ (op.isRefused = true → n = 0)) ∧
      ((∀ result, pc ≠ .returned result) →
        ∀ a b, Action.touches a = some b → op.buf = some b → s.step a = none) ∧
      (pc = .future → 0 < n → (∃ r s', PollFut i s r s') ∧
        ∀ r s', PollFut i s r s' → (r = .pending ↔ op.inFlight = true)) := by
  have hrun := BlockOn.Run.rule (fun n => At op₀ i (Waits n))
    (fun _ => At op₀ i (·.fut = .awaiting)) (fun n result => At op₀ i (Returned n result))
    ⟨h, op₀, hop₀, rfl, rfl, hf₀⟩ (fun hi ho => hi.stepsBy Waits.stays ho)
    (fun hi ho => hi.stepsBy (fun hst hf => hst.fut.trans hf) ho)
    (fun hi ho => hi.stepsBy Returned.stays ho) (fun hi hp => hi.poll (r := .pending) hp)
    (fun {_ result _ _} hi hp => hi.poll (r := .ready result) hp)
    (fun hi hp => hi.stepsBy (fun hst hf => hst.fut.trans hf) hp) hr
  cases pc with
  | panicked => exact hrun.elim
  | future =>
    obtain ⟨hreach, op, hop, hkind, hbuf, hwaits⟩ := hrun
    have hal : op.fut = .unresumed ∨ op.fut = .awaiting := by
      rw [Waits] at hwaits
      split at hwaits
      · exact .inl hwaits
      · exact .inr hwaits
    refine ⟨op, hop, hkind, hbuf, nofun, fun _ a b => untouched hop (alive_of_fut hal), ?_⟩
    intro _ hn
    rw [Waits, if_neg (by omega)] at hwaits
    exact pollFut_awaiting (inv_of_reach hreach) hop hwaits
  | thread =>
    obtain ⟨-, op, hop, hkind, hbuf, hf⟩ := hrun
    exact ⟨op, hop, hkind, hbuf, nofun, fun _ a b => untouched hop (alive_of_fut (.inr hf)), nofun⟩
  | returned result =>
    obtain ⟨hreach, op, hop, hkind, hbuf, hf, hrefused⟩ := hrun
    obtain ⟨hout, hin⟩ := done_of_returned (inv_of_reach hreach) hop hf
    refine ⟨op, hop, hkind, hbuf, fun result' hr' => ?_, fun hn => absurd rfl (hn result), nofun⟩
    cases hr'
    exact ⟨hout, hin, hrefused⟩

/-- A read whose callback runs in the second poll of the thread. -/
theorem blockOn_op_read : ∃ (s s' : State (.cell (Result Unit))) (r : _),
    PollFut 0 s r s' ∧ r ≠ .pending := by
  let s₀ : State (.cell (Result Unit)) :=
    ((((lts _).init.step .alloc).get rfl).step (.call .bdevRead (some 0))).get rfl
  let s₁ := (s₀.step (.submit 0 7 0)).get rfl
  let s₂ := (s₁.step (.ret 0)).get rfl
  let s₃ := (s₂.step (.poll 0)).get rfl
  let s₄ := (s₃.step (.callback 0 (.bdev true))).get rfl
  have hsubmit : s₀.submit 0 7 0 = some s₁ := (Option.some_get _).symm
  have hret : s₁.ret 0 = some s₂ := (Option.some_get _).symm
  have hpending : s₂.poll 0 = some s₃ := (Option.some_get _).symm
  have hcallback : s₃.step (.callback 0 (.bdev true)) = some s₄ := (Option.some_get _).symm
  have hfirst : PollFut 0 s₀ .pending s₂ := .first hsubmit (.refl s₁) hret rfl
  have hlater : PollFut 0 s₂ .pending s₃ := .later hpending rfl
  have hr : BlockOn.Run (awaiting Unit 0) (some ()) s₀ 2 .future s₄ :=
    .threadPoll (.pending (.threadPoll (.pending (.start rfl) hfirst) rfl (.refl s₂)) hlater) rfl
      ((Lts.StepsBy.refl s₃).next (a := .callback 0 (.bdev true)) trivial hcallback)
  have h₀ : (lts (.cell (Result Unit))).Reach s₀ :=
    .next (a := .call .bdevRead (some 0)) (.next (a := .alloc) .init trivial rfl) trivial
      (Option.some_get _).symm
  obtain ⟨op, hop, -, -, -, -, hpoll⟩ := blockOn_op h₀ rfl rfl hr
  obtain ⟨⟨r, s', hp⟩, hiff⟩ := hpoll rfl (by decide)
  have hout : op.inFlight = false := by
    have h₃ : (lts (.cell (Result Unit))).Reach s₃ :=
      .next (a := .poll 0) (.next (a := .ret 0) (.next (a := .submit 0 7 0) h₀ trivial hsubmit)
        trivial hret) trivial hpending
    obtain ⟨op₁, ctx, result, hop₁, -, -, heq⟩ := (inv_of_reach h₃).callback_eq hcallback
    rw [heq, Table.set_self hop₁] at hop
    obtain rfl := Option.some.inj hop
    rfl
  refine ⟨s₄, s', r, hp, fun hpend => ?_⟩
  rw [hiff r s' hp, hout] at hpend
  cases hpend

end SpdkIo.Io
