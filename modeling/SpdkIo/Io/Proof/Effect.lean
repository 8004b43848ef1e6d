import SpdkIo.Io.BlockOn
import SpdkIo.Io.Proof.Inv

/-!
# What a step does to one operation

An operation keeps its kind and its buffer, and only its own steps move its future
(`step_leaves`). A poll of its own resolves it exactly when it is not in flight (`poll_awaiting`).
-/

namespace SpdkIo.Io

variable {O : Oneshot (Result Unit)} {s s' : State O} {i j : OpId} {op op' : Op O}

/-- The same operation, with its future where it was. -/
structure Stays (op op' : Op O) : Prop where
  kind : op'.kind = op.kind
  buf : op'.buf = op.buf
  fut : op'.fut = op.fut
  refused : op'.isRefused = op.isRefused

theorem Stays.refl (op : Op O) : Stays op op := ⟨rfl, rfl, rfl, rfl⟩

theorem Stays.trans {op'' : Op O} (h : Stays op op') (h' : Stays op' op'') : Stays op op'' where
  kind := h'.kind.trans h.kind
  buf := h'.buf.trans h.buf
  fut := h'.fut.trans h.fut
  refused := h'.refused.trans h.refused

/-- Another operation is replaced. -/
theorem stays_set_of_ne (hne : j ≠ i) (hop : s.ops[i]? = some op) (opj : Op O) :
    ∃ op', (s.ops.set j opj)[i]? = some op' ∧ Stays op op' :=
  ⟨op, Table.set_of_ne hne hop, .refl op⟩

theorem stays_append (hop : s.ops[i]? = some op) (opj : Op O) :
    ∃ op', (s.ops ++ [opj])[i]? = some op' ∧ Stays op op' :=
  ⟨op, Table.append_of hop, .refl op⟩

/-! ## The polls -/

/-- A step of an operation replaces it, and does not bring its future to life. -/
structure Replaces (i : OpId) (op op' : Op O) (s s' : State O) : Prop where
  before : s.ops[i]? = some op
  ops : s'.ops = s.ops.set i op'
  kind : op'.kind = op.kind
  buf : op'.buf = op.buf
  alive : op'.alive = true → op.alive = true
  bufs : s'.bufs = s.bufs

theorem Replaces.after (h : Replaces i op op' s s') : s'.ops[i]? = some op' := by
  rw [h.ops]
  exact Table.set_self h.before

theorem Replaces.of_ne {opj opj' : Op O} (h : Replaces j opj opj' s s') (hne : j ≠ i)
    (hop : s.ops[i]? = some op) : ∃ op', s'.ops[i]? = some op' ∧ Stays op op' := by
  rw [h.ops]
  exact stays_set_of_ne hne hop opj'

/-- An operation after the step was there before, alive if it is now. -/
theorem Replaces.back (h : Replaces i op op' s s') {o : Op O} (ho : s'.ops[j]? = some o) :
    ∃ o', s.ops[j]? = some o' ∧ o.kind = o'.kind ∧ o.buf = o'.buf ∧
      (o.alive = true → o'.alive = true) := by
  rw [h.ops] at ho
  rcases Table.set_cases ho with ⟨rfl, rfl⟩ | ⟨-, ho⟩
  · exact ⟨op, h.before, h.kind, h.buf, h.alive⟩
  · exact ⟨o, ho, rfl, rfl, id⟩

/-- The poll of `op`, the operation `i`, leaves `op'`, with its submission as it was. -/
structure Polls (i : OpId) (s s' : State O) (op op' : Op O) : Prop
    extends Replaces i op op' s s' where
  io : op'.io = op.io

/-- `rx.await` replaces one operation, whose future then waits or has resolved. -/
theorem pollRx_polls (hop : s.ops[i]? = some op) (hal : op.alive = true) :
    ∃ op', Polls i s (s.pollRx i op) op op' := by
  unfold State.pollRx
  split
  · exact ⟨_, ⟨hop, rfl, rfl, rfl, fun _ => hal, rfl⟩, rfl⟩
  · exact ⟨_, ⟨hop, rfl, rfl, rfl, fun _ => hal, rfl⟩, rfl⟩

theorem ret_polls (hs : s.ret i = some s') :
    ∃ op op' rc, Polls i s s' op op' ∧ op.fut = .submitting rc := by
  unfold State.ret at hs
  obtain ⟨op, hop, hs⟩ := Option.bind_eq_some_iff.1 hs
  split at hs
  · rename_i rc hf
    have hal : op.alive = true := by rw [Op.alive, hf]
    split at hs
    · obtain rfl := Option.some.inj hs
      exact ⟨op, _, rc, ⟨⟨hop, rfl, rfl, rfl, fun _ => hal, rfl⟩, rfl⟩, hf⟩
    · obtain rfl := Option.some.inj hs
      obtain ⟨op', hpolls⟩ := pollRx_polls hop hal
      exact ⟨op, op', rc, hpolls, hf⟩
  · cases hs

theorem poll_polls (hs : s.poll i = some s') :
    ∃ op op', Polls i s s' op op' ∧ op.fut = .awaiting := by
  unfold State.poll at hs
  obtain ⟨op, hop, hs⟩ := Option.bind_eq_some_iff.1 hs
  split at hs
  · rename_i hf
    obtain rfl := Option.some.inj hs
    obtain ⟨op', hpolls⟩ := pollRx_polls hop (by rw [Op.alive, hf])
    exact ⟨op, op', hpolls, hf⟩
  · cases hs

/-- **A poll at `rx.await`** resolves the future exactly when the operation is not in flight. -/
theorem poll_awaiting (h : Inv s) (hop : s.ops[i]? = some op) (hf : op.fut = .awaiting) :
    ∃ s' op', s.poll i = some s' ∧ s'.ops[i]? = some op' ∧
      ((op.inFlight = true ∧ op'.fut = .awaiting) ∨
        (op.inFlight = false ∧ ∃ result, op'.fut = .returned result)) := by
  have hpoll : s.poll i = some (s.pollRx i op) := by simp [State.poll, hop, hf]
  have hok := h.ops hop
  unfold Op.Ok at hok
  unfold Op.inFlight
  split at hok <;> rename_i hio
  · simp [hf] at hok
  · simp [hf] at hok
  · obtain ⟨chan, -, heq⟩ := pollRx_waiting (s := s) (i := i) hok.1
    refine ⟨_, { op with fut := .awaiting, chan }, hpoll, ?_, .inl ⟨by rw [hio], rfl⟩⟩
    rw [heq]
    exact Table.set_self hop
  · obtain ⟨result, -, ⟨hh, -⟩ | hr | hd⟩ := hok
    · obtain ⟨chan, heq⟩ := pollRx_holding (s := s) (i := i) hh
      refine ⟨_, { op with chan, fut := .returned result }, hpoll, ?_,
        .inr ⟨by rw [hio], result, rfl⟩⟩
      rw [heq]
      exact Table.set_self hop
    · exact absurd (hf.symm.trans hr) nofun
    · exact absurd (hf.symm.trans hd) nofun

/-! ## The other steps -/

theorem submit_replaces {ctx : Addr} {rc : Int32} (hs : s.submit i ctx rc = some s') :
    ∃ op op', Replaces i op op' s s' ∧ op.fut = .unresumed := by
  unfold State.submit at hs
  obtain ⟨op, hop, hs⟩ := Option.bind_eq_some_iff.1 hs
  split at hs
  · rename_i hf
    obtain ⟨heap, -, rfl⟩ := Option.map_eq_some_iff.1 hs
    exact ⟨op, _, ⟨hop, rfl, rfl, rfl, fun _ => by rw [Op.alive, hf], rfl⟩, hf⟩
  · cases hs

theorem dropFut_replaces (hs : s.dropFut i = some s') : ∃ op op', Replaces i op op' s s' := by
  unfold State.dropFut at hs
  obtain ⟨op, hop, hs⟩ := Option.bind_eq_some_iff.1 hs
  split at hs
  · obtain rfl := Option.some.inj hs
    exact ⟨op, _, hop, rfl, rfl, rfl, (fun hal => by cases hal), rfl⟩
  · obtain rfl := Option.some.inj hs
    exact ⟨op, _, hop, rfl, rfl, rfl, (fun hal => by cases hal), rfl⟩
  · cases hs

theorem callback_replaces (h : Inv s) {status : Status} (hs : s.callback i status = some s') :
    ∃ op op', Replaces i op op' s s' ∧ Stays op op' := by
  obtain ⟨op, ctx, result, hop, hctx, -, rfl⟩ := h.callback_eq hs
  refine ⟨op, _, ⟨hop, rfl, rfl, rfl, id, rfl⟩, rfl, rfl, rfl, ?_⟩
  simp only [Op.isRefused, hctx]

/-- What a call adds, and what it asks of the borrows that are there. -/
theorem call_spec {kind : OpKind} {buf : Option BufId} (hs : s.call kind buf = some s') :
    s'.bufs = s.bufs ∧
    (∃ op, s'.ops = s.ops ++ [op] ∧ op.kind = kind ∧ op.buf = buf) ∧
    ∀ b, buf = some b → s.bufs[b]? = some .allocated ∧
      ∀ o ∈ s.ops, o.alive = true → o.buf = some b →
        o.kind.op.buf ≠ some .mut ∧ kind.op.buf ≠ some .mut := by
  unfold State.call at hs
  split at hs
  · obtain rfl := Option.some.inj hs
    exact ⟨rfl, ⟨_, rfl, rfl, rfl⟩, fun b hb => by cases hb⟩
  · rename_i borrow b hborrow
    obtain ⟨hmay, hs⟩ := Option.ite_none_right_eq_some.1 hs
    obtain rfl := Option.some.inj hs
    refine ⟨rfl, ⟨_, rfl, rfl, rfl⟩, fun b' hb' => ?_⟩
    obtain rfl := Option.some.inj hb'
    cases borrow
    · -- shared
      simp only [State.mayBorrow, State.borrowedMut, Bool.and_eq_true, Bool.not_eq_true',
        List.any_eq_false, beq_iff_eq] at hmay
      refine ⟨hmay.1, fun o ho hal hb => ⟨fun hm => ?_, by rw [hborrow]; decide⟩⟩
      exact hmay.2 o ho ⟨⟨hal, hb⟩, hm⟩
    · -- mutable
      simp only [State.mayBorrow, State.borrowed, Bool.and_eq_true, Bool.not_eq_true',
        List.any_eq_false, beq_iff_eq] at hmay
      exact ⟨hmay.1, fun o ho hal hb => absurd ⟨hal, hb⟩ (hmay.2 o ho)⟩
  · cases hs

/-- The step of an operation that is there already. -/
def Action.ofOp : Action → Bool
  | .submit _ _ _ | .ret _ | .poll _ | .drop _ | .callback _ _ => true
  | .alloc | .call _ _ | .mutate _ | .free _ => false

theorem op_step (h : Inv s) {a : Action} (ha : a.ofOp = true) (hs : s.step a = some s') :
    ∃ i op op', Replaces i op op' s s' := by
  cases a with
  | submit i ctx rc =>
    obtain ⟨op, op', hr, -⟩ := submit_replaces hs
    exact ⟨i, op, op', hr⟩
  | ret i =>
    obtain ⟨op, op', -, hpolls, -⟩ := ret_polls hs
    exact ⟨i, op, op', hpolls.toReplaces⟩
  | poll i =>
    obtain ⟨op, op', hpolls, -⟩ := poll_polls hs
    exact ⟨i, op, op', hpolls.toReplaces⟩
  | drop i => exact ⟨i, dropFut_replaces hs⟩
  | callback i status =>
    obtain ⟨op, op', hr, -⟩ := callback_replaces h hs
    exact ⟨i, op, op', hr⟩
  | alloc | call kind buf | mutate b | free b => cases ha

/-- **A step that leaves the future of an operation alone** keeps it where it is. -/
theorem step_leaves (h : Inv s) {a : Action} (ha : a.leaves i) (hs : s.step a = some s')
    (hop : s.ops[i]? = some op) : ∃ op', s'.ops[i]? = some op' ∧ Stays op op' := by
  cases a with
  | alloc =>
    obtain rfl := Option.some.inj hs
    exact ⟨op, hop, .refl op⟩
  | call kind buf =>
    obtain ⟨-, ⟨opj, hops, -⟩, -⟩ := call_spec hs
    rw [hops]
    exact stays_append hop opj
  | submit j ctx rc =>
    obtain ⟨_, _, hr, -⟩ := submit_replaces hs
    exact hr.of_ne ha hop
  | ret j =>
    obtain ⟨_, _, _, hpolls, -⟩ := ret_polls hs
    exact hpolls.of_ne ha hop
  | poll j =>
    obtain ⟨_, _, hpolls, -⟩ := poll_polls hs
    exact hpolls.of_ne ha hop
  | drop j =>
    obtain ⟨_, _, hr⟩ := dropFut_replaces hs
    exact hr.of_ne ha hop
  | callback j status =>
    obtain ⟨_, op', hr, hst⟩ := callback_replaces h hs
    by_cases hij : j = i
    · subst hij
      obtain rfl := Option.some.inj (hr.before.symm.trans hop)
      exact ⟨op', hr.after, hst⟩
    · exact hr.of_ne hij hop
  | mutate b | free b =>
    obtain ⟨-, hs⟩ := Option.ite_none_right_eq_some.1 hs
    obtain rfl := Option.some.inj hs
    exact ⟨op, hop, .refl op⟩

theorem stays_stepsBy (h : (lts O).Reach s) (hs : (lts O).StepsBy (fun _ => Action.leaves i) s s')
    (hop : s.ops[i]? = some op) : ∃ op', s'.ops[i]? = some op' ∧ Stays op op' := by
  have hkeep := hs.keeps (I := fun s' => (lts O).Reach s' ∧
    ∃ op', s'.ops[i]? = some op' ∧ Stays op op') ?_ ⟨h, op, hop, .refl op⟩
  · exact hkeep.2
  · intro s₁ a s₂ hi ha hstep
    obtain ⟨hr, op₁, hop₁, hst₁⟩ := hi
    obtain ⟨op₂, hop₂, hst₂⟩ := step_leaves (inv_of_reach hr) ha hstep hop₁
    exact ⟨hr.next trivial hstep, op₂, hop₂, hst₁.trans hst₂⟩

end SpdkIo.Io
