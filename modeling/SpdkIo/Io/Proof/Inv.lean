import SpdkIo.Io.Spec
import SpdkIo.Lib.Owners

/-!
# The invariant of the operations

`Io.Inv`: each operation is at a legal point (`Op.Ok`), the context SPDK holds for an operation is
the box of its own sender, the two logs name each operation at most once, and the boxes count the
operations in flight and the refused ones. `inv_of_reach` has it in every reachable state.
-/

namespace SpdkIo

variable {O : Oneshot (Result Unit)}

/-- An operation at a legal point: its future and its channel follow its submission. -/
def Op.Ok (op : Op O) : Prop :=
  match op.io with
  | .unsubmitted => op.fut = .unresumed ∨ op.fut = .dropped
  | .refused rc =>
    rc ≠ 0 ∧ (op.fut = .submitting rc ∨ op.fut = .returned (.error (op.kind.op.refused rc)))
  | .accepted _ =>
    O.Waiting op.chan ∧ (op.fut = .submitting 0 ∨ op.fut = .awaiting ∨ op.fut = .dropped)
  | .completed status => ∃ result, op.kind.op.callback status = some result ∧
    ((O.Holding op.chan result ∧ (op.fut = .submitting 0 ∨ op.fut = .awaiting)) ∨
      op.fut = .returned result ∨ op.fut = .dropped)

/-- The context that SPDK holds for an operation. -/
def Op.ctx (op : Op O) : Option Addr :=
  match op.io with
  | .accepted ctx => some ctx
  | _ => none

/-- The boxes that an operation accounts for. -/
def Op.boxes (op : Op O) : Nat :=
  (if op.inFlight then 1 else 0) + if op.isRefused then 1 else 0

theorem Op.Ok.of_accepted {op : Op O} {ctx : Addr} (hio : op.io = .accepted ctx)
    (hw : O.Waiting op.chan)
    (hf : op.fut = .submitting 0 ∨ op.fut = .awaiting ∨ op.fut = .dropped) : op.Ok := by
  unfold Op.Ok
  rw [hio]
  exact ⟨hw, hf⟩

theorem Op.Ok.of_completed {op : Op O} {status : Status} {result : Result Unit}
    (hio : op.io = .completed status) (hcb : op.kind.op.callback status = some result)
    (hf : (O.Holding op.chan result ∧ (op.fut = .submitting 0 ∨ op.fut = .awaiting)) ∨
      op.fut = .returned result ∨ op.fut = .dropped) : op.Ok := by
  unfold Op.Ok
  rw [hio]
  exact ⟨result, hcb, hf⟩

/-- The future of an operation in flight is in the SPDK call, waits, or was dropped. -/
theorem Op.Ok.inFlight {op : Op O} (h : op.Ok) (hio : op.inFlight = true) :
    op.alive = true ∨ op.fut = .dropped := by
  unfold Op.inFlight at hio
  unfold Op.Ok at h
  unfold Op.alive
  split at hio
  · rename_i ctx hctx
    rw [hctx] at h
    obtain ⟨-, h | h | h⟩ := h <;> simp [h]
  · cases hio

/-- A future that returned has the outcome of its operation. -/
theorem Op.Ok.outcome {op : Op O} {result : Result Unit} (h : op.Ok)
    (hf : op.fut = .returned result) : op.Outcome result := by
  unfold Op.Ok at h
  unfold Op.Outcome
  split at h <;> rename_i hio <;> rw [hio]
  · rw [hf] at h
    simp at h
  · obtain ⟨-, h | h⟩ := h
    · rw [hf] at h
      cases h
    · rw [hf] at h
      cases h
      rw [OpKind.refused_eq]
  · rw [hf] at h
    simp at h
  · obtain ⟨r, hr, ⟨-, h | h⟩ | h | h⟩ := h <;> rw [hf] at h <;> cases h
    exact OpKind.callback_spec hr

namespace Io

structure Inv (s : State O) : Prop where
  ops : ∀ {i : OpId} {op : Op O}, s.ops[i]? = some op → op.Ok
  boxed : s.heap.Owned s.ops Op.ctx
  rebuilt : ∀ p ∈ s.rebuilt, p.2 = some p.1 ∧
    ∃ op, s.ops[p.1]? = some op ∧ ∃ status, op.io = .completed status
  rebuilt_nodup : (s.rebuilt.map (·.1)).Nodup
  resolved : ∀ p ∈ s.resolved, ∃ op, s.ops[p.1]? = some op ∧ op.fut = .returned p.2
  resolved_nodup : (s.resolved.map (·.1)).Nodup
  live : s.heap.live = s.ops.countP (·.inFlight) + s.ops.countP (·.isRefused)

theorem Inv.init : Inv (lts O).init where
  ops h := by cases h
  boxed := .nil
  rebuilt _ h := by cases h
  rebuilt_nodup := .nil
  resolved _ h := by cases h
  resolved_nodup := .nil
  live := rfl

variable {s s' : State O} {i : OpId} {op op' : Op O}

/-! ## Operations that change their future only -/

/-- Replacing an operation moves the number of boxes by what the two account for. -/
theorem Inv.live_set (h : Inv s) (hop : s.ops[i]? = some op) {n : Nat}
    (hn : n + op.boxes = s.heap.live + op'.boxes) :
    n = (s.ops.set i op').countP (·.inFlight) + (s.ops.set i op').countP (·.isRefused) := by
  have hc1 := Table.countP_set (b := op') (·.inFlight) hop
  have hc2 := Table.countP_set (b := op') (·.isRefused) hop
  have hl := h.live
  unfold Op.boxes at hn
  omega

/-- An operation changes where its future is, or its channel. -/
theorem Inv.setOp (h : Inv s) (hop : s.ops[i]? = some op) (hio : op'.io = op.io)
    (hf : ∀ r, op.fut = .returned r → op'.fut = .returned r) (hok : op'.Ok) :
    Inv (s.setOp i op') where
  ops := Table.forall_set h.ops hok
  boxed := h.boxed.set hop (by rw [Op.ctx, Op.ctx, hio])
  rebuilt p hp :=
    ⟨(h.rebuilt p hp).1, Table.exists_set hop (fun hst => hio ▸ hst) (h.rebuilt p hp).2⟩
  rebuilt_nodup := h.rebuilt_nodup
  resolved p hp := Table.exists_set hop (hf _) (h.resolved p hp)
  resolved_nodup := h.resolved_nodup
  live := by
    have hboxes : op'.boxes = op.boxes := by
      rw [Op.boxes, Op.boxes, Op.inFlight, Op.inFlight, Op.isRefused, Op.isRefused, hio]
    exact h.live_set hop (by rw [hboxes]; rfl)

/-- A future that has not resolved resolves. -/
theorem Inv.resolve (h : Inv s) (hop : s.ops[i]? = some op) (hn : ∀ r, op.fut ≠ .returned r)
    {chan : O.Chan} {result : Result Unit}
    (hok : Op.Ok { op with chan, fut := .returned result }) :
    Inv (s.resolve i { op with chan } result) := by
  have hset : Inv (s.setOp i { op with chan, fut := .returned result }) :=
    h.setOp hop rfl (fun r hr => absurd hr (hn r)) hok
  have hnew : i ∉ s.resolved.map (·.1) := Table.notMem_of_log h.resolved hop fun p => hn p.2
  refine { hset with resolved := ?_, resolved_nodup := ?_ }
  · intro p hp
    rcases List.mem_append.1 hp with hp | hp
    · exact hset.resolved p hp
    · obtain rfl := List.mem_singleton.1 hp
      exact ⟨_, Table.set_self hop, rfl⟩
  · exact Table.nodup_map_append h.resolved_nodup hnew

/-- `rx.await` of an operation in flight. -/
theorem pollRx_waiting (hw : O.Waiting op.chan) :
    ∃ chan, O.Waiting chan ∧ s.pollRx i op = s.setOp i { op with fut := .awaiting, chan } := by
  obtain ⟨chan, hw', hp⟩ := CompletionReceiver.poll_waiting hw
  exact ⟨chan, hw', by rw [State.pollRx, hp]⟩

/-- `rx.await` of an operation whose callback ran. -/
theorem pollRx_holding {result : Result Unit} (hh : O.Holding op.chan result) :
    ∃ chan, s.pollRx i op = s.resolve i { op with chan } result := by
  obtain ⟨chan, hp⟩ := CompletionReceiver.poll_holding hh
  exact ⟨chan, by rw [State.pollRx, hp]⟩

theorem Inv.pollRx (h : Inv s) (hop : s.ops[i]? = some op)
    (hf : op.fut = .submitting 0 ∨ op.fut = .awaiting) : Inv (s.pollRx i op) := by
  have hn : ∀ r, op.fut ≠ .returned r := by
    intro r hr
    rcases hf with hf | hf <;> rw [hf] at hr <;> cases hr
  have hok := h.ops hop
  unfold Op.Ok at hok
  split at hok <;> rename_i hio
  · rcases hf with hf | hf <;> simp [hf] at hok
  · obtain ⟨hrc, hok | hok⟩ := hok
    · rcases hf with hf | hf <;> rw [hf] at hok <;> cases hok
      exact (hrc rfl).elim
    · exact absurd hok (hn _)
  · obtain ⟨chan, hw, heq⟩ := pollRx_waiting (s := s) (i := i) hok.1
    rw [heq]
    exact h.setOp hop rfl (fun r hr => absurd hr (hn r))
      (.of_accepted hio hw (.inr (.inl rfl)))
  · obtain ⟨result, hcb, ⟨hh, -⟩ | hr | hd⟩ := hok
    · obtain ⟨chan, heq⟩ := pollRx_holding (s := s) (i := i) hh
      rw [heq]
      exact h.resolve hop hn (.of_completed hio hcb (.inr (.inl rfl)))
    · exact absurd hr (hn _)
    · rcases hf with hf | hf <;> rw [hf] at hd <;> cases hd

/-! ## Steps -/

theorem Inv.alloc (h : Inv s) : Inv s.alloc := { h with }

/-- A new operation, of which nothing is known yet. -/
theorem Inv.append (h : Inv s) (hf : op.fut = .unresumed) (hio : op.io = .unsubmitted) :
    Inv { s with ops := s.ops ++ [op] } where
  ops := by
    refine Table.forall_append h.ops ?_
    unfold Op.Ok
    rw [hio]
    exact .inl hf
  boxed := h.boxed.append (by rw [Op.ctx, hio])
  rebuilt p hp := ⟨(h.rebuilt p hp).1, Table.exists_append (h.rebuilt p hp).2⟩
  rebuilt_nodup := h.rebuilt_nodup
  resolved p hp := Table.exists_append (h.resolved p hp)
  resolved_nodup := h.resolved_nodup
  live := by
    show s.heap.live = (s.ops ++ [op]).countP _ + (s.ops ++ [op]).countP _
    rw [List.countP_append, List.countP_append, h.live]
    simp [Op.inFlight, Op.isRefused, hio]

theorem Inv.call (h : Inv s) {kind : OpKind} {buf : Option BufId}
    (hs : s.call kind buf = some s') : Inv s' := by
  unfold State.call at hs
  split at hs
  · cases hs
    exact h.append rfl rfl
  · split at hs
    · cases hs
      exact h.append rfl rfl
    · cases hs
  · cases hs

/-- The new box is the operation's own, and it is one more box and one more operation that is in
flight or refused. -/
theorem Inv.submit (h : Inv s) {ctx : Addr} {rc : Int32} (hs : s.submit i ctx rc = some s') :
    Inv s' := by
  unfold State.submit at hs
  obtain ⟨op, hop, hs⟩ := Option.bind_eq_some_iff.1 hs
  split at hs
  · rename_i hf
    obtain ⟨heap, hheap, rfl⟩ := Option.map_eq_some_iff.1 hs
    have hio : op.io = .unsubmitted := by
      have hok := h.ops hop
      unfold Op.Ok at hok
      split at hok
      · assumption
      all_goals simp [hf] at hok
    refine { ops := ?_, boxed := ?_, rebuilt := ?_, rebuilt_nodup := h.rebuilt_nodup,
             resolved := ?_, resolved_nodup := h.resolved_nodup, live := ?_ }
    · refine Table.forall_set h.ops ?_
      by_cases hrc : rc = 0
      · subst hrc
        exact .of_accepted rfl O.waiting_channel (.inl rfl)
      · unfold Op.Ok
        rw [if_neg hrc]
        exact ⟨hrc, .inl rfl⟩
    · refine h.boxed.set_intoRaw hheap fun d hd => ?_
      unfold Op.ctx at hd
      by_cases hrc : rc = 0
      · rw [if_pos hrc] at hd
        exact (Option.some.inj hd).symm
      · rw [if_neg hrc] at hd
        cases hd
    · intro p hp
      refine ⟨(h.rebuilt p hp).1, Table.exists_set hop ?_ (h.rebuilt p hp).2⟩
      intro ⟨_, hst⟩
      cases hio.symm.trans hst
    · intro p hp
      exact Table.exists_set hop (fun hr => by cases hf.symm.trans hr) (h.resolved p hp)
    · refine h.live_set hop ?_
      have hbefore : op.boxes = 0 := by rw [Op.boxes, Op.inFlight, Op.isRefused, hio]; rfl
      have hlive : heap.live = s.heap.live + 1 := Boxes.live_intoRaw hheap
      rw [hbefore, hlive]
      by_cases hrc : rc = 0 <;> simp [Op.boxes, Op.inFlight, Op.isRefused, hrc]
  · cases hs

theorem Inv.ret (h : Inv s) (hs : s.ret i = some s') : Inv s' := by
  unfold State.ret at hs
  obtain ⟨op, hop, hs⟩ := Option.bind_eq_some_iff.1 hs
  split at hs
  · rename_i rc hf
    split at hs
    · rename_i hrc
      cases hs
      refine h.resolve hop (fun r hr => by rw [hf] at hr; cases hr) ?_
      have hok := h.ops hop
      unfold Op.Ok at hok ⊢
      split at hok <;> rename_i hio
      · simp [hf] at hok
      · obtain ⟨hne, hok | hok⟩ := hok
        · rw [hf] at hok
          cases hok
          rw [hio]
          exact ⟨hne, .inr rfl⟩
        · rw [hf] at hok
          cases hok
      · obtain ⟨-, hok | hok | hok⟩ := hok <;> rw [hf] at hok <;> cases hok
        exact (hrc rfl).elim
      · obtain ⟨r, -, ⟨-, hok | hok⟩ | hok | hok⟩ := hok <;> rw [hf] at hok <;> cases hok
        exact (hrc rfl).elim
    · rename_i hrc
      cases hs
      rw [not_not] at hrc
      subst hrc
      exact h.pollRx hop (.inl hf)
  · cases hs

theorem Inv.poll (h : Inv s) (hs : s.poll i = some s') : Inv s' := by
  unfold State.poll at hs
  obtain ⟨op, hop, hs⟩ := Option.bind_eq_some_iff.1 hs
  split at hs
  · rename_i hf
    cases hs
    exact h.pollRx hop (.inr hf)
  · cases hs

theorem Inv.dropFut (h : Inv s) (hs : s.dropFut i = some s') : Inv s' := by
  unfold State.dropFut at hs
  obtain ⟨op, hop, hs⟩ := Option.bind_eq_some_iff.1 hs
  have hdrop : ∀ {o : Op O}, o.Ok → (o.fut = .unresumed ∨ o.fut = .awaiting) →
      Op.Ok { o with fut := .dropped } := by
    intro o hok hf
    unfold Op.Ok at hok ⊢
    split at hok <;> rename_i hio <;> rw [hio]
    · exact .inr rfl
    · obtain ⟨-, hok | hok⟩ := hok <;> rcases hf with hf | hf <;> rw [hf] at hok <;> cases hok
    · exact ⟨hok.1, .inr (.inr rfl)⟩
    · obtain ⟨r, hr, -⟩ := hok
      exact ⟨r, hr, .inr (.inr rfl)⟩
  split at hs
  · rename_i hf
    cases hs
    exact h.setOp hop rfl (fun r hr => by rw [hf] at hr; cases hr) (hdrop (h.ops hop) (.inl hf))
  · rename_i hf
    cases hs
    exact h.setOp hop rfl (fun r hr => by rw [hf] at hr; cases hr) (hdrop (h.ops hop) (.inr hf))
  · cases hs

/-! ## Callbacks -/

/-- A callback sends to its own operation: the box at its context is the operation's. -/
theorem Inv.callback_eq (h : Inv s) {status : Status} (hs : s.callback i status = some s') :
    ∃ op ctx result, s.ops[i]? = some op ∧ op.io = .accepted ctx ∧
      op.kind.op.callback status = some result ∧
      s' = { s with
        ops := s.ops.set i { op with
          io := .completed status
          chan := CompletionSender.complete O op.chan result }
        heap := (s.heap.fromRaw ctx).2
        rebuilt := s.rebuilt ++ [(i, some i)] } := by
  unfold State.callback at hs
  obtain ⟨op, hop, hs⟩ := Option.bind_eq_some_iff.1 hs
  split at hs
  · rename_i ctx hctx
    obtain ⟨result, hresult, rfl⟩ := Option.map_eq_some_iff.1 hs
    refine ⟨op, ctx, result, hop, hctx, hresult, ?_⟩
    have htx : (s.heap.fromRaw ctx).1 = some i := h.boxed.get hop (by rw [Op.ctx, hctx])
    rcases hfr : s.heap.fromRaw ctx with ⟨tx, heap⟩
    rw [hfr] at htx
    obtain rfl : tx = some i := htx
    simp [State.send, State.setOp, Table.set_self hop, List.set_set]
  · cases hs

theorem Inv.callback (h : Inv s) {status : Status} (hs : s.callback i status = some s') :
    Inv s' := by
  obtain ⟨op, ctx, result, hop, hctx, hresult, rfl⟩ := h.callback_eq hs
  have hown : op.ctx = some ctx := by rw [Op.ctx, hctx]
  have hok := h.ops hop
  unfold Op.Ok at hok
  rw [hctx] at hok
  obtain ⟨hw, hf⟩ := hok
  refine { ops := ?_, boxed := ?_, rebuilt := ?_, rebuilt_nodup := ?_, resolved := ?_,
           resolved_nodup := h.resolved_nodup, live := ?_ }
  · refine Table.forall_set h.ops (.of_completed rfl hresult ?_)
    have hh := O.holding_send (v := result) hw
    rcases hf with hf | hf | hf
    · exact .inl ⟨hh, .inl hf⟩
    · exact .inl ⟨hh, .inr hf⟩
    · exact .inr (.inr hf)
  · exact h.boxed.set_fromRaw hop hown rfl
  · intro p hp
    rcases List.mem_append.1 hp with hp | hp
    · exact ⟨(h.rebuilt p hp).1,
        Table.exists_set hop (fun _ => ⟨status, rfl⟩) (h.rebuilt p hp).2⟩
    · obtain rfl := List.mem_singleton.1 hp
      exact ⟨rfl, _, Table.set_self hop, status, rfl⟩
  · have hnew : i ∉ s.rebuilt.map (·.1) :=
      Table.notMem_of_log (fun p hp => (h.rebuilt p hp).2) hop fun _ ⟨status, hst⟩ => by
        cases hctx.symm.trans hst
    exact Table.nodup_map_append h.rebuilt_nodup hnew
  · intro p hp
    refine Table.exists_set hop (fun hr => ?_) (h.resolved p hp)
    exact absurd hr (by rcases hf with hf | hf | hf <;> rw [hf] <;> exact fun h => nomatch h)
  · refine h.live_set hop ?_
    have hbefore : op.boxes = 1 := by rw [Op.boxes, Op.inFlight, Op.isRefused, hctx]; rfl
    have hlive : (s.heap.fromRaw ctx).2.live + 1 = s.heap.live :=
      Boxes.live_fromRaw (h.boxed.get hop hown)
    rw [hbefore, hlive]
    rfl

/-! ## Runs -/

/-- A write to a buffer or its release changes the buffers only. -/
theorem Inv.step (h : Inv s) {a : Action} (hs : s.step a = some s') : Inv s' := by
  cases a with
  | alloc =>
    cases hs
    exact h.alloc
  | call kind buf => exact h.call hs
  | submit i ctx rc => exact h.submit hs
  | ret i => exact h.ret hs
  | poll i => exact h.poll hs
  | drop i => exact h.dropFut hs
  | callback i status => exact h.callback hs
  | mutate b =>
    obtain ⟨-, hs⟩ := Option.ite_none_right_eq_some.1 hs
    cases hs
    exact h
  | free b =>
    obtain ⟨-, hs⟩ := Option.ite_none_right_eq_some.1 hs
    cases hs
    exact { h with }

/-- The invariant holds in every reachable state. -/
theorem inv_of_reach (h : (lts O).Reach s) : Inv s :=
  Lts.Reach.invariant Inv.init (fun hi hs => hi.step hs) h

end Io

end SpdkIo
