import SpdkIo.Msg.Model
import SpdkIo.Lib.Owners

/-!
# The invariant of the messages

`Msg.Inv`: each channel follows its closure (`Message.Ok`), the context of a message is the box of
its own closure, and a queued message is a closure that has not run. The order of the messages is
a law of the queues (`Fifo`); the invariant says which closures their entries stand for.
-/

namespace SpdkIo

variable {T : Type} {O : Oneshot (Result T)}

/-- The box of a closure that has not been taken out. -/
def Stage.box : Stage T → Option Addr
  | .queued ctx | .refused ctx => some ctx
  | .running | .finished _ => none

def Stage.started : Stage T → Bool
  | .queued _ | .refused _ => false
  | .running | .finished _ => true

/-- A message whose channel and receiver follow its closure. -/
structure Message.Ok (m : Message O) : Prop where
  waiting : (∀ v, m.stage ≠ .finished v) → O.Waiting m.chan
  holding : ∀ v, m.stage = .finished v → m.rx = .held → O.Holding m.chan (.ok v)
  resolved : ∀ r, m.rx = .resolved r → ∃ v, m.stage = .finished v ∧ r = .ok v

/-- A queued closure starts to run. -/
theorem Message.Ok.run {m : Message O} {ctx : Addr} (h : m.Ok) (hst : m.stage = .queued ctx) :
    Message.Ok { m with stage := .running } where
  waiting _ := h.waiting fun v hv => by cases hst.symm.trans hv
  holding v hv := by cases hv
  resolved r hr := by
    obtain ⟨v, hv, -⟩ := h.resolved r hr
    cases hst.symm.trans hv

namespace Msg

structure Inv (s : State O) : Prop where
  msgs : ∀ {i : MsgId} {m : Message O}, s.msgs[i]? = some m → m.Ok
  boxed : s.heap.Owned s.msgs fun m => m.stage.box
  pushed : ∀ p ∈ s.queues.pushed, ∃ m, s.msgs[p.2.msg]? = some m ∧ m.target = p.1
  pushed_nodup : (s.queues.pushed.map fun p => p.2.msg).Nodup
  queued : ∀ t, ∀ e ∈ s.queues.queue t,
    ∃ m, s.msgs[e.msg]? = some m ∧ m.stage = .queued e.ctx ∧ m.target = t
  popped : ∀ p ∈ s.queues.popped, ∃ m, s.msgs[p.2.msg]? = some m ∧ m.stage.started = true
  popped_nodup : (s.queues.popped.map fun p => p.2.msg).Nodup
  ran : s.ran = s.queues.popped.map fun p => (p.1, some p.2.msg)
  resolved : ∀ p ∈ s.resolved, ∃ m, s.msgs[p.1]? = some m ∧ m.rx = .resolved p.2
  resolved_nodup : (s.resolved.map (·.1)).Nodup

theorem Inv.init : Inv (lts O).init where
  msgs h := by cases h
  boxed := .nil
  pushed _ h := by cases h
  pushed_nodup := .nil
  queued _ _ h := by cases h
  popped _ h := by cases h
  popped_nodup := .nil
  ran := rfl
  resolved _ h := by cases h
  resolved_nodup := .nil

variable {s s' : State O} {i : MsgId} {m m' : Message O}

/-! ## New messages -/

/-- What a new message keeps, accepted or refused. -/
theorem Inv.append (h : Inv s) {heap : Boxes MsgId} {ctx : Addr}
    (hheap : s.heap.intoRaw s.msgs.length ctx = some heap) (hbox : m.stage.box = some ctx)
    (hok : m.Ok) : Inv { s with msgs := s.msgs ++ [m], heap } where
  msgs := Table.forall_append h.msgs hok
  boxed := h.boxed.append_intoRaw hheap fun _ hd => Option.some.inj (hd.symm.trans hbox)
  pushed p hp := Table.exists_append (h.pushed p hp)
  pushed_nodup := h.pushed_nodup
  queued t e he := Table.exists_append (h.queued t e he)
  popped p hp := Table.exists_append (h.popped p hp)
  popped_nodup := h.popped_nodup
  ran := h.ran
  resolved p hp := Table.exists_append (h.resolved p hp)
  resolved_nodup := h.resolved_nodup

/-- A message that is known but not queued is put into the queue of its target. -/
theorem Inv.push (h : Inv s) {e : Envelope} (hm : s.msgs[e.msg]? = some m)
    (hq : m.stage = .queued e.ctx) (hnew : ∀ p ∈ s.queues.pushed, p.2.msg ≠ e.msg) :
    Inv { s with queues := s.queues.push m.target e } where
  msgs := h.msgs
  boxed := h.boxed
  pushed p hp := by
    rcases List.mem_append.1 hp with hp | hp
    · exact h.pushed p hp
    · obtain rfl := List.mem_singleton.1 hp
      exact ⟨m, hm, rfl⟩
  pushed_nodup := by
    refine Table.nodup_map_append h.pushed_nodup fun hmem => ?_
    obtain ⟨p, hp, hpe⟩ := List.mem_map.1 hmem
    exact hnew p hp hpe
  queued t e' he' := by
    rcases Fifo.mem_push he' with ⟨rfl, rfl⟩ | he'
    · exact ⟨m, hm, hq, rfl⟩
    · exact h.queued t e' he'
  popped := h.popped
  popped_nodup := h.popped_nodup
  ran := h.ran
  resolved := h.resolved
  resolved_nodup := h.resolved_nodup

theorem Inv.sendMsg (h : Inv s) {target : ThreadId} {rx : Receiver T} {ctx : Addr} {rc : Int32}
    (hrx : ∀ r, rx ≠ .resolved r) (hs : s.sendMsg target rx ctx rc = some s') : Inv s' := by
  unfold State.sendMsg at hs
  obtain ⟨heap, hheap, rfl⟩ := Option.map_eq_some_iff.1 hs
  have hok : ∀ stage : Stage T, (∀ v, stage ≠ .finished v) →
      Message.Ok ⟨target, stage, rx, completion O⟩ := fun stage hst =>
    { waiting := fun _ => O.waiting_channel
      holding := fun v hv => absurd hv (hst v)
      resolved := fun r hr => absurd hr (hrx r) }
  split
  · have happ := h.append hheap (m := ⟨target, .queued ctx, rx, completion O⟩) rfl
      (hok _ fun _ hv => by cases hv)
    refine happ.push (e := ⟨ctx, s.msgs.length⟩) (List.getElem?_concat_length) rfl fun p hp => ?_
    -- the messages that were pushed before are older
    obtain ⟨m, hm, -⟩ := h.pushed p hp
    exact Nat.ne_of_lt (List.getElem?_eq_some_iff.1 hm).1
  · exact h.append hheap rfl (hok _ fun _ hv => by cases hv)

/-! ## Messages that have started -/

/-- A message changes, and its closure is not moved out of its box. -/
theorem Inv.setMsg (h : Inv s) (hm : s.msgs[i]? = some m) (hbox : m'.stage.box = m.stage.box)
    (hqueued : ∀ ctx, m.stage = .queued ctx → m'.stage = .queued ctx)
    (hstarted : m.stage.started = true → m'.stage.started = true) (htarget : m'.target = m.target)
    (hrx : ∀ r, m.rx = .resolved r → m'.rx = .resolved r) (hok : m'.Ok) :
    Inv (s.setMsg i m') where
  msgs := Table.forall_set h.msgs hok
  boxed := h.boxed.set hm hbox
  pushed p hp := Table.exists_set hm (fun ht => htarget.trans ht) (h.pushed p hp)
  pushed_nodup := h.pushed_nodup
  queued t e he := Table.exists_set hm (fun hq => ⟨hqueued _ hq.1, htarget.trans hq.2⟩)
    (h.queued t e he)
  popped p hp := Table.exists_set hm hstarted (h.popped p hp)
  popped_nodup := h.popped_nodup
  ran := h.ran
  resolved p hp := Table.exists_set hm (hrx _) (h.resolved p hp)
  resolved_nodup := h.resolved_nodup

theorem Inv.finish (h : Inv s) {value : T} (hs : s.finish i value = some s') : Inv s' := by
  unfold State.finish at hs
  obtain ⟨m, hm, hs⟩ := Option.bind_eq_some_iff.1 hs
  split at hs
  · rename_i hst
    have hok := h.msgs hm
    have hw : O.Waiting m.chan := hok.waiting fun v hv => by cases hst.symm.trans hv
    have hnr : ∀ r, m.rx ≠ .resolved r := by
      intro r hr
      obtain ⟨v, hv, -⟩ := hok.resolved r hr
      cases hst.symm.trans hv
    have hset : ∀ chan : O.Chan, (m.rx = .held → O.Holding chan (.ok value)) →
        Inv (s.setMsg i { m with stage := .finished value, chan }) := by
      intro chan hchan
      refine h.setMsg hm ?_ ?_ (fun _ => rfl) rfl (fun _ hr => hr) ?_
      · rw [hst]
        rfl
      · intro ctx hq
        cases hst.symm.trans hq
      · exact
          { waiting := fun hn => absurd rfl (hn value)
            holding := fun v hv hr => by cases hv; exact hchan hr
            resolved := fun r hr => absurd hr (hnr r) }
    split at hs
    · rename_i hrx
      cases hs
      exact hset m.chan fun hr => by cases hrx.symm.trans hr
    · cases hs
      exact hset _ fun _ => O.holding_send hw
  · cases hs

theorem Inv.dropRx (h : Inv s) (hs : s.dropRx i = some s') : Inv s' := by
  unfold State.dropRx at hs
  obtain ⟨m, hm, hs⟩ := Option.bind_eq_some_iff.1 hs
  split at hs
  · rename_i hrx
    cases hs
    have hok := h.msgs hm
    refine h.setMsg hm rfl (fun _ hq => hq) (fun hst => hst) rfl
      (fun r hr => by cases hrx.symm.trans hr) ?_
    exact
      { waiting := hok.waiting
        holding := fun v _ hr => by cases hr
        resolved := fun r hr => by cases hr }
  · cases hs

/-- A poll of a receiver that resolves gives the value its closure returned. -/
theorem poll_held {chan : O.Chan} {p : Poll (Result T)} (hok : m.Ok) (hrx : m.rx = .held)
    (hp : CompletionReceiver.poll O m.chan = (p, chan)) :
    (p = .pending ∧ (∀ v, m.stage ≠ .finished v) ∧ O.Waiting chan) ∨
      ∃ v, p = .ready (.ok v) ∧ m.stage = .finished v := by
  exact CompletionReceiver.poll_cases (fun v hv => hok.holding v hv hrx) hok.waiting hp

theorem Inv.poll (h : Inv s) (hs : s.poll i = some s') : Inv s' := by
  unfold State.poll at hs
  obtain ⟨m, hm, hs⟩ := Option.bind_eq_some_iff.1 hs
  have hok := h.msgs hm
  split at hs
  · rename_i hrx
    have hnr : ∀ r, m.rx ≠ .resolved r := fun r hr => by cases hrx.symm.trans hr
    split at hs
    · rename_i result chan hp
      cases hs
      obtain ⟨hpend, -⟩ | ⟨v, hv, hst⟩ := poll_held hok hrx hp
      · cases hpend
      · cases hv
        have hset : Inv (s.setMsg i { m with rx := .resolved (.ok v), chan }) :=
          h.setMsg hm rfl (fun _ hq => hq) (fun hs => hs) rfl (fun r hr => absurd hr (hnr r))
          { waiting := fun hn => absurd hst (hn v)
            holding := fun _ _ hr => by cases hr
            resolved := fun r hr => by cases hr; exact ⟨v, hst, rfl⟩ }
        refine { hset with resolved := ?_, resolved_nodup := ?_ }
        · intro p hp
          rcases List.mem_append.1 hp with hp | hp
          · exact hset.resolved p hp
          · obtain rfl := List.mem_singleton.1 hp
            exact ⟨_, Table.set_self hm, rfl⟩
        · have hnew : i ∉ s.resolved.map (·.1) := Table.notMem_of_log h.resolved hm fun p => hnr p.2
          exact Table.nodup_map_append h.resolved_nodup hnew
    · rename_i chan hp
      cases hs
      obtain ⟨-, hn, hw⟩ | ⟨v, hv, -⟩ := poll_held hok hrx hp
      · exact h.setMsg hm rfl (fun _ hq => hq) (fun hs => hs) rfl (fun _ hr => hr)
          { waiting := fun _ => hw
            holding := fun v hv => absurd hv (hn v)
            resolved := fun r hr => absurd hr (hnr r) }
      · cases hv
  · cases hs

/-! ## Callbacks -/

/-- `msg_callback` takes out the closure its message was queued for. -/
theorem Inv.begin_eq (h : Inv s) {t : ThreadId} (hs : s.begin t = some s') :
    ∃ e queues m, s.queues.pop t = some (e, queues) ∧ s.msgs[e.msg]? = some m ∧
      m.stage = .queued e.ctx ∧ m.target = t ∧ s.heap.get e.ctx = some e.msg ∧
      s' = { s with
        msgs := s.msgs.set e.msg { m with stage := .running }
        heap := (s.heap.fromRaw e.ctx).2
        queues
        ran := s.ran ++ [(t, some e.msg)] } := by
  unfold State.begin at hs
  obtain ⟨⟨e, queues⟩, hpop, rfl⟩ := Option.map_eq_some_iff.1 hs
  obtain ⟨rest, hq, -⟩ := Fifo.pop_eq_some hpop
  obtain ⟨m, hm, hst, ht⟩ := h.queued t e (by rw [hq]; exact List.mem_cons_self)
  have hbox : s.heap.get e.ctx = some e.msg := h.boxed.get hm (by rw [hst]; rfl)
  refine ⟨e, queues, m, hpop, hm, hst, ht, hbox, ?_⟩
  have hf : (s.heap.fromRaw e.ctx).1 = some e.msg := hbox
  rcases hfr : s.heap.fromRaw e.ctx with ⟨f, heap⟩
  rw [hfr] at hf
  obtain rfl : f = some e.msg := hf
  simp [hm, State.setMsg, hfr]

/-- What is left in the queues was there before, and is not of the message taken out. -/
theorem Inv.mem_of_pop (h : Inv s) {t t' : ThreadId} {e e' : Envelope}
    {queues : Fifo ThreadId Envelope} (hpop : s.queues.pop t = some (e, queues))
    (he' : e' ∈ queues.queue t') :
    e' ∈ s.queues.queue t' ∧ e'.msg ≠ e.msg := by
  obtain ⟨rest, hq, hqueue, -⟩ := Fifo.pop_eq_some hpop
  rw [hqueue] at he'
  rcases eq_or_ne t' t with rfl | hne
  · rw [Function.update_self] at he'
    have hnodup := Fifo.queue_nodup (k := t') (f := Envelope.msg) h.pushed_nodup
    rw [hq, List.map_cons, List.nodup_cons] at hnodup
    refine ⟨by rw [hq]; exact List.mem_cons_of_mem _ he', fun heq => ?_⟩
    exact hnodup.1 (heq ▸ List.mem_map_of_mem he')
  · -- the message would have two targets
    rw [Function.update_of_ne hne] at he'
    refine ⟨he', fun heq => hne ?_⟩
    obtain ⟨m, hm, -, ht⟩ := h.queued t e (by rw [hq]; exact List.mem_cons_self)
    obtain ⟨m', hm', -, ht'⟩ := h.queued t' e' he'
    rw [heq, hm] at hm'
    cases hm'
    exact ht'.symm.trans ht

theorem Inv.begin (h : Inv s) {t : ThreadId} (hs : s.begin t = some s') : Inv s' := by
  obtain ⟨e, queues, m, hpop, hm, hst, -, -, rfl⟩ := h.begin_eq hs
  obtain ⟨-, -, -, hpushed, hpopped⟩ := Fifo.pop_eq_some hpop
  exact
    { msgs := Table.forall_set h.msgs ((h.msgs hm).run hst)
      boxed := h.boxed.set_fromRaw hm (by rw [hst]; rfl) rfl
      pushed := fun p hp =>
        Table.exists_set hm (fun ht => ht) (h.pushed p (by rwa [hpushed] at hp))
      pushed_nodup := by
        show (queues.pushed.map _).Nodup
        rw [hpushed]
        exact h.pushed_nodup
      queued := by
        intro t' e' he'
        obtain ⟨he', hne⟩ := h.mem_of_pop hpop he'
        obtain ⟨m', hm', hq'⟩ := h.queued t' e' he'
        exact ⟨m', Table.set_of_ne hne.symm hm', hq'⟩
      popped := by
        intro p hp
        replace hp : p ∈ queues.popped := hp
        rw [hpopped] at hp
        rcases List.mem_append.1 hp with hp | hp
        · exact Table.exists_set hm (fun _ => rfl) (h.popped p hp)
        · obtain rfl := List.mem_singleton.1 hp
          exact ⟨_, Table.set_self hm, rfl⟩
      popped_nodup := by
        show (queues.popped.map _).Nodup
        rw [hpopped]
        have hnew : e.msg ∉ s.queues.popped.map fun p => p.2.msg :=
          Table.notMem_of_log h.popped hm fun _ hstart => by
            rw [hst] at hstart
            cases hstart
        exact Table.nodup_map_append h.popped_nodup hnew
      ran := by
        show s.ran ++ _ = queues.popped.map _
        rw [hpopped, h.ran, List.map_append, List.map_singleton]
      resolved := fun p hp => Table.exists_set hm (fun hr => hr) (h.resolved p hp)
      resolved_nodup := h.resolved_nodup }

/-! ## Runs -/

theorem Inv.step (h : Inv s) {a : Action T} (hs : s.step a = some s') : Inv s' := by
  cases a with
  | send target ctx rc => exact h.sendMsg (fun r hr => by cases hr) hs
  | call target ctx rc => exact h.sendMsg (fun r hr => by cases hr) hs
  | begin t => exact h.begin hs
  | finish i value => exact h.finish hs
  | poll i => exact h.poll hs
  | dropRx i => exact h.dropRx hs

/-- The invariant holds in every reachable state. -/
theorem inv_of_reach (h : (lts O).Reach s) : Inv s :=
  Lts.Reach.invariant Inv.init (fun hi hs => hi.step hs) h

end Msg

end SpdkIo
