import SpdkIo.Msg.Proof.Inv

/-!
# Delivery of messages

`messages_delivered`: on each thread, the closures that ran, followed by those still queued, are
the ones SPDK accepted for it, in this order, and a call resolves to the value of its own closure.
`refusedDropped_iff`: a refused message leaves its box behind, and its call pending, since the code
does not look at the result of `spdk_thread_send_msg`.
-/

namespace SpdkIo.Msg

variable {T : Type} {O : Oneshot (Result T)}

/-! ## Accepted messages -/

/-- The closures that ran on `t` and those queued for it are the accepted ones. -/
theorem Inv.delivered {s : State O} (h : Inv s) (t : ThreadId) :
    forKey t s.ran ++ (s.queues.queue t).map (fun e => some e.msg) =
      (forKey t s.queues.pushed).map fun e => some e.msg := by
  rw [h.ran, forKey_map fun e : Envelope => some e.msg, ← List.map_append, s.queues.fifo]

theorem Inv.ran_nodup {s : State O} (h : Inv s) : (s.ran.map (·.2)).Nodup := by
  have hmap : s.ran.map (·.2) = (s.queues.popped.map fun p => p.2.msg).map some := by
    rw [h.ran, List.map_map, List.map_map]
    rfl
  rw [hmap]
  exact h.popped_nodup.map fun _ _ => Option.some.inj

/-- When the closure of a call has returned, the next poll of its receiver resolves it. -/
theorem Inv.poll_finished {s : State O} (h : Inv s) {i : MsgId} {m : Message O} {v : T}
    (hm : s.msgs[i]? = some m) (hrx : m.rx = .held) (hst : m.stage = .finished v) :
    ∃ s', s.step (.poll i) = some s' ∧ s'.resolved = s.resolved ++ [(i, .ok v)] := by
  obtain ⟨chan, hr⟩ := CompletionReceiver.poll_holding ((h.msgs hm).holding v hst hrx)
  refine ⟨{ s.setMsg i { m with rx := .resolved (.ok v), chan } with
    resolved := s.resolved ++ [(i, .ok v)] }, ?_, rfl⟩
  show s.poll i = _
  simp [State.poll, hm, hrx, hr]

/-- **Accepted messages run once, in order, on their target**, and calls resolve to their own
values. -/
theorem messages_delivered {s : State O} (h : (lts O).Reach s) :
    (∀ t, forKey t s.ran ++ (s.queues.queue t).map (fun e => some e.msg) =
      (forKey t s.queues.pushed).map fun e => some e.msg) ∧
    (∀ p ∈ s.queues.pushed, ∃ m, s.msgs[p.2.msg]? = some m ∧ m.target = p.1) ∧
    (s.ran.map (·.2)).Nodup ∧
    (∀ p ∈ s.resolved, ∃ m v, s.msgs[p.1]? = some m ∧ m.stage = .finished v ∧ p.2 = .ok v) ∧
    (s.resolved.map (·.1)).Nodup ∧
    ∀ i m v, s.msgs[i]? = some m → m.rx = .held → m.stage = .finished v →
      ∃ s', s.step (.poll i) = some s' ∧ s'.resolved = s.resolved ++ [(i, .ok v)] := by
  have hinv := inv_of_reach h
  refine ⟨hinv.delivered, hinv.pushed, hinv.ran_nodup, fun p hp => ?_, hinv.resolved_nodup,
    fun i m v => hinv.poll_finished⟩
  obtain ⟨m, hm, hr⟩ := hinv.resolved p hp
  obtain ⟨v, hv, hrv⟩ := (hinv.msgs hm).resolved _ hr
  exact ⟨m, v, hm, hv, hrv⟩

/-- Two calls to thread 1 and one message to thread 2; a box is at the address of one that was
freed, the closure of the second call sends while it runs, and the calls resolve in reverse. -/
theorem messages_delivered_interleaved : ∃ s : State (.cell (Result Nat)),
    s.resolved = [(2, .ok 30), (0, .ok 10)] ∧ s.queues.queue 1 = [] ∧
      forKey 1 s.ran = (forKey 1 s.queues.pushed).map fun e => some e.msg := by
  obtain ⟨s, hs, hp⟩ := Lts.exists_of_run (M := lts (.cell (Result Nat)))
    [.call 1 7 0, .send 2 8 0, .begin 1, .call 1 7 0, .finish 0 10, .begin 1, .send 2 7 0,
     .finish 2 30, .poll 2, .begin 2, .poll 0]
    (fun s => decide (s.resolved = [(2, .ok 30), (0, .ok 10)] ∧ s.queues.queue 1 = []))
    (by decide)
  obtain ⟨hres, hq⟩ := of_decide_eq_true hp
  have hdel := (messages_delivered hs).1 1
  rw [hq, List.map_nil, List.append_nil] at hdel
  exact ⟨s, hres, hq, hdel⟩

/-! ## Refused messages -/

/-- A refused message leaves nothing behind: its box is gone, and its call is cancelled. -/
def RefusedDropped (s : State O) : Prop :=
  ∀ i m, s.msgs[i]? = some m → m.stage.isRefused = true →
    (∀ a, s.heap.get a ≠ some i) ∧
      (m.rx = .held → (CompletionReceiver.poll O m.chan).1 = .ready (.error .cancelled))

/-- The box of a refused message stays, and its receiver is pending. -/
theorem Inv.refused_leaks {s : State O} (h : Inv s) {i : MsgId} {m : Message O}
    (hm : s.msgs[i]? = some m) (hst : m.stage.isRefused = true) :
    (∃ a, s.heap.get a = some i) ∧ (CompletionReceiver.poll O m.chan).1 = .pending := by
  rcases hs : m.stage with ctx | ctx | _ | v <;> rw [hs] at hst <;> cases hst
  refine ⟨⟨ctx, h.boxed.get hm (by rw [hs]; rfl)⟩, ?_⟩
  have hw : O.Waiting m.chan := (h.msgs hm).waiting fun v hv => by cases hs.symm.trans hv
  obtain ⟨chan, -, hr⟩ := CompletionReceiver.poll_waiting hw
  rw [hr]

/-- **Refused messages leave nothing behind** exactly when there are none. -/
theorem refusedDropped_iff {s : State O} (h : (lts O).Reach s) :
    RefusedDropped s ↔ ∀ m ∈ s.msgs, m.stage.isRefused = false := by
  constructor
  · intro hdrop m hm
    obtain ⟨i, hi⟩ := List.getElem?_of_mem hm
    rw [← Bool.not_eq_true]
    intro href
    obtain ⟨⟨a, ha⟩, -⟩ := (inv_of_reach h).refused_leaks hi href
    exact (hdrop i m hi href).1 a ha
  · intro hnone i m hi href
    rw [hnone m (List.mem_of_getElem? hi)] at href
    cases href

/-- A send and a call that were accepted, one of them still queued. -/
theorem refusedDropped_accepted : ∃ s : State (.cell (Result Nat)),
    s.msgs.length = 2 ∧ RefusedDropped s := by
  obtain ⟨s, hs, hp⟩ := Lts.exists_of_run (M := lts (.cell (Result Nat)))
    [.send 1 7 0, .call 1 8 0, .begin 1, .finish 0 0]
    (fun s => decide (s.msgs.length = 2 ∧ ∀ m ∈ s.msgs, m.stage.isRefused = false)) (by decide)
  obtain ⟨hlen, hacc⟩ := of_decide_eq_true hp
  exact ⟨s, hlen, (refusedDropped_iff hs).2 hacc⟩

/-- A call that is refused for want of a message: its receiver is pending, and nothing holds its
sender but the box. -/
theorem not_refusedDropped :
    ¬ ∀ s : State (.cell (Result Nat)), (lts (.cell (Result Nat))).Reach s → RefusedDropped s := by
  intro hall
  obtain ⟨s, hs, hp⟩ := Lts.exists_of_run (M := lts (.cell (Result Nat))) [.call 1 7 (-12)]
    (fun s => s.heap.get 7 == some 0 && s.msgs[0]?.any fun m => m.stage.isRefused) (by decide)
  obtain ⟨hbox, hany⟩ := Bool.and_eq_true_iff.1 hp
  obtain ⟨m, hm, href⟩ := (Option.any_eq_true _ _).1 hany
  exact (hall s hs 0 m hm href).1 7 (eq_of_beq hbox)

end SpdkIo.Msg
