import SpdkIo.Event.Proof.Inv

/-!
# Closures are consumed once

`closures_consumed_once`: at every moment a closure is with its `SpdkEvent`, in SPDK's queue, run
once, or dropped once, and in one of these only; it was run exactly if a reactor processed the event
it was dispatched with, on its own lcore. The receivers of `call_on_async` resolve to the values of
their own closures.
-/

namespace SpdkIo.Event

variable {T : Type} {O : Oneshot (Result T)} {s : State O} {i : ClosureId} {c : Closure O}

theorem Inv.custody_eq (h : Inv s) (hc : s.closures[i]? = some c) :
    ownersIn s.closures i + s.queued i + s.runs i + s.drops i = 1 := by
  have honce := h.once i
  rw [if_pos (List.getElem?_eq_some_iff.1 hc).1] at honce
  exact honce

/-- A closure was run exactly if its event was processed. -/
theorem Inv.mem_ran (h : Inv s) (lcore : Lcore) :
    (lcore, some i) ∈ s.ran ↔ ∃ e ∈ s.events.popped, e.closure = i ∧ e.lcore = lcore := by
  rw [h.ran, List.mem_map]
  constructor
  · rintro ⟨e, he, heq⟩
    obtain ⟨hl, hi⟩ := Prod.mk.inj heq
    exact ⟨e, he, Option.some.inj hi, hl⟩
  · rintro ⟨e, he, rfl, rfl⟩
    exact ⟨e, he, rfl⟩

/-- An event that was dispatched is of the lcore that its closure was given for. -/
theorem Inv.lcore_eq (h : Inv s) (hc : s.closures[i]? = some c) {e : RawEvent}
    (he : e ∈ s.events.pushed) (hi : e.closure = i) : e.lcore = c.lcore := by
  obtain ⟨d, hd, hl⟩ := h.lcore e he
  rw [hi, hc] at hd
  obtain rfl := Option.some.inj hd
  exact hl.symm

/-- When the closure of `call_on_async` has returned, the next poll of its receiver resolves it. -/
theorem Inv.poll_finished (h : Inv s) {v : T} (hc : s.closures[i]? = some c) (hrx : c.rx = .held)
    (hst : c.stage = .finished v) :
    ∃ s', s.step (.poll i) = some s' ∧ s'.resolved = s.resolved ++ [(i, .ok v)] := by
  obtain ⟨chan, hr⟩ := CompletionReceiver.poll_holding ((h.closures hc).holding v hst hrx)
  refine ⟨{ s.setClosure i { c with rx := .resolved (.ok v), chan } with
    resolved := s.resolved ++ [(i, .ok v)] }, ?_, rfl⟩
  show s.poll i = _
  simp [State.poll, hc, hrx, hr]

/-- **Every closure is consumed once**: it is with its `SpdkEvent` or queued, or it was run once or
dropped once. It was run exactly if a dispatched event of its own was processed, on the lcore it was
given for, and what the trampoline and the drops take out of a box is always a closure. A receiver
resolves to the value of its own closure, once, and at the next poll after the closure returned. -/
theorem closures_consumed_once (h : (lts O).Reach s) :
    (∀ i c, s.closures[i]? = some c →
      ownersIn s.closures i + s.queued i + s.runs i + s.drops i = 1 ∧
      (∀ lcore, (lcore, some i) ∈ s.ran →
        lcore = c.lcore ∧ ∃ e ∈ s.events.popped, e.closure = i ∧ e ∈ s.events.pushed) ∧
      ∀ e ∈ s.events.popped, e.closure = i → (c.lcore, some i) ∈ s.ran) ∧
    (∀ p ∈ s.ran, ∃ i, p.2 = some i) ∧
    (∀ d ∈ s.dropped, ∃ i, d.2 = some i) ∧
    (∀ p ∈ s.resolved, ∃ c v, s.closures[p.1]? = some c ∧ c.stage = .finished v ∧ p.2 = .ok v) ∧
    (s.resolved.map (·.1)).Nodup ∧
    ∀ i c v, s.closures[i]? = some c → c.rx = .held → c.stage = .finished v →
      ∃ s', s.step (.poll i) = some s' ∧ s'.resolved = s.resolved ++ [(i, .ok v)] := by
  have hinv := inv_of_reach h
  refine ⟨fun i c hc => ⟨hinv.custody_eq hc, fun lcore hm => ?_, fun e he hi => ?_⟩, fun p hp => ?_,
    hinv.dropped, fun p hp => ?_, hinv.resolved_nodup, fun i c v => hinv.poll_finished⟩
  · obtain ⟨e, he, hi, rfl⟩ := (hinv.mem_ran lcore).1 hm
    have hpushed := s.events.mem_pushed.2 (.inl he)
    exact ⟨hinv.lcore_eq hc hpushed hi, e, he, hi, hpushed⟩
  · have hl := hinv.lcore_eq hc (s.events.mem_pushed.2 (.inl he)) hi
    exact (hinv.mem_ran _).2 ⟨e, he, hi, hl⟩
  · rw [hinv.ran] at hp
    obtain ⟨e, -, rfl⟩ := List.mem_map.1 hp
    exact ⟨_, rfl⟩
  · obtain ⟨c, hc, hr⟩ := hinv.resolved p hp
    obtain ⟨v, hv, hrv⟩ := (hinv.closures hc).resolved _ hr
    exact ⟨c, v, hc, hv, hrv⟩

/-- An event that is dropped, an allocation that fails, a receiver, and two events that are
processed in the other order; a box is at the address of one that was freed. -/
theorem closures_consumed_once_mixed : ∃ s : State (.cell (Result Nat)),
    s.drops 0 = 1 ∧ s.drops 1 = 1 ∧ s.resolved = [(2, .ok 30)] ∧ s.queued 3 = 0 ∧
      ∀ lcore, (lcore, some 2) ∈ s.ran → lcore = 5 := by
  obtain ⟨s, hs, hp⟩ := Lts.exists_of_run (M := lts (.cell (Result Nat)))
    [.new 4 7 false, .dropEvent 0, .callOnAsync 5 7 true, .callOnAsync 5 8 false, .new 6 7 false,
     .call 3, .process 1, .process 0, .finish 2 30, .finish 3 0, .poll 2]
    (fun s => decide (s.drops 0 = 1 ∧ s.drops 1 = 1 ∧ s.resolved = [(2, .ok 30)] ∧ s.queued 3 = 0 ∧
      s.closures[2]?.map Closure.lcore = some 5)) (by decide)
  obtain ⟨h0, h1, hres, hq, hc⟩ := of_decide_eq_true hp
  obtain ⟨c, hc, hl⟩ := Option.map_eq_some_iff.1 hc
  refine ⟨s, h0, h1, hres, hq, fun lcore hm => ?_⟩
  rw [(((closures_consumed_once hs).1 2 c hc).2.1 lcore hm).1, hl]

end SpdkIo.Event
