import SpdkIo.Io.Proof.Inv

/-!
# Completions reach their own operation, and boxes are reclaimed

`completions_own`: whatever the order of the callbacks and wherever the allocator puts the boxes,
`from_raw` gives the sender of the operation whose callback runs, and a future resolves at most
once, to the outcome of its own operation. `live_eq_inFlight_iff`: the boxes that are left are
those of the operations in flight, unless a submission was refused.
-/

namespace SpdkIo.Io

variable {O : Oneshot (Result Unit)}

/-- When a callback ran before the future is polled, the poll resolves it. -/
theorem Inv.poll_completed {s : State O} (h : Inv s) {i : OpId} {op : Op O} {status : Status}
    (hop : s.ops[i]? = some op) (hf : op.fut = .awaiting) (hio : op.io = .completed status) :
    ∃ s' result, s.step (.poll i) = some s' ∧ s'.resolved = s.resolved ++ [(i, result)] ∧
      status.Outcome result := by
  have hok := h.ops hop
  unfold Op.Ok at hok
  rw [hio] at hok
  obtain ⟨result, hcb, ⟨hh, -⟩ | hr | hd⟩ := hok
  · obtain ⟨chan, heq⟩ := pollRx_holding (s := s) (i := i) hh
    refine ⟨s.pollRx i op, result, ?_, ?_, OpKind.callback_spec hcb⟩
    · show s.poll i = _
      simp [State.poll, hop, hf]
    · rw [heq]
      rfl
  · rw [hf] at hr
    cases hr
  · rw [hf] at hd
    cases hd

/-- **Every completion reaches its own operation.** -/
theorem completions_own {s : State O} (h : (lts O).Reach s) :
    (∀ p ∈ s.rebuilt, p.2 = some p.1) ∧ (s.rebuilt.map (·.2)).Nodup ∧
      (∀ p ∈ s.resolved, ∃ op, s.ops[p.1]? = some op ∧ op.Outcome p.2) ∧
      (s.resolved.map (·.1)).Nodup ∧
      ∀ i op status, s.ops[i]? = some op → op.fut = .awaiting → op.io = .completed status →
        ∃ s' result, s.step (.poll i) = some s' ∧ s'.resolved = s.resolved ++ [(i, result)] ∧
          status.Outcome result := by
  have hinv := inv_of_reach h
  have hown : ∀ p ∈ s.rebuilt, p.2 = some p.1 := fun p hp => (hinv.rebuilt p hp).1
  refine ⟨hown, ?_, ?_, hinv.resolved_nodup, fun i op status => hinv.poll_completed⟩
  · have hmap : s.rebuilt.map (·.2) = (s.rebuilt.map (·.1)).map some := by
      rw [List.map_map]
      exact List.map_congr_left hown
    rw [hmap]
    exact hinv.rebuilt_nodup.map fun _ _ => Option.some.inj
  · intro p hp
    obtain ⟨op, hop, hr⟩ := hinv.resolved p hp
    exact ⟨op, hop, (hinv.ops hop).outcome hr⟩

/-- Two operations whose senders were at the same address; the second callback runs before its
submission returns and before the first future is polled. -/
theorem completions_own_reuse : ∃ s : State (.cell (Result Unit)),
    s.resolved = [(0, .ok ()), (1, .error (.nvmeError 1 129))] ∧
      (∀ p ∈ s.rebuilt, p.2 = some p.1) := by
  obtain ⟨s, hs, hp⟩ := Lts.exists_of_run (M := lts (.cell (Result Unit)))
    [.alloc, .call .bdevRead (some 0), .submit 0 7 0, .ret 0, .callback 0 (.bdev true),
     .alloc, .call .nvmeWrite (some 1), .submit 1 7 0, .callback 1 (.nvme 0x0302),
     .poll 0, .ret 1]
    (fun s => decide (s.resolved = [(0, .ok ()), (1, .error (.nvmeError 1 129))])) (by decide)
  exact ⟨s, of_decide_eq_true hp, (completions_own hs).1⟩

/-- **The boxes that are left are those of the operations in flight** exactly when no submission
was refused. -/
theorem live_eq_inFlight_iff {s : State O} (h : (lts O).Reach s) :
    s.heap.live = s.ops.countP (·.inFlight) ↔ ∀ op ∈ s.ops, op.isRefused = false := by
  have hlive := (inv_of_reach h).live
  have hzero : s.ops.countP (·.isRefused) = 0 ↔ ∀ op ∈ s.ops, op.isRefused = false := by
    rw [List.countP_eq_zero]
    simp only [Bool.not_eq_true]
  rw [← hzero]
  omega

/-- Everything has completed, and nothing is left. -/
theorem live_eq_inFlight_drained : ∃ s : State (.cell (Result Unit)),
    s.ops.length = 2 ∧ s.ops.countP (·.inFlight) = 0 ∧ s.heap.live = 0 := by
  obtain ⟨s, hs, hp⟩ := Lts.exists_of_run (M := lts (.cell (Result Unit)))
    [.call .subsystemStart none, .call .subsystemStop none, .submit 0 7 0, .submit 1 8 0,
     .callback 1 (.subsystem 0), .callback 0 (.subsystem (-5))]
    (fun s => decide (s.ops.length = 2 ∧ s.ops.countP (·.inFlight) = 0 ∧
      ∀ op ∈ s.ops, op.isRefused = false)) (by decide)
  obtain ⟨hlen, hin, href⟩ := of_decide_eq_true hp
  exact ⟨s, hlen, hin, hin ▸ (live_eq_inFlight_iff hs).2 href⟩

/-- A refused read: its sender is never reclaimed. -/
theorem live_ne_inFlight_refused :
    ¬ ∀ s : State (.cell (Result Unit)), (lts (.cell (Result Unit))).Reach s →
      s.heap.live = s.ops.countP (·.inFlight) := by
  intro hall
  obtain ⟨s, hs, hp⟩ := Lts.exists_of_run (M := lts (.cell (Result Unit)))
    [.alloc, .call .bdevRead (some 0), .submit 0 7 (-12), .ret 0]
    (fun s => decide (s.heap.live ≠ s.ops.countP (·.inFlight))) (by decide)
  exact of_decide_eq_true hp (hall s hs)

end SpdkIo.Io
