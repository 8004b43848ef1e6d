import SpdkIo.Msg.Proof.Inv

/-!
# What a step does to one message

`step_moves`: a step leaves a message alone, or starts it, or lets its closure return, or is a poll
or a drop of its receiver. `step_logs`: the logs of the queues grow at the end, and only a poll of a
thread pops its queue. With the law of the queues, the place of a message in the log of what was
pushed says where the message is (`Inv.placed`).
-/

namespace SpdkIo.Msg

variable {T : Type} {O : Oneshot (Result T)} {s s' : State O} {a : Action T} {i j : MsgId}
  {m m' : Message O} {t : ThreadId}

/-- The message `i` before and after the action `a`. -/
structure Moves (a : Action T) (i : MsgId) (m m' : Message O) : Prop where
  target : m'.target = m.target
  stage : m'.stage = m.stage ∨
    (a = .begin m.target ∧ (∃ ctx, m.stage = .queued ctx) ∧ m'.stage = .running) ∨
    (m.stage = .running ∧ ∃ v, a = .finish i v ∧ m'.stage = .finished v)
  rx : m'.rx = m.rx ∨ a = .poll i ∨ a = .dropRx i

theorem Moves.refl (a : Action T) (i : MsgId) (m : Message O) : Moves a i m m :=
  ⟨rfl, .inl rfl, .inl rfl⟩

/-- A closure that has returned stays so. -/
theorem Moves.finished (h : Moves a i m m') {v : T} (hv : m.stage = .finished v) :
    m'.stage = .finished v := by
  obtain hst | ⟨-, ⟨ctx, hq⟩, -⟩ | ⟨hr, -⟩ := h.stage
  · exact hst.trans hv
  · cases hq.symm.trans hv
  · cases hr.symm.trans hv

/-! ## The effect of a step -/

/-- An entry of the table is replaced. -/
theorem moves_set {l : List (Message O)} {mj mj' : Message O} (hj : l[j]? = some mj)
    (hmove : Moves a j mj mj') (hm : l[i]? = some m) :
    ∃ m', (l.set j mj')[i]? = some m' ∧ Moves a i m m' := by
  by_cases hij : j = i
  · subst hij
    obtain rfl := Option.some.inj (hj.symm.trans hm)
    exact ⟨mj', Table.set_self hj, hmove⟩
  · exact ⟨m, Table.set_of_ne hij hm, .refl a i m⟩

theorem sendMsg_msgs {target : ThreadId} {rx : Receiver T} {ctx : Addr} {rc : Int32}
    (hs : s.sendMsg target rx ctx rc = some s') : ∃ m, s'.msgs = s.msgs ++ [m] := by
  unfold State.sendMsg at hs
  obtain ⟨heap, -, rfl⟩ := Option.map_eq_some_iff.1 hs
  split
  · exact ⟨_, rfl⟩
  · exact ⟨_, rfl⟩

theorem moves_sendMsg {target : ThreadId} {rx : Receiver T} {ctx : Addr} {rc : Int32}
    (hs : s.sendMsg target rx ctx rc = some s') (a : Action T) (hm : s.msgs[i]? = some m) :
    ∃ m', s'.msgs[i]? = some m' ∧ Moves a i m m' := by
  obtain ⟨m₀, hmsgs⟩ := sendMsg_msgs hs
  exact ⟨m, by rw [hmsgs]; exact Table.append_of hm, .refl a i m⟩

theorem finish_cases {v : T} (hs : s.finish i v = some s') :
    ∃ m chan, s.msgs[i]? = some m ∧ m.stage = .running ∧
      s' = s.setMsg i { m with stage := .finished v, chan } := by
  unfold State.finish at hs
  obtain ⟨m, hm, hs⟩ := Option.bind_eq_some_iff.1 hs
  split at hs
  · rename_i hst
    split at hs
    · exact ⟨m, m.chan, hm, hst, (Option.some.inj hs).symm⟩
    · exact ⟨m, _, hm, hst, (Option.some.inj hs).symm⟩
  · cases hs

theorem poll_cases (hs : s.poll i = some s') :
    ∃ m rx chan resolved, s.msgs[i]? = some m ∧ m.rx = .held ∧
      s' = { s.setMsg i { m with rx, chan } with resolved } := by
  unfold State.poll at hs
  obtain ⟨m, hm, hs⟩ := Option.bind_eq_some_iff.1 hs
  split at hs
  · rename_i hrx
    split at hs
    · exact ⟨m, _, _, _, hm, hrx, (Option.some.inj hs).symm⟩
    · exact ⟨m, m.rx, _, s.resolved, hm, hrx, (Option.some.inj hs).symm⟩
  · cases hs

theorem dropRx_cases (hs : s.dropRx i = some s') :
    ∃ m, s.msgs[i]? = some m ∧ s' = s.setMsg i { m with rx := .dropped } := by
  unfold State.dropRx at hs
  obtain ⟨m, hm, hs⟩ := Option.bind_eq_some_iff.1 hs
  split at hs
  · exact ⟨m, hm, (Option.some.inj hs).symm⟩
  · cases hs

/-- **What a step does to a message.** -/
theorem step_moves (h : Inv s) (hs : s.step a = some s') (hm : s.msgs[i]? = some m) :
    ∃ m', s'.msgs[i]? = some m' ∧ Moves a i m m' := by
  cases a with
  | send target ctx rc => exact moves_sendMsg hs _ hm
  | call target ctx rc => exact moves_sendMsg hs _ hm
  | begin t =>
    obtain ⟨e, queues, mj, -, hj, hst, ht, -, rfl⟩ := h.begin_eq hs
    exact moves_set hj ⟨rfl, .inr (.inl ⟨by rw [ht], ⟨_, hst⟩, rfl⟩), .inl rfl⟩ hm
  | finish j v =>
    obtain ⟨mj, chan, hj, hst, rfl⟩ := finish_cases hs
    exact moves_set hj ⟨rfl, .inr (.inr ⟨hst, v, rfl, rfl⟩), .inl rfl⟩ hm
  | poll j =>
    obtain ⟨mj, rx, chan, resolved, hj, -, rfl⟩ := poll_cases hs
    exact moves_set hj ⟨rfl, .inl rfl, .inr (.inl rfl)⟩ hm
  | dropRx j =>
    obtain ⟨mj, hj, rfl⟩ := dropRx_cases hs
    exact moves_set hj ⟨rfl, .inl rfl, .inr (.inr rfl)⟩ hm

/-- A message that was not there has not started. -/
theorem new_msg (h : Inv s) (hs : s.step a = some s') (hn : s.msgs[i]? = none)
    (hm : s'.msgs[i]? = some m) : m.stage.started = false := by
  have hsend : ∀ {target rx ctx rc}, s.sendMsg target rx ctx rc = some s' →
      m.stage.started = false := by
    intro target rx ctx rc hs
    unfold State.sendMsg at hs
    obtain ⟨heap, -, rfl⟩ := Option.map_eq_some_iff.1 hs
    split at hm
    · rcases Table.append_cases hm with ⟨-, rfl⟩ | hm
      · rfl
      · cases hn.symm.trans hm
    · rcases Table.append_cases hm with ⟨-, rfl⟩ | hm
      · rfl
      · cases hn.symm.trans hm
  have hset : ∀ {j : MsgId} {mj mj' : Message O}, s.msgs[j]? = some mj →
      (s.msgs.set j mj')[i]? = some m → m.stage.started = false := by
    intro j mj mj' hj hm
    rcases Table.set_cases hm with ⟨rfl, -⟩ | ⟨-, hm⟩
    · cases hn.symm.trans hj
    · cases hn.symm.trans hm
  cases a with
  | send target ctx rc => exact hsend hs
  | call target ctx rc => exact hsend hs
  | begin t =>
    obtain ⟨e, queues, mj, -, hj, -, -, -, rfl⟩ := h.begin_eq hs
    exact hset hj hm
  | finish j v =>
    obtain ⟨mj, chan, hj, -, rfl⟩ := finish_cases hs
    exact hset hj hm
  | poll j =>
    obtain ⟨mj, rx, chan, resolved, hj, -, rfl⟩ := poll_cases hs
    exact hset hj hm
  | dropRx j =>
    obtain ⟨mj, hj, rfl⟩ := dropRx_cases hs
    exact hset hj hm

/-- How the logs of the queues grow in a step. -/
structure Logs (a : Action T) (q q' : Fifo ThreadId Envelope) : Prop where
  pushed : ∃ l, q'.pushed = q.pushed ++ l
  popped : ∃ l, q'.popped = q.popped ++ l ∧ ∀ t, a ≠ .begin t → forKey t l = []

theorem Logs.refl (a : Action T) (q : Fifo ThreadId Envelope) : Logs a q q :=
  ⟨⟨[], by simp⟩, [], by simp, fun _ _ => rfl⟩

theorem logs_sendMsg {target : ThreadId} {rx : Receiver T} {ctx : Addr} {rc : Int32}
    (hs : s.sendMsg target rx ctx rc = some s') (a : Action T) : Logs a s.queues s'.queues := by
  unfold State.sendMsg at hs
  obtain ⟨heap, -, rfl⟩ := Option.map_eq_some_iff.1 hs
  split
  · exact ⟨⟨_, rfl⟩, [], (List.append_nil _).symm, fun _ _ => rfl⟩
  · exact .refl a _

/-- **How the logs grow.** -/
theorem step_logs (h : Inv s) (hs : s.step a = some s') : Logs a s.queues s'.queues := by
  cases a with
  | send target ctx rc => exact logs_sendMsg hs _
  | call target ctx rc => exact logs_sendMsg hs _
  | begin t =>
    obtain ⟨e, queues, mj, hpop, -, -, -, -, rfl⟩ := h.begin_eq hs
    obtain ⟨rest, -, -, hpushed, hpopped⟩ := Fifo.pop_eq_some hpop
    refine ⟨⟨[], by simp [hpushed]⟩, [(t, e)], hpopped, fun t' ht' => ?_⟩
    have hne : t ≠ t' := by
      rintro rfl
      exact ht' rfl
    exact forKey_singleton_ne hne e
  | finish j v =>
    obtain ⟨mj, chan, -, -, rfl⟩ := finish_cases hs
    exact .refl _ _
  | poll j =>
    obtain ⟨mj, rx, chan, resolved, -, -, rfl⟩ := poll_cases hs
    exact .refl _ _
  | dropRx j =>
    obtain ⟨mj, -, rfl⟩ := dropRx_cases hs
    exact .refl _ _

/-! ## The place of a message -/

/-- The number of messages that were taken out of the queue of `t`. -/
def taken (s : State O) (t : ThreadId) : Nat := (forKey t s.queues.popped).length

/-- The message `i` is the `n`-th that was pushed to the queue of `t`. -/
def PushedAt (s : State O) (t : ThreadId) (n : Nat) (i : MsgId) : Prop :=
  ∃ e, (forKey t s.queues.pushed)[n]? = some e ∧ e.msg = i

theorem pushedAt_step (h : Inv s) (hs : s.step a = some s') {n : Nat} (hp : PushedAt s t n i) :
    PushedAt s' t n i := by
  obtain ⟨l, hl⟩ := (step_logs h hs).pushed
  obtain ⟨e, he, hi⟩ := hp
  refine ⟨e, ?_, hi⟩
  rw [hl, forKey_append, List.getElem?_append_left (List.getElem?_eq_some_iff.1 he).1, he]

/-- What was pushed before the step was at its place before. -/
theorem pushedAt_of_step (h : Inv s) (hs : s.step a = some s') {n : Nat}
    (hn : n < (forKey t s.queues.pushed).length) (hp : PushedAt s' t n i) : PushedAt s t n i := by
  obtain ⟨l, hl⟩ := (step_logs h hs).pushed
  obtain ⟨e, he, hi⟩ := hp
  rw [hl, forKey_append, List.getElem?_append_left hn] at he
  exact ⟨e, he, hi⟩

/-- **The place of a message**: it has started if it was among the first `taken`, and else waits in
the queue. -/
theorem Inv.placed (h : Inv s) {n : Nat} (hp : PushedAt s t n i) :
    ∃ m, s.msgs[i]? = some m ∧ m.target = t ∧
      ((n < taken s t ∧ m.stage.started = true) ∨
        (taken s t ≤ n ∧ (∃ ctx, m.stage = .queued ctx) ∧ s.queues.queue t ≠ [])) := by
  obtain ⟨e, he, rfl⟩ := hp
  have hmem : (t, e) ∈ s.queues.pushed := by
    obtain ⟨p, hp, hpe⟩ := List.mem_map.1 (List.mem_of_getElem? he)
    obtain ⟨hp, hk⟩ := List.mem_filter.1 hp
    have hpt : p.1 = t := of_decide_eq_true hk
    rwa [← hpt, ← hpe]
  obtain ⟨m, hm, ht⟩ := h.pushed _ hmem
  refine ⟨m, hm, ht, ?_⟩
  rw [← s.queues.fifo] at he
  rcases Nat.lt_or_ge n (taken s t) with hn | hn
  · rw [List.getElem?_append_left hn] at he
    obtain ⟨p, hp, hpe⟩ := List.mem_map.1 (List.mem_of_getElem? he)
    obtain ⟨m', hm', hst⟩ := h.popped p (List.mem_filter.1 hp).1
    rw [hpe, hm] at hm'
    cases hm'
    exact .inl ⟨hn, hst⟩
  · rw [List.getElem?_append_right hn] at he
    have hq := List.mem_of_getElem? he
    obtain ⟨m', hm', hst, -⟩ := h.queued t e hq
    rw [hm] at hm'
    cases hm'
    exact .inr ⟨hn, ⟨_, hst⟩, List.ne_nil_of_mem hq⟩

/-- The head of a queue is the next message that is taken. -/
theorem pushedAt_head {e : Envelope} {rest : List Envelope} (hq : s.queues.queue t = e :: rest) :
    PushedAt s t (taken s t) e.msg := by
  refine ⟨e, ?_, rfl⟩
  rw [taken, ← s.queues.fifo, List.getElem?_append_right (Nat.le_refl _), hq, Nat.sub_self]
  rfl

end SpdkIo.Msg
