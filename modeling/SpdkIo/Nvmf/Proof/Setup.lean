import SpdkIo.Lib.Owners
import SpdkIo.Nvmf.Proof.Listen
import SpdkIo.Nvmf.Setup

/-!
# A set-up keeps its calls and transports apart

`setup_refines`: each call of `add_transport` and `add_listener` goes through the steps that it has
when it is alone (`callLts`), whatever the others do, and its callback finds its own sender; a box
is there exactly while SPDK has it. Every transport is in one place: with the program, in a future
that was not polled, with SPDK, which gets it once, or dropped.
-/

namespace SpdkIo.Nvmf.Setup

variable {O : Oneshot (Result Unit)} {s s' : State O} {i : CallId} {c c' : Call O}
  {t : NvmfTransport}

/-- The transport is in the future of the call. -/
def Call.holds (t : NvmfTransport) (c : Call O) : Bool :=
  decide (c.kind = .addTransport t) && decide (c.state.fut = .unresumed)

/-- The futures that the transport is in. -/
def State.captured (s : State O) (t : NvmfTransport) : Nat := s.calls.countP (Call.holds t)

/-- The calls of `spdk_nvmf_tgt_add_transport` with the transport. -/
def State.addedCount (s : State O) (t : NvmfTransport) : Nat := (s.added.map (·.2)).count t

/-! ## The invariant -/

/-- A call at a legal point, with its box exactly while SPDK has it. -/
structure Call.Ok (c : Call O) : Prop where
  reach : (callLts c.kind.done O).Reach c.state
  ctx : c.ctx.isSome = true ↔ c.state.io = .pending

structure Inv (s : State O) : Prop where
  owned : s.heap.Owned s.calls Call.ctx
  calls : ∀ {i : CallId} {c : Call O}, s.calls[i]? = some c → c.Ok
  own : ∀ p ∈ s.rebuilt, p.2 = some p.1
  live : s.heap.live = s.calls.countP fun c => c.ctx.isSome
  custody : ∀ t, s.held.count t + s.captured t + s.addedCount t + s.dropped.count t =
    if t.ptr < s.created then 1 else 0
  added : ∀ i t, (i, t) ∈ s.added ↔
    ∃ c, s.calls[i]? = some c ∧ c.kind = .addTransport t ∧ c.state.io ≠ .uncalled

theorem Call.Ok.inv (h : c.Ok) : CallInv c.kind.done c.state := CallInv.reach h.reach

theorem Call.Ok.uncalled_of_unresumed (h : c.Ok) (hf : c.state.fut = .unresumed) :
    c.state.io = .uncalled := by
  have hinv := h.inv
  unfold CallInv at hinv
  rw [hf] at hinv
  split at hinv
  · assumption
  · simp at hinv
  · simp at hinv

theorem Inv.init : Inv (lts O).init where
  owned := .nil
  calls h := by cases h
  own _ h := by cases h
  live := rfl
  custody _ := rfl
  added _ _ := by
    constructor
    · intro h
      cases h
    · rintro ⟨_, h, _⟩
      cases h

/-! ## Transports of the program -/

theorem count_erase_add {l : List NvmfTransport} (h : t ∈ l) (u : NvmfTransport) :
    (l.erase t).count u + (if t = u then 1 else 0) = l.count u := by
  have hpos := List.count_pos_iff.2 h
  rw [List.count_erase]
  by_cases hu : t = u
  · subst hu
    simp only [beq_self_eq_true, if_true]
    omega
  · simp only [beq_iff_eq, hu, if_false]
    omega

theorem Inv.create (h : Inv s) (transportName : List Char) (opts : Option NvmfTransportOpts)
    (ok nonNull : Bool) : Inv (s.create transportName opts ok nonNull).2 := by
  unfold State.create
  split
  · exact h
  split
  · exact h
  split
  · refine ⟨h.owned, h.calls, h.own, h.live, fun t => ?_, h.added⟩
    have hcustody := h.custody t
    show (s.held ++ [(⟨s.created⟩ : NvmfTransport)]).count t + s.captured t + s.addedCount t +
      s.dropped.count t = if t.ptr < s.created + 1 then 1 else 0
    rw [List.count_append, List.count_singleton]
    by_cases ht : t = ⟨s.created⟩
    · subst ht
      simp only [Nat.lt_irrefl, if_false] at hcustody
      simp only [beq_self_eq_true, Nat.lt_succ_self, if_true]
      omega
    · have hne : t.ptr ≠ s.created := fun hp => ht (by cases t; exact congrArg _ hp)
      have hlt : t.ptr < s.created + 1 ↔ t.ptr < s.created := by omega
      simp only [beq_iff_eq, Ne.symm ht, if_false, hlt]
      omega
  · exact h

theorem Inv.dropTransport (h : Inv s) (hs : s.dropTransport t = some s') : Inv s' := by
  unfold State.dropTransport at hs
  split at hs
  · rename_i hmem
    cases hs
    refine ⟨h.owned, h.calls, h.own, h.live, fun u => ?_, h.added⟩
    have hcustody := h.custody u
    have hheld := count_erase_add hmem u
    show (s.held.erase t).count u + s.captured u + s.addedCount u + (s.dropped ++ [t]).count u =
      if u.ptr < s.created then 1 else 0
    rw [List.count_append, List.count_singleton]
    simp only [beq_iff_eq]
    omega
  · cases hs

/-! ## New calls -/

theorem Call.Ok.init (kind : CallKind) : Call.Ok ⟨kind, none, (callLts kind.done O).init⟩ where
  reach := .init
  ctx := ⟨nofun, nofun⟩

/-- A new call, whose transport comes from `held`. -/
theorem Inv.newCall (h : Inv s) {kind : CallKind} {held : List NvmfTransport}
    (hheld : ∀ t, held.count t + (if kind = .addTransport t then 1 else 0) = s.held.count t) :
    Inv ({ s with held }.newCall kind) where
  owned := h.owned.append rfl
  calls := Table.forall_append h.calls (.init kind)
  own := h.own
  live := by
    show s.heap.live = (s.calls ++ [_]).countP _
    rw [h.live, List.countP_append, List.countP_singleton]
    rfl
  custody t := by
    have hcustody := h.custody t
    have hcount := hheld t
    show held.count t + (s.calls ++ [_]).countP (Call.holds t) + s.addedCount t +
      s.dropped.count t = if t.ptr < s.created then 1 else 0
    rw [List.countP_append, List.countP_singleton]
    have hholds : Call.holds t (⟨kind, none, (callLts kind.done O).init⟩ : Call O) =
        decide (kind = .addTransport t) := by
      rw [Call.holds, callLts, decide_eq_true rfl, Bool.and_true]
    simp only [hholds, decide_eq_true_eq]
    unfold State.captured at hcustody
    omega
  added i t := by
    show (i, t) ∈ s.added ↔ ∃ c, (s.calls ++ [_])[i]? = some c ∧ _
    rw [h.added i t]
    constructor
    · exact Table.exists_append
    · rintro ⟨c, hc, hkind, hio⟩
      rcases Table.append_cases hc with ⟨-, rfl⟩ | hc
      · exact absurd rfl hio
      · exact ⟨c, hc, hkind, hio⟩

theorem Inv.addTransport (h : Inv s) (hs : s.addTransport t = some s') : Inv s' := by
  unfold State.addTransport at hs
  split at hs
  · rename_i hmem
    cases hs
    refine h.newCall fun u => ?_
    simp only [CallKind.addTransport.injEq]
    exact count_erase_add hmem u
  · cases hs

theorem Inv.addListener (h : Inv s) : Inv s.addListener :=
  h.newCall fun _ => by rw [if_neg nofun]; rfl

/-! ## Steps of a call -/

section
variable {done : Int32 → Result Unit} {state state' : CallState O}

theorem pollRx_io (state : CallState O) :
    state.pollRx.fut ≠ .unresumed ∧ state.pollRx.io = state.io := by
  unfold CallState.pollRx
  split
  · exact ⟨nofun, rfl⟩
  · exact ⟨nofun, rfl⟩

theorem call_cases (hs : state.step done .call = some state') :
    state.fut = .unresumed ∧ state' = ⟨.calling, .pending, completion O⟩ := by
  simp only [CallState.step] at hs
  split at hs
  · rename_i hfut
    exact ⟨hfut, (Option.some.inj hs).symm⟩
  · cases hs

theorem poll_cases (hs : state.step done .poll = some state') :
    state.fut ≠ .unresumed ∧ state'.fut ≠ .unresumed ∧ state'.io = state.io := by
  simp only [CallState.step] at hs
  have hne : state.fut ≠ .unresumed := by
    intro hfut
    rw [hfut] at hs
    cases hs
  refine ⟨hne, ?_⟩
  split at hs
  · cases hs
    exact pollRx_io state
  · cases hs
    exact pollRx_io state
  · cases hs

theorem drop_cases (hs : state.step done .drop = some state') :
    (state.fut = .unresumed ∨ state.fut = .awaiting) ∧
      state' = { state with fut := .dropped } := by
  simp only [CallState.step] at hs
  split at hs
  · rename_i hfut
    exact ⟨.inl hfut, (Option.some.inj hs).symm⟩
  · rename_i hfut
    exact ⟨.inr hfut, (Option.some.inj hs).symm⟩
  · cases hs

end

theorem Call.holds_of_ne (h : c.state.fut ≠ .unresumed) : c.holds t = false := by
  rw [Call.holds, decide_eq_false h, Bool.and_false]

theorem Call.holds_of_unresumed (h : c.state.fut = .unresumed) :
    c.holds t = decide (c.kind = .addTransport t) := by
  rw [Call.holds, decide_eq_true h, Bool.and_true]

/-- What a step may change besides the call. -/
theorem Inv.setCall (h : Inv s) {heap : Boxes CallId} {added : List (CallId × NvmfTransport)}
    {dropped : List NvmfTransport} {rebuilt : List (CallId × Option CallId)}
    (hc : s.calls[i]? = some c) (hok : c'.Ok) (howned : heap.Owned (s.calls.set i c') Call.ctx)
    (hown : ∀ p ∈ rebuilt, p.2 = some p.1)
    (hlive : heap.live + (if c.ctx.isSome then 1 else 0) =
      s.heap.live + (if c'.ctx.isSome then 1 else 0))
    (hcustody : ∀ t, (if c'.holds t then 1 else 0) + (added.map (·.2)).count t + dropped.count t =
      (if c.holds t then 1 else 0) + s.addedCount t + s.dropped.count t)
    (hadded : ∀ t, (i, t) ∈ added ↔ c'.kind = .addTransport t ∧ c'.state.io ≠ .uncalled)
    (hothers : ∀ j t, i ≠ j → ((j, t) ∈ added ↔ (j, t) ∈ s.added)) :
    Inv { s with calls := s.calls.set i c', heap, added, dropped, rebuilt } where
  owned := howned
  calls := Table.forall_set h.calls hok
  own := hown
  live := by
    have hcount := Table.countP_set (fun c : Call O => c.ctx.isSome) (b := c') hc
    have hold := h.live
    show heap.live = (s.calls.set i c').countP _
    omega
  custody t := by
    have hcount := Table.countP_set (Call.holds t) (b := c') hc
    have hold := h.custody t
    have hmove := hcustody t
    show s.held.count t + (s.calls.set i c').countP (Call.holds t) + (added.map (·.2)).count t +
      dropped.count t = if t.ptr < s.created then 1 else 0
    unfold State.captured at hold
    omega
  added j t := by
    show (j, t) ∈ added ↔ ∃ d, (s.calls.set i c')[j]? = some d ∧ _
    by_cases hij : i = j
    · subst hij
      rw [hadded t, Table.set_self hc]
      simp only [Option.some.injEq, exists_eq_left']
    · rw [hothers j t hij, h.added j t, List.getElem?_set_ne hij]

/-- A step of a call that leaves SPDK, and the transport, alone. -/
theorem Inv.quiet (h : Inv s) (hc : s.calls[i]? = some c) {state : CallState O}
    (hreach : (callLts c.kind.done O).Reach state) (hio : state.io = c.state.io)
    {dropped : List NvmfTransport}
    (hcustody : ∀ t, (if Call.holds t { c with state } then 1 else 0) + dropped.count t =
      (if c.holds t then 1 else 0) + s.dropped.count t) :
    Inv { s with calls := s.calls.set i { c with state }, dropped } := by
  have hadded (t : NvmfTransport) :
      (i, t) ∈ s.added ↔ c.kind = .addTransport t ∧ state.io ≠ .uncalled := by
    rw [h.added i t, hc, hio]
    simp only [Option.some.injEq, exists_eq_left']
  refine h.setCall hc ⟨hreach, ?_⟩ (h.owned.set hc rfl) h.own rfl (fun t => ?_) hadded
    fun _ _ _ => Iff.rfl
  · rw [hio]
    exact (h.calls hc).ctx
  · have hmove := hcustody t
    unfold State.addedCount
    omega

theorem Inv.poll (h : Inv s) (hs : s.poll i = some s') : Inv s' := by
  obtain ⟨c, hc, hs⟩ := Option.bind_eq_some_iff.1 hs
  obtain ⟨state, hstate, rfl⟩ := Option.map_eq_some_iff.1 hs
  have hreach : (callLts c.kind.done O).Reach state :=
    (h.calls hc).reach.next (a := .poll) trivial hstate
  obtain ⟨hold, hfut, hio⟩ := poll_cases hstate
  refine h.quiet hc hreach hio fun t => ?_
  rw [Call.holds_of_ne hfut, Call.holds_of_ne hold]

theorem Inv.dropCall (h : Inv s) (hs : s.dropCall i = some s') : Inv s' := by
  obtain ⟨c, hc, hs⟩ := Option.bind_eq_some_iff.1 hs
  obtain ⟨state, hstate, rfl⟩ := Option.map_eq_some_iff.1 hs
  have hreach : (callLts c.kind.done O).Reach state :=
    (h.calls hc).reach.next (a := .drop) trivial hstate
  obtain ⟨hfut, rfl⟩ := drop_cases hstate
  refine h.quiet hc hreach rfl fun t => ?_
  have hnot : Call.holds t { c with state := { c.state with fut := .dropped } } = false :=
    Call.holds_of_ne nofun
  rw [hnot]
  rcases hfut with hfut | hfut
  · rw [Call.holds_of_unresumed hfut, hfut]
    cases c.kind with
    | addTransport u =>
      simp only [List.count_append, List.count_singleton, beq_iff_eq, decide_eq_true_eq,
        CallKind.addTransport.injEq, Bool.false_eq_true, if_false]
      omega
    | addListener => rfl
  · have hne : c.state.fut ≠ .unresumed := by
      rw [hfut]
      nofun
    rw [Call.holds_of_ne hne, hfut]

theorem Inv.call (h : Inv s) {ctx : Addr} (hs : s.call i ctx = some s') : Inv s' := by
  obtain ⟨c, hc, hs⟩ := Option.bind_eq_some_iff.1 hs
  obtain ⟨state, hstate, hs⟩ := Option.bind_eq_some_iff.1 hs
  obtain ⟨heap, hheap, rfl⟩ := Option.map_eq_some_iff.1 hs
  have hok := h.calls hc
  have hreach : (callLts c.kind.done O).Reach state := hok.reach.next (a := .call) trivial hstate
  obtain ⟨hfut, rfl⟩ := call_cases hstate
  have huncalled := hok.uncalled_of_unresumed hfut
  have hnone : c.ctx.isSome = false := by
    rw [← Bool.not_eq_true, hok.ctx, huncalled]
    nofun
  have hnew (t : NvmfTransport) : (i, t) ∉ s.added := by
    intro hmem
    obtain ⟨d, hd, -, hio⟩ := (h.added i t).1 hmem
    obtain rfl := Option.some.inj (hc.symm.trans hd)
    exact hio huncalled
  refine h.setCall hc ⟨hreach, ⟨fun _ => rfl, fun _ => rfl⟩⟩
    (h.owned.set_intoRaw hheap fun d hd => (Option.some.inj hd).symm) h.own ?_ (fun t => ?_)
    (fun t => ?_) fun j t hij => ?_
  · rw [hnone, Boxes.live_intoRaw hheap]
    rfl
  · rw [Call.holds_of_unresumed hfut, Call.holds_of_ne (by nofun)]
    unfold State.addedCount
    cases c.kind with
    | addTransport u =>
      simp only [List.map_append, List.map_singleton, List.count_append, List.count_singleton,
        beq_iff_eq, decide_eq_true_eq, CallKind.addTransport.injEq, Bool.false_eq_true, if_false]
      omega
    | addListener => rfl
  · show _ ↔ c.kind = .addTransport t ∧ CallIo.pending ≠ .uncalled
    cases c.kind with
    | addTransport u =>
      simp only [List.mem_append, hnew t, List.mem_singleton, false_or, Prod.mk.injEq, true_and,
        CallKind.addTransport.injEq]
      exact ⟨fun htu => ⟨htu.symm, nofun⟩, fun htu => htu.1.symm⟩
    | addListener => simp [hnew t]
  · cases c.kind with
    | addTransport u => simp [Ne.symm hij]
    | addListener => rfl

theorem Inv.callback (h : Inv s) {status : Int32} (hs : s.callback i status = some s') :
    Inv s' := by
  obtain ⟨c, hc, hs⟩ := Option.bind_eq_some_iff.1 hs
  obtain ⟨ctx, hctx, rfl⟩ := Option.map_eq_some_iff.1 hs
  have hok := h.calls hc
  have hpending : c.state.io = .pending := hok.ctx.1 (by rw [hctx]; rfl)
  have hget : (s.heap.fromRaw ctx).1 = some i := h.owned.get hc hctx
  let state : CallState O := { c.state with
    io := .completed status
    chan := CompletionSender.complete O c.state.chan (c.kind.done status) }
  have hstate : c.state.step c.kind.done (.callback status) = some state := by
    simp only [CallState.step, hpending]
    rfl
  have hdone : Call.Ok (⟨c.kind, none, state⟩ : Call O) := by
    refine ⟨hok.reach.next (a := .callback status) trivial hstate, ?_⟩
    constructor <;> intro h <;> cases h
  have hset : ((s.calls.set i { c with ctx := none, state := { c.state with
      io := .completed status } })[i]?) = some _ := Table.set_self hc
  simp only [hget, State.send, hset, List.set_set]
  refine h.setCall hc hdone
    (h.owned.set_fromRaw hc hctx rfl) (fun p hp => ?_) ?_ (fun t => ?_) (fun t => ?_)
    fun j t hij => Iff.rfl
  · rcases List.mem_append.1 hp with hp | hp
    · exact h.own p hp
    · obtain rfl := List.mem_singleton.1 hp
      rfl
  · have hlive := Boxes.live_fromRaw (h.owned.get hc hctx)
    rw [hctx]
    exact hlive
  · rfl
  · rw [h.added i t, hc]
    simp only [Option.some.injEq, exists_eq_left', hpending]
    constructor
    · rintro ⟨hkind, -⟩
      refine ⟨hkind, fun hio => ?_⟩
      cases hio
    · rintro ⟨hkind, -⟩
      refine ⟨hkind, fun hio => ?_⟩
      cases hio

theorem Inv.step (h : Inv s) {a : Action} (hs : s.step a = some s') : Inv s' := by
  cases a with
  | tcp opts ok nonNull =>
    obtain rfl := Option.some.inj hs
    exact h.create _ opts ok nonNull
  | rdma opts ok nonNull =>
    obtain rfl := Option.some.inj hs
    exact h.create _ opts ok nonNull
  | dropTransport transport => exact h.dropTransport hs
  | addTransport transport => exact h.addTransport hs
  | addListener =>
    obtain rfl := Option.some.inj hs
    exact h.addListener
  | call i ctx => exact h.call hs
  | poll i => exact h.poll hs
  | drop i => exact h.dropCall hs
  | callback i status => exact h.callback hs

theorem Inv.reach (h : (lts O).Reach s) : Inv s :=
  Lts.Reach.invariant (I := Inv) .init (fun hi hs => hi.step hs) h

/-! ## What holds of every run -/

/-- What the future of a call returns is what its callback sent. -/
theorem Call.Ok.returned (h : c.Ok) {result : Result Unit} (hf : c.state.fut = .returned result) :
    ∃ status, c.state.io = .completed status ∧ result = c.kind.done status := by
  have hinv := h.inv
  cases hio : c.state.io with
  | uncalled =>
    rw [CallInv, hio, hf] at hinv
    rcases hinv with hinv | hinv <;> cases hinv
  | pending =>
    rw [CallInv, hio, hf] at hinv
    rcases hinv.2 with hinv | hinv | hinv <;> cases hinv
  | completed status => exact ⟨status, rfl, (hinv.completed hio).1 result hf⟩

/-- The first poll after the callback returns what it sent. -/
theorem Inv.poll_completed (h : Inv s) (hc : s.calls[i]? = some c) {status : Int32}
    (hio : c.state.io = .completed status) (hf : c.state.fut = .calling ∨ c.state.fut = .awaiting) :
    ∃ s' c', s.poll i = some s' ∧ s'.calls[i]? = some c' ∧
      c'.state.fut = .returned (c.kind.done status) := by
  obtain ⟨state, hstate, hreturned⟩ := ((h.calls hc).inv.completed hio).2 hf
  refine ⟨{ s with calls := s.calls.set i { c with state } }, { c with state }, ?_,
    Table.set_self hc, hreturned⟩
  change c.state.step c.kind.done .poll = some state at hstate
  rw [State.poll, hc, Option.bind_some, hstate]
  rfl

/-- A box for each call that SPDK has. -/
theorem Inv.live_eq (h : Inv s) :
    s.heap.live = s.calls.countP fun c => decide (c.state.io = .pending) := by
  rw [h.live]
  refine List.countP_congr fun c hmem => ?_
  obtain ⟨i, hc⟩ := List.mem_iff_getElem?.1 hmem
  rw [(h.calls hc).ctx, decide_eq_true_eq]

/-- **A set-up keeps its calls and its transports apart.** -/
theorem setup_refines (h : (lts O).Reach s) :
    (∀ i c, s.calls[i]? = some c →
      (callLts c.kind.done O).Reach c.state ∧
      (∀ result, c.state.fut = .returned result →
        ∃ status, c.state.io = .completed status ∧ result = c.kind.done status) ∧
      ∀ status, c.state.io = .completed status →
        c.state.fut = .calling ∨ c.state.fut = .awaiting →
        ∃ s' c', s.poll i = some s' ∧ s'.calls[i]? = some c' ∧
          c'.state.fut = .returned (c.kind.done status)) ∧
    (∀ p ∈ s.rebuilt, p.2 = some p.1) ∧
    (s.heap.live = s.calls.countP fun c => decide (c.state.io = .pending)) ∧
    (∀ t, s.held.count t + s.captured t + s.addedCount t + s.dropped.count t =
      if t.ptr < s.created then 1 else 0) ∧
    ∀ i t, (i, t) ∈ s.added ↔
      ∃ c, s.calls[i]? = some c ∧ c.kind = .addTransport t ∧ c.state.io ≠ .uncalled := by
  have hinv := Inv.reach h
  refine ⟨fun i c hc => ?_, hinv.own, hinv.live_eq, hinv.custody, hinv.added⟩
  have hok := hinv.calls hc
  exact ⟨hok.reach, fun _ hf => hok.returned hf, fun _ hio hf => hinv.poll_completed hc hio hf⟩

/-- A call that was dropped before its first poll, with its transport, one whose callback had an
error, and one that was dropped while SPDK has it, with its box. -/
theorem setup_refines_dropped : ∃ s, (lts (.cell (Result Unit))).Reach s ∧
    s.calls[1]?.map (·.state.fut) = some (.returned (addTransportDone (-12))) ∧
    s.heap.live = 1 ∧ (1, ⟨0⟩) ∈ s.added ∧ s.dropped.count ⟨1⟩ = 1 := by
  obtain ⟨s, hs, hp⟩ := Lts.exists_of_run (M := lts (.cell (Result Unit)))
    [.tcp none true true, .rdma none true true, .rdma none false true, .addTransport ⟨1⟩,
     .addTransport ⟨0⟩, .addListener, .call 1 4, .call 2 7, .callback 1 (-12), .poll 1, .poll 2,
     .drop 2, .drop 0]
    (fun s => decide (s.created = 2 ∧ s.held = [] ∧ s.captured ⟨1⟩ = 0 ∧ s.added = [(1, ⟨0⟩)] ∧
      (s.calls.countP fun c => decide (c.state.io = .pending)) = 1 ∧
      s.calls[1]?.map (fun c : Call _ => c.state.fut) =
        some (.returned (addTransportDone (-12))))) (by decide)
  obtain ⟨hcreated, hheld, hcaptured, hadded, hpending, hfut⟩ := of_decide_eq_true hp
  obtain ⟨-, -, hlive, hcustody, -⟩ := setup_refines hs
  have hone := hcustody ⟨1⟩
  rw [hheld, hcaptured, State.addedCount, hadded, hcreated] at hone
  refine ⟨s, hs, hfut, hlive.trans hpending, ?_, ?_⟩
  · rw [hadded]
    exact List.mem_singleton_self _
  · simpa using hone

end SpdkIo.Nvmf.Setup
