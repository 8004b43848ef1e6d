import SpdkIo.Event.Model
import SpdkIo.Lib.Owners

/-!
# The invariant of the events

`Event.Inv`: each channel follows its closure (`Closure.Ok`), every pointer to a box leads to its
own closure, and each closure is in one place: with its `SpdkEvent`, in SPDK's queue, run, or
dropped (`custody`). A step moves one closure from one place to another.
-/

namespace SpdkIo.Event

variable {T : Type} {O : Oneshot (Result T)}

/-- The box of a closure that has not been taken out. -/
def Stage.box : Stage T → Option Addr
  | .dispatched ctx => some ctx
  | .held event => event.closurePtr
  | .running | .finished _ | .dropped _ => none

/-- The pointer is in an `SpdkEvent`. -/
def Stage.owned : Stage T → Bool
  | .held _ => true
  | .dispatched _ | .running | .finished _ | .dropped _ => false

/-- The event was dispatched. -/
def Stage.called : Stage T → Bool
  | .dispatched _ | .running | .finished _ => true
  | .held _ | .dropped _ => false

/-- The receiver is not out. -/
def Receiver.Inside (rx : Receiver T) : Prop := rx ≠ .held ∧ ∀ r, rx ≠ .resolved r

theorem Receiver.Inside.absent : (Receiver.absent : Receiver T).Inside :=
  ⟨fun h => (by cases h), fun _ h => (by cases h)⟩

theorem Receiver.Inside.inCall : (Receiver.inCall : Receiver T).Inside :=
  ⟨fun h => (by cases h), fun _ h => (by cases h)⟩

/-- A closure whose channel and receiver follow it. -/
structure Closure.Ok (c : Closure O) : Prop where
  waiting : (∀ v, c.stage ≠ .finished v) → (∀ site, c.stage ≠ .dropped site) → O.Waiting c.chan
  holding : ∀ v, c.stage = .finished v → c.rx = .held → O.Holding c.chan (.ok v)
  resolved : ∀ r, c.rx = .resolved r → ∃ v, c.stage = .finished v ∧ r = .ok v
  called : c.rx = .held → c.stage.called = true

/-! ## Where a closure is -/

/-- The `SpdkEvent` values that own the closure `i`. -/
def ownersIn (closures : List (Closure O)) (i : ClosureId) : Nat :=
  if closures[i]?.any (·.stage.owned) then 1 else 0

namespace State

variable (s : State O) (i : ClosureId)

/-- The events that are queued for the closure. -/
def queued : Nat := s.events.pending.countP (·.closure = i)

/-- How often the closure was run. -/
def runs : Nat := s.ran.countP (·.2 = some i)

/-- How often the closure was dropped. -/
def drops : Nat := s.dropped.countP (·.2 = some i)

def custody : Nat := ownersIn s.closures i + s.queued i + s.runs i + s.drops i

end State

section
variable {l : List (Closure O)} {i j : Nat} {c c' : Closure O}

theorem ownersIn_eq (h : l[i]? = some c) : ownersIn l i = if c.stage.owned then 1 else 0 := by
  unfold ownersIn
  rw [h]
  rfl

theorem ownersIn_set_of_ne (h : i ≠ j) : ownersIn (l.set i c') j = ownersIn l j := by
  unfold ownersIn
  rw [List.getElem?_set_ne h]

theorem ownersIn_set (h : l[i]? = some c) (ho : c'.stage.owned = c.stage.owned) :
    ownersIn (l.set i c') j = ownersIn l j := by
  by_cases hij : i = j
  · subst hij
    rw [ownersIn_eq (Table.set_self h), ownersIn_eq h, ho]
  · exact ownersIn_set_of_ne hij

theorem ownersIn_append_of_ne (h : j ≠ l.length) : ownersIn (l ++ [c]) j = ownersIn l j := by
  unfold ownersIn
  rcases Nat.lt_or_ge j l.length with hj | hj
  · rw [List.getElem?_append_left hj]
  · have hnone : ([c] : List (Closure O))[j - l.length]? = none :=
      List.getElem?_eq_none (by rw [List.length_singleton]; omega)
    rw [List.getElem?_append_right hj, List.getElem?_eq_none hj, hnone]

end

/-! ## The invariant -/

structure Inv (s : State O) : Prop where
  closures : ∀ {i : ClosureId} {c : Closure O}, s.closures[i]? = some c → c.Ok
  boxed : s.heap.Owned s.closures fun c => c.stage.box
  held : ∀ {i : ClosureId} {c : Closure O} {event : SpdkEvent}, s.closures[i]? = some c →
    c.stage = .held event →
      event.ptr.closure = i ∧ event.ptr.lcore = c.lcore ∧ event.closurePtr = some event.ptr.arg1
  pending : ∀ e ∈ s.events.pending,
    ∃ c, s.closures[e.closure]? = some c ∧ c.stage = .dispatched e.arg1
  lcore : ∀ e ∈ s.events.pushed, ∃ c, s.closures[e.closure]? = some c ∧ c.lcore = e.lcore
  once : ∀ i : Nat, s.custody i = if i < s.closures.length then 1 else 0
  ran : s.ran = s.events.popped.map fun e => (e.lcore, some e.closure)
  dropped : ∀ d ∈ s.dropped, ∃ i, d.2 = some i
  resolved : ∀ p ∈ s.resolved, ∃ c, s.closures[p.1]? = some c ∧ c.rx = .resolved p.2
  resolved_nodup : (s.resolved.map (·.1)).Nodup

theorem Inv.init : Inv (lts O).init where
  closures h := by cases h
  boxed := .nil
  held h := by cases h
  pending _ h := by cases h
  lcore _ h := by cases h
  once _ := rfl
  ran := rfl
  dropped _ h := by cases h
  resolved _ h := by cases h
  resolved_nodup := .nil

variable {s s' : State O} {i : ClosureId} {c c' : Closure O}

theorem Inv.custody_eq_ite (h : Inv s) (j : Nat) :
    ownersIn s.closures j + s.queued j + s.runs j + s.drops j =
      if j < s.closures.length then 1 else 0 := h.once j

/-- A closure that is not with an `SpdkEvent` leaves the others' pointers alone. -/
theorem Inv.held_set (h : Inv s) (howned : c'.stage.owned = false) {j : Nat} {d : Closure O}
    {event : SpdkEvent} (hj : (s.closures.set i c')[j]? = some d) (hst : d.stage = .held event) :
    event.ptr.closure = j ∧ event.ptr.lcore = d.lcore ∧
      event.closurePtr = some event.ptr.arg1 := by
  rcases Table.set_cases hj with ⟨-, rfl⟩ | ⟨-, hj⟩
  · rw [hst] at howned
    cases howned
  · exact h.held hj hst

/-- A closure changes and stays where it is. -/
theorem Inv.setClosure (h : Inv s) (hc : s.closures[i]? = some c)
    (howned : c'.stage.owned = c.stage.owned) (hbox : c'.stage.box = c.stage.box)
    (hheld : ∀ event, c'.stage = .held event →
      event.ptr.closure = i ∧ event.ptr.lcore = c.lcore ∧ event.closurePtr = some event.ptr.arg1)
    (hpending : ∀ ctx, c.stage = .dispatched ctx → c'.stage = .dispatched ctx)
    (hlcore : c'.lcore = c.lcore) (hrx : ∀ r, c.rx = .resolved r → c'.rx = .resolved r)
    (hok : c'.Ok) : Inv (s.setClosure i c') where
  closures := Table.forall_set h.closures hok
  boxed := h.boxed.set hc hbox
  held hj hst := by
    rcases Table.set_cases hj with ⟨rfl, rfl⟩ | ⟨-, hj⟩
    · rw [hlcore]
      exact hheld _ hst
    · exact h.held hj hst
  pending e he := Table.exists_set hc (hpending _) (h.pending e he)
  lcore e he := Table.exists_set hc (fun hl => hlcore.trans hl) (h.lcore e he)
  once j := by
    have honce := h.custody_eq_ite j
    show ownersIn (s.closures.set i c') j + s.queued j + s.runs j + s.drops j =
      if j < (s.closures.set i c').length then 1 else 0
    rw [ownersIn_set hc howned, honce, List.length_set]
  ran := h.ran
  dropped := h.dropped
  resolved p hp := Table.exists_set hc (hrx _) (h.resolved p hp)
  resolved_nodup := h.resolved_nodup

/-- A closure that has no owner, is not queued, run or dropped yet: it is not there. -/
theorem Inv.fresh (h : Inv s) :
    s.queued s.closures.length = 0 ∧ s.runs s.closures.length = 0 ∧
      s.drops s.closures.length = 0 := by
  have honce := h.custody_eq_ite s.closures.length
  rw [if_neg (Nat.lt_irrefl _)] at honce
  omega

/-! ## Drops -/

theorem Stage.called_of_owned {stage : Stage T} (h : stage.owned = true) :
    stage.called = false := by
  cases stage with
  | held _ => rfl
  | dispatched _ | running | finished _ | dropped _ => cases h

/-- The receiver of a closure that has an `SpdkEvent` is not out. -/
theorem Closure.Ok.rx_of_owned (h : c.Ok) (ho : c.stage.owned = true) : c.rx.Inside := by
  refine ⟨fun hr => ?_, fun r hr => ?_⟩
  · have hcalled := h.called hr
    rw [Stage.called_of_owned ho] at hcalled
    cases hcalled
  · obtain ⟨v, hv, -⟩ := h.resolved r hr
    rw [hv] at ho
    cases ho

theorem Closure.Ok.drop (hrx : c.rx.Inside) {site : DropSite} {chan : O.Chan} :
    Closure.Ok { c with stage := .dropped site, chan } where
  waiting _ hn := absurd rfl (hn site)
  holding v hv := by cases hv
  resolved r hr := absurd hr (hrx.2 r)
  called hr := absurd hr hrx.1

/-- A closure that has not run yet is dispatched, or run. -/
theorem Closure.Ok.advance (h : c.Ok) {stage : Stage T} (hfin : ∀ v, c.stage ≠ .finished v)
    (hdrop : ∀ site, c.stage ≠ .dropped site) (hcalled : stage.called = true)
    (hnew : ∀ v, stage ≠ .finished v) : Closure.Ok { c with stage } where
  waiting _ _ := h.waiting hfin hdrop
  holding v hv := absurd hv (hnew v)
  resolved r hr := by
    obtain ⟨v, hv, -⟩ := h.resolved r hr
    exact absurd hv (hfin v)
  called _ := hcalled

/-- `dropBox` finds the closure whose pointer it is given. -/
theorem Inv.dropBox_eq (h : Inv s) (site : DropSite) {ctx : Addr} (hc : s.closures[i]? = some c)
    (hbox : c.stage.box = some ctx) :
    ∃ chan, s.dropBox site ctx = { s with
      closures := s.closures.set i { c with stage := .dropped site, chan }
      heap := (s.heap.fromRaw ctx).2
      dropped := s.dropped ++ [(site, some i)] } := by
  have hf : (s.heap.fromRaw ctx).1 = some i := h.boxed.get hc hbox
  unfold State.dropBox
  rcases hfr : s.heap.fromRaw ctx with ⟨f, heap⟩
  rw [hfr] at hf
  obtain rfl : f = some i := hf
  simp only [hc]
  split
  · exact ⟨c.chan, rfl⟩
  · exact ⟨_, rfl⟩

/-- The owner of a closure drops it. -/
theorem Inv.dropBox (h : Inv s) {site : DropSite} {ctx : Addr} (hc : s.closures[i]? = some c)
    (howned : c.stage.owned = true) (hbox : c.stage.box = some ctx) :
    Inv (s.dropBox site ctx) := by
  obtain ⟨chan, heq⟩ := h.dropBox_eq site hc hbox
  have hrx := (h.closures hc).rx_of_owned howned
  rw [heq]
  exact
    { closures := Table.forall_set h.closures (.drop hrx)
      boxed := h.boxed.set_fromRaw hc hbox rfl
      held := h.held_set rfl
      pending := fun e he => Table.exists_set hc
        (fun hd => by rw [hd] at howned; cases howned) (h.pending e he)
      lcore := fun e he => Table.exists_set hc (fun hl => hl) (h.lcore e he)
      once := by
        intro j
        have honce := h.custody_eq_ite j
        show ownersIn (s.closures.set i _) j + s.queued j + s.runs j +
          (s.dropped ++ [(site, some i)]).countP (·.2 = some j) =
            if j < (s.closures.set i _).length then 1 else 0
        rw [List.length_set, ← honce, List.countP_append, List.countP_singleton]
        by_cases hij : i = j
        · subst hij
          rw [ownersIn_eq (Table.set_self hc), ownersIn_eq hc, howned]
          simp only [Stage.owned, State.drops, decide_true, if_true]
          simp
          omega
        · rw [ownersIn_set_of_ne hij]
          simp [State.drops, hij]
      ran := h.ran
      dropped := by
        intro d hd
        rcases List.mem_append.1 hd with hd | hd
        · exact h.dropped d hd
        · obtain rfl := List.mem_singleton.1 hd
          exact ⟨i, rfl⟩
      resolved := fun p hp =>
        Table.exists_set hc (fun hr => absurd hr (hrx.2 _)) (h.resolved p hp)
      resolved_nodup := h.resolved_nodup }

/-! ## Dispatch -/

/-- `call` hands the pointer over to SPDK. -/
theorem Inv.call (h : Inv s) (hs : s.call i = some s') : Inv s' := by
  unfold State.call at hs
  obtain ⟨c, hc, hs⟩ := Option.bind_eq_some_iff.1 hs
  split at hs
  · rename_i event hst
    cases hs
    obtain ⟨hid, hlcore, hptr⟩ := h.held hc hst
    have howned : c.stage.owned = true := by rw [hst]; rfl
    obtain ⟨-, hres⟩ := (h.closures hc).rx_of_owned howned
    have hok : Closure.Ok { c with stage := .dispatched event.ptr.arg1 } :=
      (h.closures hc).advance (by simp [hst]) (by simp [hst]) rfl (fun v hv => by cases hv)
    exact
      { closures := Table.forall_set h.closures hok
        boxed := h.boxed.set hc (by rw [hst]; exact hptr.symm)
        held := h.held_set rfl
        pending := by
          intro e he
          rcases List.mem_append.1 he with he | he
          · exact Table.exists_set hc (fun hd => by cases hst.symm.trans hd) (h.pending e he)
          · obtain rfl := List.mem_singleton.1 he
            rw [hid]
            exact ⟨_, Table.set_self hc, rfl⟩
        lcore := by
          intro e he
          rcases List.mem_append.1 he with he | he
          · exact Table.exists_set hc (fun hl => hl) (h.lcore e he)
          · obtain rfl := List.mem_singleton.1 he
            rw [hid]
            exact ⟨_, Table.set_self hc, hlcore.symm⟩
        once := by
          intro j
          have honce := h.custody_eq_ite j
          show ownersIn (s.closures.set i _) j +
            (s.events.pending ++ [event.ptr]).countP (·.closure = j) + s.runs j + s.drops j =
              if j < (s.closures.set i _).length then 1 else 0
          rw [List.length_set, ← honce, List.countP_append, List.countP_singleton, hid]
          by_cases hij : i = j
          · subst hij
            rw [ownersIn_eq (Table.set_self hc), ownersIn_eq hc, howned]
            simp only [Stage.owned, State.queued, decide_true, if_true]
            simp
            omega
          · rw [ownersIn_set_of_ne hij]
            simp [State.queued, hij]
        ran := h.ran
        dropped := h.dropped
        resolved := fun p hp =>
          Table.exists_set hc (fun hr => absurd hr (hres _)) (h.resolved p hp)
        resolved_nodup := h.resolved_nodup }
  · cases hs

/-- The trampoline takes out the closure its event was dispatched for. -/
theorem Inv.process_eq (h : Inv s) {k : Nat} (hs : s.process k = some s') :
    ∃ e events c, s.events.pop k = some (e, events) ∧ s.closures[e.closure]? = some c ∧
      c.stage = .dispatched e.arg1 ∧ s' = { s with
        closures := s.closures.set e.closure { c with stage := .running }
        heap := (s.heap.fromRaw e.arg1).2
        events
        ran := s.ran ++ [(e.lcore, some e.closure)] } := by
  unfold State.process at hs
  obtain ⟨⟨e, events⟩, hpop, rfl⟩ := Option.map_eq_some_iff.1 hs
  obtain ⟨hperm, -, -⟩ := Bag.pop_eq_some hpop
  obtain ⟨c, hc, hst⟩ := h.pending e (hperm.mem_iff.1 List.mem_cons_self)
  have hf : (s.heap.fromRaw e.arg1).1 = some e.closure := h.boxed.get hc (by rw [hst]; rfl)
  refine ⟨e, events, c, hpop, hc, hst, ?_⟩
  rcases hfr : s.heap.fromRaw e.arg1 with ⟨f, heap⟩
  rw [hfr] at hf
  obtain rfl : f = some e.closure := hf
  simp [hc, State.setClosure, hfr]

theorem queued_of_pop {k : Nat} {e : RawEvent} {events : Bag RawEvent}
    (hpop : s.events.pop k = some (e, events)) (j : Nat) :
    s.queued j = events.pending.countP (·.closure = j) + if e.closure = j then 1 else 0 := by
  obtain ⟨hperm, -, -⟩ := Bag.pop_eq_some hpop
  rw [State.queued, ← hperm.countP_eq, List.countP_cons]
  simp only [decide_eq_true_eq]

/-- No other event is queued for the closure of an event that is taken out. -/
theorem Inv.closure_ne_of_pop (h : Inv s) {k : Nat} {e e' : RawEvent} {events : Bag RawEvent}
    (hpop : s.events.pop k = some (e, events)) (hc : s.closures[e.closure]? = some c)
    (he' : e' ∈ events.pending) : e'.closure ≠ e.closure := by
  intro heq
  have hpos : 0 < events.pending.countP (·.closure = e.closure) :=
    List.countP_pos_iff.2 ⟨e', he', decide_eq_true heq⟩
  have hq := queued_of_pop hpop e.closure
  have honce := h.custody_eq_ite e.closure
  rw [if_pos (List.getElem?_eq_some_iff.1 hc).1] at honce
  rw [if_pos rfl] at hq
  omega

theorem Inv.process (h : Inv s) {k : Nat} (hs : s.process k = some s') : Inv s' := by
  obtain ⟨e, events, c, hpop, hc, hst, rfl⟩ := h.process_eq hs
  obtain ⟨hperm, hpushed, hpopped⟩ := Bag.pop_eq_some hpop
  have hok : Closure.Ok { c with stage := .running } :=
    (h.closures hc).advance (by simp [hst]) (by simp [hst]) rfl (fun v hv => by cases hv)
  exact
    { closures := Table.forall_set h.closures hok
      boxed := h.boxed.set_fromRaw hc (by rw [hst]; rfl) rfl
      held := h.held_set rfl
      pending := by
        intro e' he'
        obtain ⟨d, hd, hst'⟩ := h.pending e' (hperm.mem_iff.1 (List.mem_cons_of_mem _ he'))
        exact ⟨d, Table.set_of_ne (h.closure_ne_of_pop hpop hc he').symm hd, hst'⟩
      lcore := fun e' he' =>
        Table.exists_set hc (fun hl => hl) (h.lcore e' (by rwa [hpushed] at he'))
      once := by
        intro j
        have honce := h.custody_eq_ite j
        rw [queued_of_pop hpop] at honce
        show ownersIn (s.closures.set e.closure _) j + events.pending.countP (·.closure = j) +
          (s.ran ++ [(e.lcore, some e.closure)]).countP (·.2 = some j) + s.drops j =
            if j < (s.closures.set e.closure _).length then 1 else 0
        have howned : c.stage.owned = false := by rw [hst]; rfl
        rw [List.length_set, ← honce, List.countP_append, List.countP_singleton,
          ownersIn_set hc (by rw [howned]; rfl)]
        simp only [State.runs, decide_eq_true_eq, Option.some.injEq]
        omega
      ran := by
        show s.ran ++ _ = events.popped.map _
        rw [hpopped, h.ran, List.map_append, List.map_singleton]
      dropped := h.dropped
      resolved := fun p hp => Table.exists_set hc (fun hr => hr) (h.resolved p hp)
      resolved_nodup := h.resolved_nodup }

/-! ## New closures -/

/-- What a new closure keeps: it has an `SpdkEvent`, or it was dropped. -/
theorem Inv.append (h : Inv s) {heap : Boxes ClosureId}
    {dropped : List (DropSite × Option ClosureId)} (hnew : c.rx.Inside)
    (hwaiting : (∀ site, c.stage ≠ .dropped site) → O.Waiting c.chan)
    (hboxed : heap.Owned (s.closures ++ [c]) fun c => c.stage.box)
    (hheld : ∀ event, c.stage = .held event → event.ptr.closure = s.closures.length ∧
      event.ptr.lcore = c.lcore ∧ event.closurePtr = some event.ptr.arg1)
    (hdropped : ∀ d ∈ dropped, ∃ i, d.2 = some i)
    (honce : ∀ j : Nat, dropped.countP (·.2 = some j) + (if j = s.closures.length then
      if c.stage.owned then 1 else 0 else 0) = s.drops j + if j = s.closures.length then 1 else 0) :
    Inv { s with closures := s.closures ++ [c], heap, dropped } where
  closures := Table.forall_append h.closures
    { waiting := fun _ hd => hwaiting hd
      holding := fun _ _ hr => absurd hr hnew.1
      resolved := fun r hr => absurd hr (hnew.2 r)
      called := fun hr => absurd hr hnew.1 }
  boxed := hboxed
  held hj hst := by
    rcases Table.append_cases hj with ⟨rfl, rfl⟩ | hj
    · exact hheld _ hst
    · exact h.held hj hst
  pending e he := Table.exists_append (h.pending e he)
  lcore e he := Table.exists_append (h.lcore e he)
  once j := by
    obtain ⟨hq, hr, hd⟩ := h.fresh
    have hold := h.custody_eq_ite j
    have hj := honce j
    show ownersIn (s.closures ++ [_]) j + s.queued j + s.runs j + dropped.countP (·.2 = some j) =
      if j < (s.closures ++ [_]).length then 1 else 0
    rw [List.length_append, List.length_singleton]
    by_cases hlen : j = s.closures.length
    · subst hlen
      rw [if_pos rfl, if_pos rfl] at hj
      rw [ownersIn_eq List.getElem?_concat_length, if_pos (Nat.lt_succ_self _)]
      omega
    · have hlt : j < s.closures.length ↔ j < s.closures.length + 1 := by omega
      rw [if_neg hlen, if_neg hlen] at hj
      rw [ownersIn_append_of_ne hlen, ← if_congr hlt rfl rfl]
      omega
  ran := h.ran
  dropped := hdropped
  resolved p hp := Table.exists_append (h.resolved p hp)
  resolved_nodup := h.resolved_nodup

/-- `new`: the closure is held by the `SpdkEvent` that is returned, or dropped with the error. -/
theorem Inv.newEvent (h : Inv s) {lcore : Lcore} {rx : Receiver T} {ctx : Addr} {null : Bool}
    {r : Result SpdkEvent} (hrx : rx.Inside)
    (hs : s.newEvent lcore rx ctx null = some (r, s')) :
    Inv s' ∧ ∃ c, s'.closures = s.closures ++ [c] ∧ c.rx = rx ∧
      ((∃ e, r = .error e) ∧ c.stage = .dropped .new ∨
        ∃ event, r = .ok event ∧ c.stage = .held event) := by
  unfold State.newEvent at hs
  obtain ⟨heap, hheap, hs⟩ := Option.map_eq_some_iff.1 hs
  let event : SpdkEvent := ⟨⟨lcore, ctx, s.closures.length⟩, some ctx⟩
  let held : Closure O := ⟨lcore, .held event, rx, completion O⟩
  have hboxed : heap.Owned (s.closures ++ [held]) fun c => c.stage.box :=
    h.boxed.append_intoRaw hheap fun d hd => (Option.some.inj hd).symm
  split at hs
  · -- the box is freed again: nothing is in the table yet
    have hget : heap.get ctx = some s.closures.length := Boxes.get_intoRaw hheap
    have hdrop : State.dropBox { s with heap } .new ctx =
        { s with heap := (heap.fromRaw ctx).2,
                 dropped := s.dropped ++ [(.new, some s.closures.length)] } := by
      unfold State.dropBox
      rcases hfr : heap.fromRaw ctx with ⟨f, heap'⟩
      obtain rfl : f = some s.closures.length := by
        have : (heap.fromRaw ctx).1 = some s.closures.length := hget
        rwa [hfr] at this
      simp
    simp only [hdrop] at hs
    cases hs
    refine ⟨h.append hrx (fun hd => absurd rfl (hd .new)) ?_ (fun event he => by cases he) ?_ ?_,
      _, rfl, rfl, .inl ⟨⟨_, rfl⟩, rfl⟩⟩
    · have := hboxed.set_fromRaw (b := ⟨lcore, .dropped .new, rx, O.dropSender (completion O)⟩)
        List.getElem?_concat_length rfl rfl
      simpa using this
    · intro d hd
      rcases List.mem_append.1 hd with hd | hd
      · exact h.dropped d hd
      · obtain rfl := List.mem_singleton.1 hd
        exact ⟨_, rfl⟩
    · intro j
      simp [State.drops, List.countP_append, List.countP_singleton, Stage.owned, eq_comm]
  · cases hs
    refine ⟨h.append hrx (fun _ => O.waiting_channel) hboxed (fun event he => ?_) h.dropped
      (fun j => rfl), _, rfl, rfl, .inr ⟨_, rfl, rfl⟩⟩
    cases he
    exact ⟨rfl, rfl, rfl⟩

theorem call_closures (hs : s.call i = some s') :
    ∃ c event, s.closures[i]? = some c ∧ c.stage = .held event ∧
      s'.closures = s.closures.set i { c with stage := .dispatched event.ptr.arg1 } := by
  unfold State.call at hs
  obtain ⟨c, hc, hs⟩ := Option.bind_eq_some_iff.1 hs
  split at hs
  · rename_i event hst
    cases hs
    exact ⟨c, event, hc, hst, rfl⟩
  · cases hs

/-- `call_on`: the closure is dispatched, or dropped with the error. -/
theorem Inv.callOnWith (h : Inv s) {lcore : Lcore} {rx : Receiver T} {ctx : Addr} {null : Bool}
    {r : Result Unit} (hrx : rx.Inside)
    (hs : s.callOnWith lcore rx ctx null = some (r, s')) :
    Inv s' ∧ ∃ c, s'.closures = s.closures ++ [c] ∧ c.rx = rx ∧
      ((∃ e, r = .error e) ∧ c.stage = .dropped .new ∨
        r = .ok () ∧ ∃ ctx, c.stage = .dispatched ctx) := by
  unfold State.callOnWith at hs
  obtain ⟨⟨r', t⟩, hs', hs⟩ := Option.bind_eq_some_iff.1 hs
  obtain ⟨hinv, c, hcl, hcrx, ⟨⟨e, rfl⟩, hst⟩ | ⟨event, rfl, hst⟩⟩ := h.newEvent hrx hs'
  · cases hs
    exact ⟨hinv, c, hcl, hcrx, .inl ⟨⟨e, rfl⟩, hst⟩⟩
  · obtain ⟨t', hcall, heq⟩ := Option.map_eq_some_iff.1 hs
    cases heq
    obtain ⟨d, event', hd, -, hset⟩ := call_closures hcall
    rw [hcl, List.getElem?_concat_length] at hd
    obtain rfl := Option.some.inj hd
    refine ⟨hinv.call hcall, { c with stage := .dispatched event'.ptr.arg1 }, ?_, hcrx,
      .inr ⟨rfl, _, rfl⟩⟩
    rw [hset, hcl]
    simp

/-- The receiver of a new closure is returned, or dropped. -/
theorem Inv.setRx (h : Inv s) (hc : s.closures[i]? = some c) (hrx : c.rx = .inCall)
    {rx : Receiver T} (hres : ∀ r, rx ≠ .resolved r) (hheld : rx = .held → c.stage.called = true)
    (hfin : ∀ v, c.stage ≠ .finished v) : Inv (s.setRx i rx) := by
  have heq : s.setRx i rx = s.setClosure i { c with rx } := by
    unfold State.setRx
    rw [hc]
  rw [heq]
  refine h.setClosure hc rfl rfl (fun event he => h.held hc he) (fun _ hd => hd) rfl
    (fun r hr => by cases hrx.symm.trans hr) ?_
  exact
    { waiting := (h.closures hc).waiting
      holding := fun v hv => absurd hv (hfin v)
      resolved := fun r hr => absurd hr (hres r)
      called := hheld }

theorem Inv.callOnAsync (h : Inv s) {lcore : Lcore} {ctx : Addr} {null : Bool}
    (hs : s.callOnAsync lcore ctx null = some s') : Inv s' := by
  unfold State.callOnAsync at hs
  obtain ⟨⟨r, t⟩, hcall, rfl⟩ := Option.map_eq_some_iff.1 hs
  obtain ⟨hinv, c, hcl, hrx, ⟨⟨e, rfl⟩, hst⟩ | ⟨rfl, ctx', hst⟩⟩ :=
    h.callOnWith .inCall hcall
  · have hc : t.closures[s.closures.length]? = some c := by
      rw [hcl, List.getElem?_concat_length]
    exact hinv.setRx hc hrx (fun r hr => by cases hr) (fun hr => by cases hr)
      fun v hv => by cases hst.symm.trans hv
  · have hc : t.closures[s.closures.length]? = some c := by
      rw [hcl, List.getElem?_concat_length]
    exact hinv.setRx hc hrx (fun r hr => by cases hr) (fun _ => by rw [hst]; rfl)
      fun v hv => by cases hst.symm.trans hv

/-- The drop of an `SpdkEvent` finds its closure pointer. -/
theorem Inv.dropEvent_eq (h : Inv s) (hs : s.dropEvent i = some s') :
    ∃ c event, s.closures[i]? = some c ∧ c.stage = .held event ∧
      c.stage.box = some event.ptr.arg1 ∧ s' = s.dropBox .handle event.ptr.arg1 := by
  unfold State.dropEvent at hs
  obtain ⟨c, hc, hs⟩ := Option.bind_eq_some_iff.1 hs
  split at hs
  · rename_i event hst
    obtain ⟨-, -, hptr⟩ := h.held hc hst
    rw [hptr] at hs
    cases hs
    exact ⟨c, event, hc, hst, by rw [hst]; exact hptr, rfl⟩
  · cases hs

theorem Inv.dropEvent (h : Inv s) (hs : s.dropEvent i = some s') : Inv s' := by
  obtain ⟨c, event, hc, hst, hbox, rfl⟩ := h.dropEvent_eq hs
  exact h.dropBox hc (by rw [hst]; rfl) hbox

/-! ## Closures that run, and their receivers -/

theorem Inv.finish (h : Inv s) {value : T} (hs : s.finish i value = some s') : Inv s' := by
  unfold State.finish at hs
  obtain ⟨c, hc, hs⟩ := Option.bind_eq_some_iff.1 hs
  split at hs
  · rename_i hst
    have hok := h.closures hc
    have hw : O.Waiting c.chan := hok.waiting (fun v hv => by cases hst.symm.trans hv)
      fun site hd => by cases hst.symm.trans hd
    have hset : ∀ chan : O.Chan, (c.rx = .held → O.Holding chan (.ok value)) →
        Inv (s.setClosure i { c with stage := .finished value, chan }) := by
      intro chan hchan
      refine h.setClosure hc (by rw [hst]; rfl) (by rw [hst]; rfl) (fun event he => by cases he)
        (fun ctx hd => by cases hst.symm.trans hd) rfl (fun _ hr => hr) ?_
      exact
        { waiting := fun hn => absurd rfl (hn value)
          holding := fun v hv hr => by cases hv; exact hchan hr
          resolved := fun r hr => by
            obtain ⟨v, hv, -⟩ := hok.resolved r hr
            cases hst.symm.trans hv
          called := fun _ => rfl }
    split at hs
    · rename_i hrx
      cases hs
      exact hset c.chan fun hr => by cases hrx.symm.trans hr
    · cases hs
      exact hset _ fun _ => O.holding_send hw
  · cases hs

/-- A poll of a receiver that resolves gives the value its closure returned. -/
theorem poll_held {chan : O.Chan} {p : Poll (Result T)} (hok : c.Ok) (hrx : c.rx = .held)
    (hp : CompletionReceiver.poll O c.chan = (p, chan)) :
    (p = .pending ∧ (∀ v, c.stage ≠ .finished v) ∧ O.Waiting chan) ∨
      ∃ v, p = .ready (.ok v) ∧ c.stage = .finished v := by
  have hnd : ∀ site, c.stage ≠ .dropped site := fun site hd => by
    have := hok.called hrx
    rw [hd] at this
    cases this
  exact CompletionReceiver.poll_cases (fun v hv => hok.holding v hv hrx)
    (fun hn => hok.waiting hn hnd) hp

theorem Inv.poll (h : Inv s) (hs : s.poll i = some s') : Inv s' := by
  unfold State.poll at hs
  obtain ⟨c, hc, hs⟩ := Option.bind_eq_some_iff.1 hs
  have hok := h.closures hc
  split at hs
  · rename_i hrx
    have hnr : ∀ r, c.rx ≠ .resolved r := fun r hr => by cases hrx.symm.trans hr
    split at hs
    · rename_i result chan hp
      cases hs
      obtain ⟨hpend, -⟩ | ⟨v, hv, hst⟩ := poll_held hok hrx hp
      · cases hpend
      · cases hv
        have hset : Inv (s.setClosure i { c with rx := .resolved (.ok v), chan }) :=
          h.setClosure hc rfl rfl (fun event he => h.held hc he) (fun _ hd => hd) rfl
            (fun r hr => absurd hr (hnr r))
            { waiting := fun hn => absurd hst (hn v)
              holding := fun _ _ hr => by cases hr
              resolved := fun r hr => by cases hr; exact ⟨v, hst, rfl⟩
              called := fun hr => by cases hr }
        refine { hset with resolved := ?_, resolved_nodup := ?_ }
        · intro p hp
          rcases List.mem_append.1 hp with hp | hp
          · exact hset.resolved p hp
          · obtain rfl := List.mem_singleton.1 hp
            exact ⟨_, Table.set_self hc, rfl⟩
        · have hnew : i ∉ s.resolved.map (·.1) := Table.notMem_of_log h.resolved hc fun p => hnr p.2
          exact Table.nodup_map_append h.resolved_nodup hnew
    · rename_i chan hp
      cases hs
      obtain ⟨-, hn, hw⟩ | ⟨v, hv, -⟩ := poll_held hok hrx hp
      · exact h.setClosure hc rfl rfl (fun event he => h.held hc he) (fun _ hd => hd) rfl
          (fun _ hr => hr)
          { waiting := fun _ _ => hw
            holding := fun v hv => absurd hv (hn v)
            resolved := fun r hr => absurd hr (hnr r)
            called := hok.called }
      · cases hv
  · cases hs

theorem Inv.dropRx (h : Inv s) (hs : s.dropRx i = some s') : Inv s' := by
  unfold State.dropRx at hs
  obtain ⟨c, hc, hs⟩ := Option.bind_eq_some_iff.1 hs
  split at hs
  · rename_i hrx
    cases hs
    have hok := h.closures hc
    refine h.setClosure hc rfl rfl (fun event he => h.held hc he) (fun _ hd => hd) rfl
      (fun r hr => by cases hrx.symm.trans hr) ?_
    exact
      { waiting := hok.waiting
        holding := fun v _ hr => by cases hr
        resolved := fun r hr => by cases hr
        called := fun hr => by cases hr }
  · cases hs

/-! ## Runs -/

theorem Inv.step (h : Inv s) {a : Action T} (hs : s.step a = some s') : Inv s' := by
  cases a with
  | new lcore ctx null =>
    obtain ⟨⟨r, t⟩, hnew, rfl⟩ := Option.map_eq_some_iff.1 hs
    exact (h.newEvent .absent hnew).1
  | call i => exact h.call hs
  | callOn lcore ctx null =>
    obtain ⟨⟨r, t⟩, hcall, rfl⟩ := Option.map_eq_some_iff.1 hs
    exact (h.callOnWith .absent hcall).1
  | callOnAsync lcore ctx null => exact h.callOnAsync hs
  | dropEvent i => exact h.dropEvent hs
  | process k => exact h.process hs
  | finish i value => exact h.finish hs
  | poll i => exact h.poll hs
  | dropRx i => exact h.dropRx hs

/-- The invariant holds in every reachable state. -/
theorem inv_of_reach (h : (lts O).Reach s) : Inv s :=
  Lts.Reach.invariant Inv.init (fun hi hs => hi.step hs) h

end SpdkIo.Event
