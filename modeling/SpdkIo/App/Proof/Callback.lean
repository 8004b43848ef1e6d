import SpdkIo.App.Model
import SpdkIo.Lib.Owners

/-!
# The closure of an application

`run_closures`: the callback of a `run` finds the closure of this `run` in its box, whatever other
calls do meanwhile, and runs it at most once; the boxes that are left are those of the calls whose
callback SPDK has not called, for good where `spdk_app_start` returned without it; and `run_async`
stops the application exactly once, when its future has resolved.
-/

namespace SpdkIo.App

variable {s s' : State} {i : CallId} {c c' : Call}

/-- The argument of the callback. -/
def Call.ctx (c : Call) : Option Addr :=
  match c.stage with
  | .starting ctx => some ctx
  | .failed _ | .running _ | .called | .returned _ _ => none

/-- The call returned before SPDK. -/
def Call.hasFailed (c : Call) : Bool :=
  match c.stage with
  | .failed _ => true
  | .starting _ | .running _ | .called | .returned _ _ => false

/-- The callback was called. -/
def Call.wasCalled (c : Call) : Bool :=
  match c.stage with
  | .running _ | .called => true
  | .returned called _ => called
  | .failed _ | .starting _ => false

/-- The closure was boxed, and is to be called or never was. -/
def Call.boxed (c : Call) : Bool :=
  match c.stage with
  | .starting _ => true
  | .returned called _ => !called
  | .failed _ | .running _ | .called => false

/-- The closure of `run_async` has returned. -/
def Call.stopped (c : Call) : Bool :=
  match c.stage with
  | .called => c.async
  | .returned called _ => c.async && called
  | .failed _ | .starting _ | .running _ => false

/-! ## Logs of calls -/

/-- The log has the calls with `p`, each once. -/
structure Logs (log : List CallId) (calls : List Call) (p : Call → Bool) : Prop where
  mem : ∀ i, i ∈ log ↔ calls[i]?.any p = true
  nodup : log.Nodup

section
variable {log : List CallId} {calls : List Call} {p : Call → Bool}

theorem Logs.count (h : Logs log calls p) (hc : calls[i]? = some c) :
    log.count i = if p c then 1 else 0 := by
  rw [h.nodup.count]
  simp [h.mem i, hc]

/-- A call that has not `p` is added. -/
theorem Logs.append (h : Logs log calls p) (hc : p c = false) : Logs log (calls ++ [c]) p := by
  refine ⟨fun i => ?_, h.nodup⟩
  rw [h.mem i]
  rcases Nat.lt_trichotomy i calls.length with hi | rfl | hi
  · rw [List.getElem?_append_left hi]
  · simp [hc]
  · have hlen : (calls ++ [c]).length ≤ i := by
      simp only [List.length_append, List.length_singleton]
      omega
    rw [List.getElem?_eq_none (Nat.le_of_lt hi), List.getElem?_eq_none hlen]

/-- A call is replaced by one that has `p` if it had. -/
theorem Logs.set (h : Logs log calls p) (hc : calls[i]? = some c) (hp : p c' = p c) :
    Logs log (calls.set i c') p := by
  refine ⟨fun j => ?_, h.nodup⟩
  rw [h.mem j]
  by_cases hij : i = j
  · subst hij
    rw [Table.set_self hc, hc, Option.any_some, Option.any_some, hp]
  · rw [List.getElem?_set_ne hij]

/-- A call that had not `p` gets it, and is logged. -/
theorem Logs.logged (h : Logs log calls p) (hc : calls[i]? = some c) (hold : p c = false)
    (hnew : p c' = true) : Logs (log ++ [i]) (calls.set i c') p := by
  have hmem : i ∉ log := by
    rw [h.mem i, hc, Option.any_some, hold]
    decide
  refine ⟨fun j => ?_, List.nodup_append.2 ⟨h.nodup, List.nodup_singleton i, ?_⟩⟩
  · rw [List.mem_append, h.mem j, List.mem_singleton]
    by_cases hij : i = j
    · subst hij
      simp [Table.set_self hc, hnew]
    · simp [List.getElem?_set_ne hij, Ne.symm hij]
  · rintro j hj _ hi rfl
    obtain rfl := List.mem_singleton.1 hi
    exact hmem hj

end

/-! ## The invariant -/

structure Inv (s : State) : Prop where
  owned : s.heap.Owned s.calls Call.ctx
  failed : ∀ (i : CallId) (c : Call), s.calls[i]? = some c →
    (c.hasFailed = true ↔ ¬ c.builder.NulFree)
  /-- the callback found the closure of its own call -/
  running : ∀ (i : CallId) (c : Call) (closure : Option CallId), s.calls[i]? = some c →
    c.stage = .running closure → closure = some i
  own : ∀ p ∈ s.ran, p.2 = some p.1
  ran : Logs (s.ran.map (·.1)) s.calls Call.wasCalled
  live : s.heap.live = s.calls.countP Call.boxed
  zero : ∀ p ∈ s.stops, p.1 ≠ none → p.2 = 0
  stops : Logs (s.stops.filterMap (·.1)) s.calls Call.stopped

theorem Inv.init : Inv lts.init where
  owned := .nil
  failed _ _ h := by cases h
  running _ _ _ h := by cases h
  own _ h := by cases h
  ran := ⟨fun _ => by simp [lts], .nil⟩
  live := rfl
  zero _ h := by cases h
  stops := ⟨fun _ => by simp [lts], .nil⟩

/-- What a new call must be, where its closure is not in the callback. -/
theorem Inv.append (h : Inv s) {heap : Boxes CallId}
    (howned : heap.Owned (s.calls ++ [c]) Call.ctx)
    (hlive : heap.live = s.heap.live + if c.boxed then 1 else 0)
    (hfailed : c.hasFailed = true ↔ ¬ c.builder.NulFree)
    (hrun : ∀ closure, c.stage ≠ .running closure) (hcalled : c.wasCalled = false)
    (hstopped : c.stopped = false) : Inv { s with calls := s.calls ++ [c], heap } where
  owned := howned
  failed j d hd := by
    rcases Table.append_cases hd with ⟨-, rfl⟩ | hd
    · exact hfailed
    · exact h.failed j d hd
  running j d closure hd hst := by
    rcases Table.append_cases hd with ⟨-, rfl⟩ | hd
    · exact absurd hst (hrun closure)
    · exact h.running j d closure hd hst
  own := h.own
  ran := h.ran.append hcalled
  live := by
    show heap.live = (s.calls ++ [c]).countP Call.boxed
    rw [hlive, h.live, List.countP_append, List.countP_singleton]
  zero := h.zero
  stops := h.stops.append hstopped

theorem Inv.run (h : Inv s) {b : SpdkAppBuilder} {defaults : AppOpts} {async : Bool} {ctx : Addr}
    (hs : s.run b defaults async ctx = some s') : Inv s' := by
  unfold State.run at hs
  split at hs
  · rename_i e he
    obtain rfl := Option.some.inj hs
    have hnul : ¬ b.NulFree := by
      intro hnul
      obtain ⟨opts, hopts⟩ := SpdkAppBuilder.opts_of_nulFree hnul defaults
      cases he.symm.trans hopts
    exact h.append (h.owned.append rfl) rfl ⟨fun _ => hnul, fun _ => rfl⟩ nofun rfl rfl
  · rename_i opts hopts
    obtain ⟨heap, hheap, rfl⟩ := Option.map_eq_some_iff.1 hs
    have hnul : b.NulFree := by
      by_contra hnul
      obtain ⟨e, he⟩ := SpdkAppBuilder.opts_of_not hnul defaults
      cases he.symm.trans hopts
    exact h.append (h.owned.append_intoRaw hheap fun d hd => (Option.some.inj hd).symm)
      (Boxes.live_intoRaw hheap) ⟨nofun, fun hn => absurd hnul hn⟩ nofun rfl rfl

theorem Inv.startCallback (h : Inv s) (hs : s.startCallback i = some s') : Inv s' := by
  obtain ⟨c, hc, hs⟩ := Option.bind_eq_some_iff.1 hs
  split at hs
  · rename_i ctx hst
    obtain rfl := Option.some.inj hs
    have hctx : c.ctx = some ctx := by rw [Call.ctx, hst]
    have hget : (s.heap.fromRaw ctx).1 = some i := h.owned.get hc hctx
    have hfailed : c.hasFailed = false := by rw [Call.hasFailed, hst]
    have hold : c.wasCalled = false := by rw [Call.wasCalled, hst]
    have hstopped : c.stopped = false := by rw [Call.stopped, hst]
    have hboxed : c.boxed = true := by rw [Call.boxed, hst]
    refine ⟨h.owned.set_fromRaw hc hctx rfl, fun j d hd => ?_, fun j d closure hd hrun => ?_,
      fun p hp => ?_, ?_, ?_, h.zero, h.stops.set hc hstopped.symm⟩
    · rcases Table.set_cases hd with ⟨-, rfl⟩ | ⟨-, hd⟩
      · rw [← h.failed i c hc, hfailed]
        rfl
      · exact h.failed j d hd
    · rcases Table.set_cases hd with ⟨rfl, rfl⟩ | ⟨-, hd⟩
      · rw [← hget]
        exact (Stage.running.inj hrun).symm
      · exact h.running j d closure hd hrun
    · rcases List.mem_append.1 hp with hp | hp
      · exact h.own p hp
      · obtain rfl := List.mem_singleton.1 hp
        exact hget
    · rw [List.map_append]
      exact h.ran.logged hc hold rfl
    · have hlive := Boxes.live_fromRaw hget
      have hcount := Table.countP_set (b := { c with stage := .running (s.heap.get ctx) })
        Call.boxed hc
      have hnew : Call.boxed { c with stage := .running (s.heap.get ctx) } = false := rfl
      rw [if_pos hboxed, hnew, if_neg Bool.false_ne_true] at hcount
      show (s.heap.fromRaw ctx).2.live =
        (s.calls.set i { c with stage := .running (s.heap.get ctx) }).countP Call.boxed
      have := h.live
      omega
  · cases hs

/-- A call that keeps its box, or has none. -/
theorem Inv.setCall (h : Inv s) (hc : s.calls[i]? = some c) (stage : Stage)
    (stops : List (Option CallId × Int32)) (hctx : Call.ctx { c with stage } = none)
    (hfailed : Call.hasFailed { c with stage } = c.hasFailed)
    (hrun : ∀ closure, stage ≠ .running closure)
    (hcalled : Call.wasCalled { c with stage } = c.wasCalled)
    (hboxed : Call.boxed { c with stage } = c.boxed)
    (hzero : ∀ p ∈ stops, p.1 ≠ none → p.2 = 0)
    (hstops : Logs (stops.filterMap (·.1)) (s.calls.set i { c with stage }) Call.stopped) :
    Inv { s with calls := s.calls.set i { c with stage }, stops } where
  owned j d ctx hd hdctx := by
    rcases Table.set_cases hd with ⟨-, rfl⟩ | ⟨-, hd⟩
    · rw [hctx] at hdctx
      cases hdctx
    · exact h.owned.get hd hdctx
  failed j d hd := by
    rcases Table.set_cases hd with ⟨-, rfl⟩ | ⟨-, hd⟩
    · rw [hfailed]
      exact h.failed i c hc
    · exact h.failed j d hd
  running j d closure hd hst := by
    rcases Table.set_cases hd with ⟨-, rfl⟩ | ⟨-, hd⟩
    · exact absurd hst (hrun closure)
    · exact h.running j d closure hd hst
  own := h.own
  ran := h.ran.set hc hcalled
  live := by
    have hcount := Table.countP_set (b := { c with stage }) Call.boxed hc
    rw [hboxed] at hcount
    have hlive := h.live
    show s.heap.live = (s.calls.set i { c with stage }).countP Call.boxed
    omega
  zero := hzero
  stops := hstops

theorem Inv.stopWithCode (h : Inv s) (rc : Int32) : Inv (s.stopWithCode none rc) where
  owned := h.owned
  failed := h.failed
  running := h.running
  own := h.own
  ran := h.ran
  live := h.live
  zero p hp hn := by
    rcases List.mem_append.1 hp with hp | hp
    · exact h.zero p hp hn
    · obtain rfl := List.mem_singleton.1 hp
      exact absurd rfl hn
  stops := by
    show Logs ((s.stops ++ [((none : Option CallId), rc)]).filterMap (·.1)) s.calls Call.stopped
    simpa [List.filterMap_append] using h.stops

theorem Inv.closureRet (h : Inv s) (hs : s.closureRet i = some s') : Inv s' := by
  obtain ⟨c, hc, hs⟩ := Option.bind_eq_some_iff.1 hs
  split at hs
  · rename_i closure hst
    -- the closure that returns is the one of this call
    obtain rfl := h.running i c closure hc hst
    have hfailed : Call.hasFailed { c with stage := .called } = c.hasFailed := by
      rw [Call.hasFailed, Call.hasFailed, hst]
    have hcalled : Call.wasCalled { c with stage := .called } = c.wasCalled := by
      rw [Call.wasCalled, Call.wasCalled, hst]
    have hboxed : Call.boxed { c with stage := .called } = c.boxed := by
      rw [Call.boxed, Call.boxed, hst]
    have hold : c.stopped = false := by rw [Call.stopped, hst]
    simp only [hc, Option.any_some] at hs
    split at hs
    · rename_i hasync
      obtain rfl := Option.some.inj hs
      refine h.setCall hc .called (s.stops ++ [(some i, 0)]) rfl hfailed nofun hcalled hboxed
        (fun p hp hn => ?_) ?_
      · rcases List.mem_append.1 hp with hp | hp
        · exact h.zero p hp hn
        · obtain rfl := List.mem_singleton.1 hp
          rfl
      · rw [List.filterMap_append]
        exact h.stops.logged hc hold hasync
    · rename_i hasync
      obtain rfl := Option.some.inj hs
      have hstopped : Call.stopped { c with stage := .called } = c.stopped := by
        rw [hold]
        exact Bool.eq_false_iff.2 hasync
      exact h.setCall hc .called s.stops rfl hfailed nofun hcalled hboxed h.zero
        (h.stops.set hc hstopped)
  · cases hs

theorem Inv.startRet (h : Inv s) {rc : Int32} (hs : s.startRet i rc = some s') : Inv s' := by
  obtain ⟨c, hc, hs⟩ := Option.bind_eq_some_iff.1 hs
  split at hs
  · rename_i ctx hst
    obtain rfl := Option.some.inj hs
    refine h.setCall hc (.returned false rc) s.stops rfl ?_ nofun ?_ ?_ h.zero (h.stops.set hc ?_)
    · rw [Call.hasFailed, Call.hasFailed, hst]
    · rw [Call.wasCalled, Call.wasCalled, hst]
    · rw [Call.boxed, Call.boxed, hst]
      rfl
    · rw [Call.stopped, Call.stopped, hst]
      exact Bool.and_false _
  · rename_i hst
    obtain rfl := Option.some.inj hs
    refine h.setCall hc (.returned true rc) s.stops rfl ?_ nofun ?_ ?_ h.zero (h.stops.set hc ?_)
    · rw [Call.hasFailed, Call.hasFailed, hst]
    · rw [Call.wasCalled, Call.wasCalled, hst]
    · rw [Call.boxed, Call.boxed, hst]
      rfl
    · rw [Call.stopped, Call.stopped, hst]
      exact Bool.and_true _
  · cases hs

theorem Inv.step (h : Inv s) {a : Action} (hs : s.step a = some s') : Inv s' := by
  cases a with
  | run b defaults async ctx => exact h.run hs
  | startCallback i => exact h.startCallback hs
  | closureRet i => exact h.closureRet hs
  | startRet i rc => exact h.startRet hs
  | stopWithCode rc =>
    obtain rfl := Option.some.inj hs
    exact h.stopWithCode rc

theorem inv_of_reach (h : lts.Reach s) : Inv s := h.invariant .init fun hi hs => hi.step hs

/-! ## The closures -/

/-- **A closure is in its box, or was called once, by the callback of its own `run`.** A `run`
returns before SPDK exactly if a text of its builder has a NUL byte, and then boxes nothing. The
boxes that are there are those of the callbacks that SPDK has not called: one for each
`spdk_app_start` that returned without it stays. `run_async` stops the application once, with 0,
when its closure returns. -/
theorem run_closures (h : lts.Reach s) :
    (∀ p ∈ s.ran, p.2 = some p.1) ∧
    (∀ i c, s.calls[i]? = some c →
      (c.hasFailed = true ↔ ¬ c.builder.NulFree) ∧
      (s.ran.map (·.1)).count i = (if c.wasCalled then 1 else 0) ∧
      (s.stops.filterMap (·.1)).count i = (if c.stopped then 1 else 0) ∧
      ∀ ctx, c.stage = .starting ctx → s.heap.get ctx = some i) ∧
    s.heap.live = s.calls.countP Call.boxed ∧
    ∀ p ∈ s.stops, p.1 ≠ none → p.2 = 0 := by
  have hinv := inv_of_reach h
  refine ⟨hinv.own, fun i c hc => ⟨hinv.failed i c hc, hinv.ran.count hc, hinv.stops.count hc,
    fun ctx hst => ?_⟩, hinv.live, hinv.zero⟩
  exact hinv.owned.get hc (by rw [Call.ctx, hst])

/-- A `run` whose callback SPDK has not called, a `run_async` inside the closure of another `run`,
with its box where the box of that closure was, and a name with a NUL byte. -/
theorem run_closures_nested : ∃ s, lts.Reach s ∧ s.calls.map Call.hasFailed =
    [false, false, false, true] ∧ s.heap.live = 1 ∧ s.heap.get 4 = some 0 ∧
      (s.ran.map (·.1)).count 2 = 1 ∧ (s.stops.filterMap (·.1)).count 2 = 1 := by
  let opts : AppOpts := ⟨none, none, none, false, none, none, 0, 0, -1, false, false, .notice⟩
  obtain ⟨s, hs, hp⟩ := Lts.exists_of_run (M := lts)
    [.run .new opts false 4, .run .new opts false 7, .startCallback 1, .run .new opts true 7,
     .run { SpdkAppBuilder.new with name := some [0] } opts true 7, .startCallback 2,
     .stopWithCode 3, .closureRet 2, .startRet 2 0, .closureRet 1, .startRet 1 1]
    (fun s => decide (s.calls.map Call.hasFailed = [false, false, false, true] ∧
      s.calls.countP Call.boxed = 1 ∧ s.calls[0]?.map Call.stage = some (.starting 4) ∧
      s.calls[2]?.map (fun c => (c.wasCalled, c.stopped)) = some (true, true))) (by decide)
  obtain ⟨hfailed, hboxed, h0, h2⟩ := of_decide_eq_true hp
  obtain ⟨c, hc, hst⟩ := Option.map_eq_some_iff.1 h0
  obtain ⟨d, hd, hd2⟩ := Option.map_eq_some_iff.1 h2
  obtain ⟨hcalled, hstopped⟩ := Prod.mk.inj hd2
  obtain ⟨-, hcalls, hlive, -⟩ := run_closures hs
  obtain ⟨-, hran, hstops, -⟩ := hcalls 2 d hd
  rw [hcalled] at hran
  rw [hstopped] at hstops
  exact ⟨s, hs, hfailed, hlive.trans hboxed, (hcalls 0 c hc).2.2.2 4 hst, hran, hstops⟩

end SpdkIo.App
