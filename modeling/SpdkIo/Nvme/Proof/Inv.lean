import SpdkIo.Nvme.Connect

/-!
# The invariant of the connecting calls

`Nvme.Inv`: the slot holds the controller of the innermost call, if that call's probe attached one
and no other call began since; where another call did begin, the slot does not hold it again.
-/

namespace SpdkIo.Nvme

variable {R : Type} {s s' : State R}

/-! ## The invariant -/

/-- The controllers that were returned. -/
def State.owned (s : State R) : List CtrlrId := s.returned.filterMap (·.result.toOption)

theorem owned_ret {f : Frame R} {rest : List (Frame R)} {started : Bool} {last : Option Int32}
    {result : Result CtrlrId} :
    (s.ret f rest started last result).owned = s.owned ++ result.toOption.toList := by
  unfold State.owned State.ret
  rw [List.filterMap_append]
  cases result <;> rfl

theorem mem_of_stack {f : Frame R} {rest : List (Frame R)} (hst : s.stack = f :: rest) :
    f ∈ s.stack := by
  rw [hst]
  exact List.mem_cons_self

theorem mem_of_rest {f g : Frame R} {rest : List (Frame R)} (hst : s.stack = f :: rest)
    (hg : g ∈ rest) : g ∈ s.stack := by
  rw [hst]
  exact List.mem_cons_of_mem _ hg

structure Inv (s : State R) : Prop where
  top : ∀ {f rest c}, s.stack = f :: rest → f.attached = some c → f.nested = false →
    s.slot = some c
  below : ∀ {f rest g}, s.stack = f :: rest → g ∈ rest → g.attached.isSome = true →
    g.nested = true
  nested : ∀ {f}, f ∈ s.stack → f.nested = true → f.attached.isSome = true
  clobbered : ∀ {f c}, f ∈ s.stack → f.attached = some c → f.nested = true → s.slot ≠ some c
  attached : ∀ {f c}, f ∈ s.stack → f.attached = some c → c ∈ s.attached ∧ c ∉ s.owned
  slot : ∀ {c}, s.slot = some c → c ∈ s.attached ∧ c ∉ s.owned
  owned : ∀ {c}, c ∈ s.owned → c ∈ s.attached
  owned_nodup : s.owned.Nodup

/-- The innermost call returns at most the controller in the slot, which is empty then. -/
theorem Inv.ret (h : Inv s) {f : Frame R} {rest : List (Frame R)} (hst : s.stack = f :: rest)
    {slot : Option CtrlrId} (started : Bool) (last : Option Int32) {result : Result CtrlrId}
    (hslot : ∀ c, slot = some c → s.slot = some c ∧ result.toOption = none)
    (hresult : ∀ c, result.toOption = some c → s.slot = some c) :
    Inv ({ s with slot }.ret f rest started last result) := by
  have howned : ({ s with slot }.ret f rest started last result).owned =
      s.owned ++ result.toOption.toList := owned_ret
  -- another call began since the probe of an outer call attached its controller
  have hnested : ∀ {g c}, g ∈ rest → g.attached = some c → g.nested = true := fun hg hc =>
    h.below hst hg (by rw [hc]; rfl)
  exact
    { top := by
        intro g rest' c hrest hc hn
        obtain rfl : rest = g :: rest' := hrest
        rw [hnested List.mem_cons_self hc] at hn
        cases hn
      below := by
        intro g rest' g' hrest hg'
        obtain rfl : rest = g :: rest' := hrest
        exact h.below hst (List.mem_cons_of_mem _ hg')
      nested := fun hg => h.nested (mem_of_rest hst hg)
      clobbered := fun hg hc hn hs => h.clobbered (mem_of_rest hst hg) hc hn (hslot _ hs).1
      attached := by
        intro g c hg hc
        obtain ⟨ha, hn⟩ := h.attached (mem_of_rest hst hg) hc
        refine ⟨ha, fun hown => ?_⟩
        rw [howned, List.mem_append, Option.mem_toList] at hown
        rcases hown with hown | hr
        · exact hn hown
        · exact h.clobbered (mem_of_rest hst hg) hc (hnested hg hc) (hresult c hr)
      slot := by
        intro c hs
        obtain ⟨hs, hr⟩ := hslot c hs
        rw [howned, hr, Option.toList_none, List.append_nil]
        exact h.slot hs
      owned := by
        intro c hown
        rw [howned, List.mem_append, Option.mem_toList] at hown
        rcases hown with hown | hr
        · exact h.owned hown
        · exact (h.slot (hresult c hr)).1
      owned_nodup := by
        rw [howned]
        rcases hr : result.toOption with _ | c
        · rw [Option.toList_none, List.append_nil]
          exact h.owned_nodup
        · have hnew : c ∉ s.owned := (h.slot (hresult c hr)).2
          rw [Option.toList_some, List.nodup_append]
          refine ⟨h.owned_nodup, List.nodup_singleton c, fun a ha b hb => ?_⟩
          obtain rfl := List.mem_singleton.1 hb
          exact ne_of_mem_of_not_mem ha hnew }

theorem Inv.retError (h : Inv s) {f : Frame R} {rest : List (Frame R)} (hst : s.stack = f :: rest)
    (started : Bool) (last : Option Int32) (e : Error) :
    Inv (s.ret f rest started last (.error e)) :=
  h.ret hst started last (fun _ hs => ⟨hs, rfl⟩) fun _ hr => by cases hr

/-- The innermost call ends with what the slot holds. -/
theorem Inv.done (h : Inv s) {f : Frame R} {rest : List (Frame R)} (hst : s.stack = f :: rest) :
    Inv ({ s with slot := none }.ret f rest true (some 0) (State.taken s.slot)) := by
  refine h.ret hst true (some 0) (fun _ hs => by cases hs) fun c hr => ?_
  rcases hs : s.slot with _ | d
  · rw [hs] at hr
    cases hr
  · rw [hs] at hr
    exact hr

/-- A call begins in the work that the innermost call runs. -/
theorem Inv.connectAsync (h : Inv s) (locals : Locals (SpdkNvmeCtrlrOpts R))
    (given : Given (SpdkNvmeCtrlrOpts R)) :
    Inv { s with
      locals
      slot := none
      stack := ⟨s.calls, given, .connecting, none, false⟩ ::
        s.stack.map fun f => { f with nested := f.nested || f.attached.isSome }
      calls := s.calls + 1 } where
  top := by
    intro f rest c hst hc _
    obtain ⟨rfl, -⟩ := List.cons.inj hst
    cases hc
  below := by
    intro f rest g hst hg hatt
    obtain ⟨-, rfl⟩ := List.cons.inj hst
    obtain ⟨g, -, rfl⟩ := List.mem_map.1 hg
    simp only [hatt, Bool.or_true]
  nested := by
    intro f hf hn
    rcases List.mem_cons.1 hf with rfl | hf
    · cases hn
    · obtain ⟨g, hg, rfl⟩ := List.mem_map.1 hf
      rcases Bool.or_eq_true_iff.1 hn with hn | hn
      · exact h.nested (f := g) hg hn
      · exact hn
  clobbered _ _ _ hs := by cases hs
  attached := by
    intro f c hf hc
    rcases List.mem_cons.1 hf with rfl | hf
    · cases hc
    · obtain ⟨g, hg, rfl⟩ := List.mem_map.1 hf
      exact h.attached hg hc
  slot hs := by cases hs
  owned := h.owned
  owned_nodup := h.owned_nodup

/-- The innermost call's probe attaches a controller. -/
theorem Inv.attachCb (h : Inv s) {f : Frame R} {rest : List (Frame R)} {ctrlr : CtrlrId}
    (hst : s.stack = f :: rest) (hf : f.attached = none) (hnew : ctrlr ∉ s.attached) :
    Inv { s with
      slot := some ctrlr
      stack := { f with attached := some ctrlr } :: rest
      attached := s.attached ++ [ctrlr] } := by
  have hfn : f.nested = false := by
    rw [← Bool.not_eq_true]
    intro hn
    have := h.nested (mem_of_stack hst) hn
    rw [hf] at this
    cases this
  have hown : ctrlr ∉ s.owned := fun hc => hnew (h.owned hc)
  exact
    { top := by
        intro g rest' c hst' hc _
        obtain ⟨rfl, -⟩ := List.cons.inj hst'
        exact hc
      below := by
        intro g rest' g' hst' hg'
        obtain ⟨-, rfl⟩ := List.cons.inj hst'
        exact h.below hst hg'
      nested := by
        intro g hg hn
        rcases List.mem_cons.1 hg with rfl | hg
        · rfl
        · exact h.nested (mem_of_rest hst hg) hn
      clobbered := by
        intro g c hg hc hn hs
        rcases List.mem_cons.1 hg with rfl | hg
        · rw [show f.nested = true from hn] at hfn
          cases hfn
        · obtain rfl : ctrlr = c := Option.some.inj hs
          exact hnew (h.attached (mem_of_rest hst hg) hc).1
      attached := by
        intro g c hg hc
        rcases List.mem_cons.1 hg with rfl | hg
        · obtain rfl : ctrlr = c := Option.some.inj hc
          exact ⟨List.mem_concat_self, hown⟩
        · obtain ⟨ha, ho⟩ := h.attached (mem_of_rest hst hg) hc
          exact ⟨List.mem_append_left _ ha, ho⟩
      slot := by
        intro c hs
        obtain rfl : ctrlr = c := Option.some.inj hs
        exact ⟨List.mem_concat_self, hown⟩
      owned := fun hc => List.mem_append_left _ (h.owned hc)
      owned_nodup := h.owned_nodup }

/-- The innermost call goes on to what it waits for next. -/
theorem Inv.phase (h : Inv s) {f : Frame R} {rest : List (Frame R)} (hst : s.stack = f :: rest)
    (phase : Phase) : Inv { s with stack := { f with phase } :: rest } := by
  -- a frame of the new stack has the attachment of one of the old stack
  have hmem : ∀ {g}, g ∈ { f with phase } :: rest →
      ∃ g' ∈ s.stack, g'.attached = g.attached ∧ g'.nested = g.nested := by
    intro g hg
    rw [hst]
    rcases List.mem_cons.1 hg with rfl | hg
    · exact ⟨f, List.mem_cons_self, rfl, rfl⟩
    · exact ⟨g, List.mem_cons_of_mem _ hg, rfl, rfl⟩
  exact
    { top := by
        intro g rest' c hst' hc hn
        obtain ⟨rfl, -⟩ := List.cons.inj hst'
        exact h.top hst hc hn
      below := by
        intro g rest' g' hst' hg'
        obtain ⟨-, rfl⟩ := List.cons.inj hst'
        exact h.below hst hg'
      nested := by
        intro g hg hn
        obtain ⟨g', hg', hatt, hnest⟩ := hmem hg
        rw [← hatt]
        exact h.nested hg' (hnest.trans hn)
      clobbered := by
        intro g c hg hc hn
        obtain ⟨g', hg', hatt, hnest⟩ := hmem hg
        exact h.clobbered hg' (hatt.trans hc) (hnest.trans hn)
      attached := by
        intro g c hg hc
        obtain ⟨g', hg', hatt, -⟩ := hmem hg
        exact h.attached hg' (hatt.trans hc)
      slot := h.slot
      owned := h.owned
      owned_nodup := h.owned_nodup }

/-! ## The steps -/

variable [Inhabited R]

/-- The effects of the steps. -/
inductive Stepped (s : State R) : Action R → State R → Prop
  | connectAsync {defaults : SpdkNvmeCtrlrOpts R} {opts : Option NvmeCtrlrOpts}
      {locals : Locals (SpdkNvmeCtrlrOpts R)} {given : Given (SpdkNvmeCtrlrOpts R)} :
      Stepped s (.connectAsync defaults opts) { s with
        locals
        slot := none
        stack := ⟨s.calls, given, .connecting, none, false⟩ ::
          s.stack.map fun f => { f with nested := f.nested || f.attached.isSome }
        calls := s.calls + 1 }
  | attachCb {f : Frame R} {rest : List (Frame R)} {ctrlr : CtrlrId} : s.stack = f :: rest →
      f.attached = none → ctrlr ∉ s.attached →
      Stepped s (.attachCb ctrlr) { s with
        slot := some ctrlr
        stack := { f with attached := some ctrlr } :: rest
        attached := s.attached ++ [ctrlr] }
  | null {f : Frame R} {rest : List (Frame R)} {thread : Bool} : s.stack = f :: rest →
      f.attached = none →
      Stepped s (.connectRet true thread) (s.ret f rest false none (.error .controllerNotFound))
  | noThread {f : Frame R} {rest : List (Frame R)} : s.stack = f :: rest →
      Stepped s (.connectRet false false) (s.ret f rest true none (.error (.os 22)))
  | phase {f : Frame R} {rest : List (Frame R)} {phase : Phase} {a : Action R} :
      s.stack = f :: rest →
      a = .connectRet false true ∨ a = .pollRet (-eagain) ∨ a = .threadPollRet →
      Stepped s a { s with stack := { f with phase } :: rest }
  | done {f : Frame R} {rest : List (Frame R)} : s.stack = f :: rest →
      Stepped s (.pollRet 0) ({ s with slot := none }.ret f rest true (some 0) (State.taken s.slot))
  | failed {f : Frame R} {rest : List (Frame R)} {rc : Int32} : s.stack = f :: rest →
      rc ≠ 0 → rc ≠ -eagain →
      Stepped s (.pollRet rc) (s.ret f rest true (some rc) (.error (.fromErrno (-rc))))

theorem stepped {a : Action R} (hs : s.step a = some s') : Stepped s a s' := by
  cases a with
  | connectAsync defaults opts =>
    simp only [State.step, State.connectAsync] at hs
    split at hs
    · cases hs
      exact .connectAsync
    · cases hs
  | attachCb ctrlr =>
    simp only [State.step, State.attachCb] at hs
    split at hs
    · rename_i f rest hst
      split at hs
      · rename_i hg
        cases hs
        exact .attachCb hst hg.2.1 hg.2.2
      · cases hs
    · cases hs
  | connectRet null thread =>
    simp only [State.step, State.connectRet] at hs
    split at hs
    · rename_i f rest hst
      split at hs
      · cases null <;> cases thread <;> simp only [if_true, Bool.false_eq_true, if_false] at hs
        · cases hs
          exact .noThread hst
        · cases hs
          exact .phase hst (.inl rfl)
        all_goals
          split at hs
          · cases hs
            exact .null hst ‹_›
          · cases hs
      · cases hs
    · cases hs
  | pollRet rc =>
    simp only [State.step, State.pollRet] at hs
    split at hs
    · rename_i f rest hst
      split at hs
      · by_cases h0 : rc = 0
        · subst h0
          cases hs
          exact .done hst
        · rw [if_neg h0] at hs
          by_cases ha : rc = -eagain
          · subst ha
            cases hs
            exact .phase hst (.inr (.inl rfl))
          · rw [if_neg ha] at hs
            cases hs
            exact .failed hst h0 ha
      · cases hs
    · cases hs
  | threadPollRet =>
    simp only [State.step, State.threadPollRet] at hs
    split at hs
    · rename_i f rest hst
      split at hs
      · cases hs
        exact .phase hst (.inr (.inr rfl))
      · cases hs
    · cases hs

theorem Inv.init : Inv (lts R).init where
  top h := by cases h
  below h := by cases h
  nested h := by cases h
  clobbered h := by cases h
  attached h := by cases h
  slot h := by cases h
  owned h := by cases h
  owned_nodup := .nil

theorem Inv.step (h : Inv s) {a : Action R} (hs : s.step a = some s') : Inv s' := by
  cases stepped hs with
  | connectAsync => exact h.connectAsync _ _
  | attachCb hst hf hnew => exact h.attachCb hst hf hnew
  | null hst _ => exact h.retError hst _ _ _
  | noThread hst => exact h.retError hst _ _ _
  | phase hst _ => exact h.phase hst _
  | done hst => exact h.done hst
  | failed hst _ _ => exact h.retError hst _ _ _

theorem Inv.reach {s : State R} (hs : (lts R).Reach s) : Inv s :=
  Lts.Reach.invariant (I := Inv) .init (fun hi hs => hi.step hs) hs

end SpdkIo.Nvme
