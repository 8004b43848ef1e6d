import SpdkIo.Nvme.Connect

/-!
# The options that SPDK reads

`over`: SPDK's defaults with the user's values over them. The blocks that build the options leave
them in their variable (`get_ctrlrOptsBlock`, `get_qpairOptsBlock`), but the variable is gone when
SPDK is called with its address: SPDK reads no options exactly where the user gives some.
-/

namespace SpdkIo.Nvme

variable {R : Type}

/-- The defaults, overwritten in exactly the fields that the user set. -/
def NvmeCtrlrOpts.over (opts : NvmeCtrlrOpts) (defaults : SpdkNvmeCtrlrOpts R) :
    SpdkNvmeCtrlrOpts R where
  numIoQueues := opts.numIoQueues.getD defaults.numIoQueues
  ioQueueSize := opts.ioQueueSize.getD defaults.ioQueueSize
  adminQueueSize := opts.adminQueueSize.getD defaults.adminQueueSize
  keepAliveTimeoutMs := opts.keepAliveTimeoutMs.getD defaults.keepAliveTimeoutMs
  rest := defaults.rest

def NvmeQpairOpts.over (opts : NvmeQpairOpts) (defaults : SpdkNvmeIoQpairOpts R) :
    SpdkNvmeIoQpairOpts R where
  ioQueueSize := opts.ioQueueSize.getD defaults.ioQueueSize
  ioQueueRequests := opts.ioQueueRequests.getD defaults.ioQueueRequests
  rest := defaults.rest

/-- A call of SPDK with the address of a variable of a block that has ended. -/
theorem give_block {α : Type} {l : Locals α} {body : StateM (Locals α) Addr}
    (h : l.next ≤ (body l).1) :
    (give (some (body l).1) (Locals.block body l).2).1 = ⟨some (body l).1, none⟩ := by
  unfold give
  rw [Option.bind_some, Locals.get_block h]

variable [Inhabited R]

/-! ## Controllers -/

theorem ctrlrOptsBlock_fst {defaults : SpdkNvmeCtrlrOpts R} {opts : NvmeCtrlrOpts}
    {l : Locals (SpdkNvmeCtrlrOpts R)} : (ctrlrOptsBlock defaults opts l).1 = l.next := rfl

/-- The variable at the end of the block. -/
theorem get_ctrlrOptsBlock {defaults : SpdkNvmeCtrlrOpts R} {opts : NvmeCtrlrOpts}
    {l : Locals (SpdkNvmeCtrlrOpts R)} :
    (ctrlrOptsBlock defaults opts l).2.get l.next = some (opts.over defaults) := by
  simp only [ctrlrOptsBlock, Locals.bind_apply, Locals.pure_apply, Locals.declare_fst,
    Locals.get_modifySome, Locals.get_modify, Locals.get_declare, Option.map_some]
  obtain ⟨_ | _, _ | _, _ | _, _ | _⟩ := opts <;> rfl

/-- `opts_ptr` as SPDK is given it. -/
theorem given_ctrlrOptsPtr (defaults : SpdkNvmeCtrlrOpts R) (opts : Option NvmeCtrlrOpts)
    (l : Locals (SpdkNvmeCtrlrOpts R)) :
    (give (ctrlrOptsPtr defaults opts l).1 (ctrlrOptsPtr defaults opts l).2).1 =
      ⟨opts.map fun _ => l.next, none⟩ := by
  cases opts with
  | none => rfl
  | some opts => exact give_block (le_of_eq ctrlrOptsBlock_fst.symm)

/-- The frame that `connect_async` pushes. -/
theorem connectAsync_given {s s' : State R} {defaults : SpdkNvmeCtrlrOpts R}
    {opts : Option NvmeCtrlrOpts} (hs : s.connectAsync defaults opts = some s') :
    s'.stack.head?.map (·.given) = some ⟨opts.map fun _ => s.locals.next, none⟩ := by
  unfold State.connectAsync at hs
  split at hs
  · cases hs
    exact congrArg some (given_ctrlrOptsPtr defaults opts s.locals)
  · cases hs

/-! ## Queue pairs -/

theorem qpairOptsBlock_fst {defaults : SpdkNvmeIoQpairOpts R} {opts : NvmeQpairOpts}
    {l : Locals (SpdkNvmeIoQpairOpts R)} : (qpairOptsBlock defaults opts l).1 = l.next := rfl

theorem get_qpairOptsBlock {defaults : SpdkNvmeIoQpairOpts R} {opts : NvmeQpairOpts}
    {l : Locals (SpdkNvmeIoQpairOpts R)} :
    (qpairOptsBlock defaults opts l).2.get l.next = some (opts.over defaults) := by
  simp only [qpairOptsBlock, Locals.bind_apply, Locals.pure_apply, Locals.declare_fst,
    Locals.get_modifySome, Locals.get_modify, Locals.get_declare, Option.map_some]
  obtain ⟨_ | _, _ | _⟩ := opts <;> rfl

theorem given_allocIoQpair (defaults : SpdkNvmeIoQpairOpts R) (opts : Option NvmeQpairOpts)
    (qpair : Option QpairId) (l : Locals (SpdkNvmeIoQpairOpts R)) :
    (allocIoQpair defaults opts qpair l).1.1 = ⟨opts.map fun _ => l.next, none⟩ := by
  cases opts with
  | none => rfl
  | some opts =>
    exact give_block (le_of_eq qpairOptsBlock_fst.symm)

/-! ## What is read -/

omit [Inhabited R] in
/-- Nothing is what should be read exactly where the user gives no options. -/
theorem none_eq_map_iff {α β : Type} {f : α → β} {o : Option α} : none = o.map f ↔ o = none := by
  rw [eq_comm, Option.map_eq_none_iff]

/-- **SPDK reads the user's options over its defaults** exactly where there are none, so that the
pointer is null: the blocks of the three functions do build these options, but their variable is
gone when SPDK reads it. -/
theorem optsRead_iff :
    (∀ (defaults : SpdkNvmeCtrlrOpts R) opts l,
      (ctrlrOptsBlock defaults opts l).2.get (ctrlrOptsBlock defaults opts l).1 =
        some (opts.over defaults)) ∧
    (∀ (defaults : SpdkNvmeIoQpairOpts R) opts l,
      (qpairOptsBlock defaults opts l).2.get (qpairOptsBlock defaults opts l).1 =
        some (opts.over defaults)) ∧
    (∀ (defaults : SpdkNvmeCtrlrOpts R) opts ctrlr l,
      (connect defaults opts ctrlr l).1.1.opts = opts.map (·.over defaults) ↔ opts = none) ∧
    (∀ (defaults : SpdkNvmeCtrlrOpts R) opts (s s' : State R),
      s.connectAsync defaults opts = some s' →
      (s'.stack.head?.bind (·.given.opts) = opts.map (·.over defaults) ↔ opts = none)) ∧
    ∀ (defaults : SpdkNvmeIoQpairOpts R) opts qpair l,
      (allocIoQpair defaults opts qpair l).1.1.opts = opts.map (·.over defaults) ↔ opts = none := by
  refine ⟨fun defaults opts l => get_ctrlrOptsBlock, fun defaults opts l => get_qpairOptsBlock,
    fun defaults opts ctrlr l => ?_, fun defaults opts s s' hs => ?_,
    fun defaults opts qpair l => ?_⟩
  · have hgiven : (connect defaults opts ctrlr l).1.1 = ⟨opts.map fun _ => l.next, none⟩ :=
      given_ctrlrOptsPtr defaults opts l
    rw [hgiven]
    exact none_eq_map_iff
  · obtain ⟨f, hf, hgiven⟩ := Option.map_eq_some_iff.1 (connectAsync_given hs)
    rw [hf, Option.bind_some, hgiven]
    exact none_eq_map_iff
  · rw [given_allocIoQpair]
    exact none_eq_map_iff

/-- Four I/O queues. -/
theorem optsRead_four : ∃ s', (lts Unit).init.connectAsync .zeroed (some ⟨some 4, none, none, none⟩)
    = some s' ∧ s'.stack.head?.bind (·.given.opts) ≠ some ⟨4, 0, 0, 0, ()⟩ :=
  ⟨_, rfl, fun h => Option.some_ne_none _ <|
    (optsRead_iff.2.2.2.1 .zeroed (some ⟨some 4, none, none, none⟩) (lts Unit).init _ rfl).1 h⟩

theorem not_optsRead : ¬ ∀ (defaults : SpdkNvmeCtrlrOpts Unit) (opts : NvmeCtrlrOpts)
    (ctrlr : Option CtrlrId) (l : Locals (SpdkNvmeCtrlrOpts Unit)),
    (connect defaults (some opts) ctrlr l).1.1.opts = some (opts.over defaults) := by
  intro hall
  have hread := hall .zeroed ⟨some 4, none, none, none⟩ (some 0) .empty
  cases hread

end SpdkIo.Nvme
