import SpdkIo.Lib.Table
import SpdkIo.Nvmf.Subsystem

/-!
# What an error of `create_subsystem` leaves

The subsystem is created before its serial and model number are checked, and an error of a check
returns without destroying it (`createSubsystem_new`): `keepsOnError_iff` is the condition under
which an error leaves the target as it was. What is left takes the name (`retry_refused`).
-/

namespace SpdkIo.Nvmf

open Thread.State (cstringNew)

variable {spdk : SpdkSubsystems}

/-- The result of a function, and the target after it. -/
def NvmfM.run {α : Type} (x : NvmfM spdk α) (tgt : spdk.Tgt) : Result α × spdk.Tgt :=
  StateT.run (ExceptT.run x) tgt

/-- A subsystem is created under the name. -/
def Creates (spdk : SpdkSubsystems) (tgt : spdk.Tgt) (nqn : List Char) : Prop :=
  '\x00' ∉ nqn ∧ (spdk.create tgt (Utf8.encode nqn)).1.isSome = true

/-- An error leaves the subsystems of the target as they were. -/
def KeepsOnError (spdk : SpdkSubsystems) (tgt : spdk.Tgt) (nqn : List Char)
    (opts : NvmfSubsystemOpts) : Prop :=
  ∀ e tgt', (NvmfTarget.createSubsystem nqn opts).run tgt = (.error e, tgt') →
    spdk.get tgt' = spdk.get tgt

/-- SPDK creates no second subsystem of a name. -/
def UniqueNames (spdk : SpdkSubsystems) : Prop :=
  ∀ tgt ptr sub, spdk.get tgt ptr = some sub → (spdk.create tgt sub.nqn).1 = none

/-! ## Runs -/

variable {tgt tgt' : spdk.Tgt}

namespace NvmfM
variable {α β : Type}

theorem run_bind_ok {x : NvmfM spdk α} {a : α} (h : x.run tgt = (.ok a, tgt'))
    (f : α → NvmfM spdk β) : NvmfM.run (x >>= f) tgt = (f a).run tgt' := by
  change (match x.run tgt with | (r, s) => ExceptT.bindCont f r s) = _
  rw [h]
  rfl

theorem run_bind_error {x : NvmfM spdk α} {e : Error} (h : x.run tgt = (.error e, tgt'))
    (f : α → NvmfM spdk β) : NvmfM.run (x >>= f) tgt = (.error e, tgt') := by
  change (match x.run tgt with | (r, s) => ExceptT.bindCont f r s) = _
  rw [h]
  rfl

theorem run_cstring_ok {text : List Char} (h : '\x00' ∉ text) :
    NvmfM.run (MonadExcept.ofExcept (cstringNew (Utf8.encode text))) tgt =
      (.ok (Utf8.encode text), tgt) := by
  rw [cstringNew_of_notMem fun h0 => h (Utf8.zero_mem_encode.1 h0)]
  rfl

theorem run_cstring_error {text : List Char} (h : '\x00' ∈ text) :
    ∃ e, NvmfM.run (MonadExcept.ofExcept (cstringNew (Utf8.encode text))) tgt =
      (.error e, tgt) := by
  obtain ⟨e, he⟩ := cstringNew_of_mem (Utf8.zero_mem_encode.2 h)
  exact ⟨e, by rw [he]; rfl⟩

end NvmfM

/-! ## Setters -/

section
variable {store : List UInt8 → SpdkNvmfSubsystem → SpdkNvmfSubsystem}

/-- **A setter** changes the subsystem exactly if the text can be set, and else is an error. -/
theorem setText_run (setter : TextSetter spdk.Tgt spdk.get store) (message : String)
    (self : NvmfSubsystem) (text : List Char) (tgt : spdk.Tgt) :
    ∃ r tgt', (self.setText setter message text).run tgt = (r, tgt') ∧
      (r = .ok () ↔ Takes setter.rc text) ∧
      spdk.get tgt' = if Takes setter.rc text then
        Named.change (spdk.get tgt) self.ptr (store (Utf8.encode text)) else spdk.get tgt := by
  unfold NvmfSubsystem.setText
  by_cases hnul : '\x00' ∈ text
  · obtain ⟨e, he⟩ := @NvmfM.run_cstring_error spdk tgt text hnul
    have hno : ¬ Takes setter.rc text := fun h => h.1 hnul
    exact ⟨.error e, tgt, NvmfM.run_bind_error he _, by simp [hno], by rw [if_neg hno]⟩
  · have hcall : NvmfM.run (modifyGet fun tgt => setter.call tgt self.ptr (Utf8.encode text)) tgt =
        (.ok (setter.rc (Utf8.encode text)),
          (setter.call tgt self.ptr (Utf8.encode text)).2) := by
      rw [← setter.rc_call]
      rfl
    rw [NvmfM.run_bind_ok (NvmfM.run_cstring_ok hnul), NvmfM.run_bind_ok hcall]
    by_cases hrc : setter.rc (Utf8.encode text) = 0
    · have htakes : Takes setter.rc text := ⟨hnul, hrc⟩
      rw [if_pos hrc]
      refine ⟨.ok (), _, rfl, by simp [htakes], ?_⟩
      rw [if_pos htakes, setter.get_call, if_pos hrc]
    · have hno : ¬ Takes setter.rc text := fun h => hrc h.2
      rw [if_neg hrc]
      refine ⟨_, _, rfl, by simp [hno], ?_⟩
      rw [if_neg hno, setter.get_call, if_neg hrc]

end

/-! ## Options -/

/-- The setter, of a text that is there. -/
def whenSome (set : List Char → NvmfM spdk Unit) : Option (List Char) → NvmfM spdk Unit
  | some text => set text
  | none => pure ()

/-- The host option, applied to the new subsystem. -/
def allowWhen (subsys : NvmfSubsystem) (allow : Bool) : NvmfM spdk Unit :=
  if allow then subsys.setAllowAnyHost true else pure ()

/-- The options, applied to the new subsystem. -/
def applyOptions (opts : NvmfSubsystemOpts) (subsys : NvmfSubsystem) : NvmfM spdk Unit := do
  allowWhen subsys opts.allowAnyHost
  whenSome subsys.setSerialNumber opts.serialNumber
  whenSome subsys.setModelNumber opts.modelNumber

section
variable {old : Addr → Option SpdkNvmfSubsystem} {ptr : Addr} {sub : SpdkNvmfSubsystem}
  {opts : NvmfSubsystemOpts}

theorem allowWhen_run (allow : Bool) {nqn : List UInt8}
    (h : spdk.get tgt = Function.update old ptr (some ⟨nqn, false, none, none⟩)) :
    ∃ tgt', (allowWhen ⟨ptr⟩ allow).run tgt = (.ok (), tgt') ∧
      spdk.get tgt' = Function.update old ptr (some ⟨nqn, allow, none, none⟩) := by
  cases allow with
  | true =>
    refine ⟨spdk.setAllowAnyHost tgt ptr true, rfl, ?_⟩
    rw [spdk.get_setAllowAnyHost, h, Named.change_update]
  | false => exact ⟨tgt, rfl, h⟩

/-- An option of the new subsystem is set, if it is given and can be set. -/
theorem whenSome_run {store : List UInt8 → SpdkNvmfSubsystem → SpdkNvmfSubsystem}
    (setter : TextSetter spdk.Tgt spdk.get store) (message : String) (option : Option (List Char))
    (h : spdk.get tgt = Function.update old ptr (some sub)) :
    ∃ r tgt', (whenSome (NvmfSubsystem.setText setter message ⟨ptr⟩) option).run tgt = (r, tgt') ∧
      (r = .ok () ↔ Accepted setter.rc option) ∧
      spdk.get tgt' = Function.update old ptr
        (some ((taken setter.rc option).elim sub fun cstr => store cstr sub)) := by
  cases option with
  | none => exact ⟨.ok (), tgt, rfl, by simp [Accepted], h⟩
  | some text =>
    obtain ⟨r, tgt', hrun, hr, hget⟩ := setText_run setter message ⟨ptr⟩ text tgt
    refine ⟨r, tgt', hrun, by simp [hr, Accepted], ?_⟩
    rw [hget, h]
    by_cases htakes : Takes setter.rc text
    · simp [taken, htakes, Named.change_update]
    · simp [taken, htakes]

/-- **The options of a new subsystem**: they are set as far as to the first that is refused. -/
theorem applyOptions_run (opts : NvmfSubsystemOpts) {nqn : List UInt8}
    (h : spdk.get tgt = Function.update old ptr (some ⟨nqn, false, none, none⟩)) :
    ∃ r tgt', (applyOptions opts ⟨ptr⟩).run tgt = (r, tgt') ∧
      (r = .ok () ↔ Accepted spdk.setSn.rc opts.serialNumber ∧
        Accepted spdk.setMn.rc opts.modelNumber) ∧
      spdk.get tgt' = Function.update old ptr (some (settled spdk nqn opts)) := by
  obtain ⟨tgt₁, hrun₁, h₁⟩ := allowWhen_run opts.allowAnyHost h
  obtain ⟨r₂, tgt₂, hrun₂, hr₂, h₂⟩ := whenSome_run spdk.setSn "Failed to set serial number"
    opts.serialNumber h₁
  have hserial : spdk.get tgt₂ = Function.update old ptr (some ⟨nqn, opts.allowAnyHost,
      taken spdk.setSn.rc opts.serialNumber, none⟩) := by
    rw [h₂]
    cases taken spdk.setSn.rc opts.serialNumber <;> rfl
  unfold applyOptions
  rw [NvmfM.run_bind_ok hrun₁]
  cases r₂ with
  | error e =>
    have hno : ¬ Accepted spdk.setSn.rc opts.serialNumber := fun ha => by cases hr₂.2 ha
    refine ⟨.error e, tgt₂, NvmfM.run_bind_error hrun₂ _, by simp [hno], ?_⟩
    rw [hserial, settled, if_neg hno]
  | ok _ =>
    have hsn := hr₂.1 rfl
    obtain ⟨r₃, tgt₃, hrun₃, hr₃, h₃⟩ := whenSome_run spdk.setMn "Failed to set model number"
      opts.modelNumber hserial
    refine ⟨r₃, tgt₃, (NvmfM.run_bind_ok hrun₂ _).trans hrun₃, by simp [hr₃, hsn], ?_⟩
    rw [h₃, settled, if_pos hsn]
    cases taken spdk.setMn.rc opts.modelNumber <;> rfl

end

/-! ## `create_subsystem` -/

theorem createSubsystem_eq (nqn : List Char) (opts : NvmfSubsystemOpts) :
    (NvmfTarget.createSubsystem nqn opts : NvmfM spdk NvmfSubsystem) =
      (MonadExcept.ofExcept (cstringNew (Utf8.encode nqn)) : NvmfM spdk (List UInt8)) >>=
        fun nqnCstr => (modifyGet fun tgt => spdk.create tgt nqnCstr) >>= fun
          | some ptr => applyOptions opts ⟨ptr⟩ >>= fun _ => pure ⟨ptr⟩
          | none =>
            throw (.invalidArgument ("Failed to create subsystem: " ++ String.ofList nqn)) := by
  unfold NvmfTarget.createSubsystem
  congr 1
  funext nqnCstr
  congr 1
  funext ptr
  cases ptr with
  | none => rfl
  | some ptr =>
    unfold applyOptions allowWhen whenSome
    rcases opts with ⟨_ | sn, _ | mn, _ | _⟩ <;> simp

theorem run_create (nqn : List UInt8) :
    NvmfM.run (modifyGet fun tgt => spdk.create tgt nqn) tgt =
      (.ok (spdk.create tgt nqn).1, (spdk.create tgt nqn).2) := rfl

variable {nqn : List Char} {opts : NvmfSubsystemOpts}

/-- Where no subsystem is created there is an error, and the subsystems are as they were. -/
theorem createSubsystem_not_created (h : ¬ Creates spdk tgt nqn) :
    ∃ e tgt', (NvmfTarget.createSubsystem nqn opts).run tgt = (.error e, tgt') ∧
      spdk.get tgt' = spdk.get tgt := by
  rw [createSubsystem_eq]
  by_cases hnul : '\x00' ∈ nqn
  · obtain ⟨e, he⟩ := @NvmfM.run_cstring_error spdk tgt nqn hnul
    exact ⟨e, tgt, NvmfM.run_bind_error he _, rfl⟩
  · have hnull : (spdk.create tgt (Utf8.encode nqn)).1 = none :=
      Option.not_isSome_iff_eq_none.1 fun hc => h ⟨hnul, hc⟩
    rw [NvmfM.run_bind_ok (NvmfM.run_cstring_ok hnul), NvmfM.run_bind_ok (run_create _), hnull]
    exact ⟨_, _, rfl, spdk.get_create_null (Prod.ext hnull rfl)⟩

/-- **What `create_subsystem` does** where SPDK creates a subsystem. -/
theorem createSubsystem_new (h : Creates spdk tgt nqn) : ∃ r ptr tgt',
    (NvmfTarget.createSubsystem nqn opts).run tgt = (r, tgt') ∧ spdk.get tgt ptr = none ∧
    spdk.get tgt' = Function.update (spdk.get tgt) ptr
      (some (settled spdk (Utf8.encode nqn) opts)) ∧
    (∀ subsys, r = .ok subsys → subsys = ⟨ptr⟩) ∧
    ((∃ subsys, r = .ok subsys) ↔ Accepted spdk.setSn.rc opts.serialNumber ∧
      Accepted spdk.setMn.rc opts.modelNumber) := by
  obtain ⟨ptr, hptr⟩ := Option.isSome_iff_exists.1 h.2
  obtain ⟨hfree, hnew⟩ := spdk.get_create (Prod.ext hptr rfl)
  obtain ⟨r, tgt', hrun, hr, hget⟩ := applyOptions_run opts hnew
  rw [createSubsystem_eq, NvmfM.run_bind_ok (NvmfM.run_cstring_ok h.1),
    NvmfM.run_bind_ok (run_create _), hptr, ← hr]
  cases r with
  | ok _ =>
    exact ⟨.ok ⟨ptr⟩, ptr, tgt', NvmfM.run_bind_ok hrun _, hfree, hget,
      fun subsys heq => (Except.ok.inj heq).symm, by simp⟩
  | error e =>
    exact ⟨.error e, ptr, tgt', NvmfM.run_bind_error hrun _, hfree, hget,
      fun subsys heq => (by cases heq), by simp⟩

/-- **An error leaves the target as it was** exactly when the options of a subsystem that was
created are accepted. -/
theorem keepsOnError_iff (spdk : SpdkSubsystems) (tgt : spdk.Tgt) (nqn : List Char)
    (opts : NvmfSubsystemOpts) :
    KeepsOnError spdk tgt nqn opts ↔ (Creates spdk tgt nqn →
      Accepted spdk.setSn.rc opts.serialNumber ∧ Accepted spdk.setMn.rc opts.modelNumber) := by
  constructor
  · intro h hc
    obtain ⟨r, ptr, tgt', hrun, hfree, hget, -, hok⟩ := @createSubsystem_new spdk tgt nqn opts hc
    rw [← hok]
    cases r with
    | ok subsys => exact ⟨subsys, rfl⟩
    | error e =>
      have hsame := congrFun (h e tgt' hrun) ptr
      rw [hget, Function.update_self, hfree] at hsame
      cases hsame
  · intro h e tgt' hrun
    by_cases hc : Creates spdk tgt nqn
    · obtain ⟨r, ptr, tgt₁, hrun₁, -, -, -, hok⟩ := @createSubsystem_new spdk tgt nqn opts hc
      obtain ⟨subsys, rfl⟩ := hok.2 (h hc)
      cases hrun₁.symm.trans hrun
    · obtain ⟨e₁, tgt₁, hrun₁, hget⟩ := @createSubsystem_not_created spdk tgt nqn opts hc
      cases hrun₁.symm.trans hrun
      exact hget

/-! ## A target as a list -/

/-- A setter that takes texts of at most 20 bytes. -/
def listSetter (store : List UInt8 → SpdkNvmfSubsystem → SpdkNvmfSubsystem) :
    TextSetter (List SpdkNvmfSubsystem) (fun tgt ptr => tgt[ptr]?) store where
  call tgt ptr cstr :=
    if cstr.length ≤ 20 then (0, tgt.modify ptr (store cstr)) else (-1, tgt)
  rc cstr := if cstr.length ≤ 20 then 0 else -1
  rc_call := by
    intro tgt ptr cstr
    split <;> rfl
  get_call := by
    intro tgt ptr cstr
    by_cases h : cstr.length ≤ 20
    · simp [h, Named.change_getElem?]
    · simp [h]

/-- An SPDK whose targets are lists, a pointer being an index. -/
def spdkLists : SpdkSubsystems where
  Tgt := List SpdkNvmfSubsystem
  get tgt ptr := tgt[ptr]?
  create tgt nqn :=
    if nqn ∈ tgt.map (·.nqn) then (none, tgt)
    else (some tgt.length, tgt ++ [⟨nqn, false, none, none⟩])
  setAllowAnyHost tgt ptr allow := tgt.modify ptr fun sub => { sub with allowAnyHost := allow }
  setSn := listSetter _
  setMn := listSetter _
  find tgt nqn := tgt.findIdx? (·.nqn = nqn)
  getNqn tgt ptr := tgt[ptr]?.map (·.nqn)
  get_create := by
    intro tgt tgt' nqn ptr h
    split at h
    · cases h
    · cases h
      exact ⟨List.getElem?_eq_none (Nat.le_refl _), (Named.update_getElem?_length tgt).symm⟩
  get_create_null := by
    intro tgt tgt' nqn h
    split at h
    · cases h
      rfl
    · cases h
  get_setAllowAnyHost := (Named.change_getElem? _ _).symm
  get_find := by
    intro tgt nqn ptr h
    obtain ⟨hlt, hnqn, -⟩ := List.findIdx?_eq_some_iff_getElem.1 h
    exact ⟨tgt[ptr], List.getElem?_eq_getElem hlt, of_decide_eq_true hnqn⟩
  find_get := by
    intro tgt ptr sub h
    rw [List.findIdx?_isSome, List.any_eq_true]
    exact ⟨sub, List.mem_of_getElem? h, decide_eq_true rfl⟩
  getNqn_get := by
    intro tgt ptr sub h
    rw [h]
    rfl

theorem uniqueNames_spdkLists : UniqueNames spdkLists := by
  intro tgt ptr sub h
  have hmem : sub.nqn ∈ List.map (·.nqn) (tgt : List SpdkNvmfSubsystem) :=
    List.mem_map_of_mem (List.mem_of_getElem? h)
  show (if sub.nqn ∈ List.map (·.nqn) (tgt : List SpdkNvmfSubsystem) then (none, tgt)
    else _ : Option Addr × List SpdkNvmfSubsystem).1 = none
  rw [if_pos hmem]

/-- A serial number with a NUL byte leaves a subsystem of the name `nqn`. -/
theorem nul_serial_leaves_subsystem :
    ∃ spdk tgt nqn opts, ¬ KeepsOnError spdk tgt nqn opts := by
  let opts : NvmfSubsystemOpts := ⟨some ['S', '\x00'], none, true⟩
  refine ⟨spdkLists, ([] : List SpdkNvmfSubsystem), ['n', 'q', 'n'], opts, fun h => ?_⟩
  have hc : Creates spdkLists ([] : List SpdkNvmfSubsystem) ['n', 'q', 'n'] := ⟨by decide, rfl⟩
  obtain ⟨r, ptr, tgt', hrun, hfree, hget, -, hok⟩ :=
    @createSubsystem_new spdkLists ([] : List SpdkNvmfSubsystem) ['n', 'q', 'n'] opts hc
  cases r with
  | ok subsys =>
    have hnul := ((hok.1 ⟨subsys, rfl⟩).1 _ rfl).1
    exact hnul (by decide)
  | error e =>
    have hsame := congrFun (h e tgt' hrun) ptr
    rw [hget, Function.update_self, hfree] at hsame
    cases hsame

/-! ## The name of a subsystem that was left -/

/-- It is found by its name. -/
theorem find_after_error {e : Error} (hc : Creates spdk tgt nqn)
    (hrun : (NvmfTarget.createSubsystem nqn opts).run tgt = (.error e, tgt')) :
    (NvmfTarget.findSubsystem tgt' nqn).isSome = true := by
  obtain ⟨r, ptr, tgt₁, hrun₁, -, hget, -⟩ := @createSubsystem_new spdk tgt nqn opts hc
  cases hrun₁.symm.trans hrun
  have hcstr : cstringNew (Utf8.encode nqn) = .ok (Utf8.encode nqn) :=
    cstringNew_of_notMem fun h0 => hc.1 (Utf8.zero_mem_encode.1 h0)
  have hnew : spdk.get tgt' ptr = some (settled spdk (Utf8.encode nqn) opts) := by
    rw [hget, Function.update_self]
  obtain ⟨found, hfound⟩ := Option.isSome_iff_exists.1 (spdk.find_get hnew)
  have hfind : spdk.find tgt' (Utf8.encode nqn) = some found := hfound
  simp [NvmfTarget.findSubsystem, hcstr, Except.toOption, hfind]

/-- Every other attempt at its name is an error. -/
theorem retry_refused {opts' : NvmfSubsystemOpts} {e : Error} (hspdk : UniqueNames spdk)
    (hc : Creates spdk tgt nqn)
    (hrun : (NvmfTarget.createSubsystem nqn opts).run tgt = (.error e, tgt')) :
    ∃ e' tgt'', (NvmfTarget.createSubsystem nqn opts').run tgt' = (.error e', tgt'') ∧
      spdk.get tgt'' = spdk.get tgt' := by
  obtain ⟨r, ptr, tgt₁, hrun₁, -, hget, -⟩ := @createSubsystem_new spdk tgt nqn opts hc
  cases hrun₁.symm.trans hrun
  have hnew : spdk.get tgt' ptr = some (settled spdk (Utf8.encode nqn) opts) := by
    rw [hget, Function.update_self]
  refine createSubsystem_not_created fun hc' => ?_
  have hnull : (spdk.create tgt' (Utf8.encode nqn)).1 = none := hspdk tgt' ptr _ hnew
  have hsome := hc'.2
  rw [hnull] at hsome
  cases hsome

end SpdkIo.Nvmf
