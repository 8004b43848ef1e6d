import SpdkIo.Nvmf.Proof.Subsystem
import SpdkIo.Nvmf.Registry

/-!
# A target is a map from names to subsystems

`registry_refines`: for an SPDK that does not create a second subsystem of a name, each step of a
program on a target is the request by name on the map (`Request.apply`), and every value it ever got
stays the one that `find_subsystem` finds by its name. This goes for the subsystem that a failed
`create_subsystem` leaves as well.
-/

namespace SpdkIo.Nvmf

open Thread.State (cstringNew)
open Named (Distinct ByName)

variable {spdk : SpdkSubsystems} {tgt tgt' : spdk.Tgt} {nqn : List Char}
  {opts : NvmfSubsystemOpts} {subsys : NvmfSubsystem} {f : SpdkNvmfSubsystem → SpdkNvmfSubsystem}

/-! ## Names -/

/-- The value is the target's subsystem of the name. -/
def PointsTo (tgt : spdk.Tgt) (nqn : List Char) (subsys : NvmfSubsystem) : Prop :=
  ∃ sub, spdk.get tgt subsys.ptr = some sub ∧ sub.nqn = Utf8.encode nqn

/-- The names are distinct, and C strings. -/
structure TgtOk (tgt : spdk.Tgt) : Prop where
  distinct : Distinct SpdkNvmfSubsystem.nqn (spdk.get tgt)
  nulFree : ∀ ptr sub, spdk.get tgt ptr = some sub → 0 ∉ sub.nqn

/-- The map of the target has its subsystems by their names. -/
theorem TgtOk.byName (h : TgtOk tgt) :
    ByName SpdkNvmfSubsystem.nqn (spdk.get tgt) (spdk.names tgt) := by
  intro cstr sub
  rw [SpdkSubsystems.names, Option.bind_eq_some_iff]
  constructor
  · rintro ⟨ptr, hfind, hget⟩
    obtain ⟨found, hfound, hnqn⟩ := spdk.get_find hfind
    rw [hget] at hfound
    cases hfound
    exact ⟨ptr, hget, hnqn⟩
  · rintro ⟨ptr, hget, rfl⟩
    obtain ⟨found, hfind⟩ := Option.isSome_iff_exists.1 (spdk.find_get hget)
    obtain ⟨other, hother, hnqn⟩ := spdk.get_find hfind
    rw [h.distinct hother hget hnqn] at hfind
    exact ⟨ptr, hfind, hget⟩

theorem PointsTo.nulFree (h : PointsTo tgt nqn subsys) (hok : TgtOk tgt) : '\x00' ∉ nqn := by
  obtain ⟨sub, hsub, hnqn⟩ := h
  intro hnul
  have hfree := hok.nulFree _ sub hsub
  rw [hnqn] at hfree
  exact hfree (Utf8.zero_mem_encode.2 hnul)

/-- `find_subsystem` finds the subsystem of the name. -/
theorem findSubsystem_eq_some (hok : TgtOk tgt) :
    NvmfTarget.findSubsystem tgt nqn = some subsys ↔ PointsTo tgt nqn subsys := by
  by_cases hnul : '\x00' ∈ nqn
  · obtain ⟨e, he⟩ := cstringNew_of_mem (Utf8.zero_mem_encode.2 hnul)
    constructor
    · intro h
      simp [NvmfTarget.findSubsystem, he, Except.toOption] at h
    · intro h
      exact absurd hnul (h.nulFree hok)
  · have hcstr : cstringNew (Utf8.encode nqn) = .ok (Utf8.encode nqn) :=
      cstringNew_of_notMem fun h0 => hnul (Utf8.zero_mem_encode.1 h0)
    have hfind : NvmfTarget.findSubsystem tgt nqn = some subsys ↔
        spdk.find tgt (Utf8.encode nqn) = some subsys.ptr := by
      cases subsys
      simp [NvmfTarget.findSubsystem, hcstr, Except.toOption, Option.bind_eq_some_iff]
    rw [hfind]
    constructor
    · exact spdk.get_find
    · rintro ⟨sub, hsub, hnqn⟩
      obtain ⟨found, hfound⟩ := Option.isSome_iff_exists.1 (spdk.find_get hsub)
      rw [hnqn] at hfound
      obtain ⟨other, hother, hname⟩ := spdk.get_find hfound
      rw [hfound, hok.distinct hother hsub (hname.trans hnqn.symm)]

/-- It finds one exactly if the name is in the map. -/
theorem findSubsystem_isSome (hok : TgtOk tgt) :
    (NvmfTarget.findSubsystem tgt nqn).isSome = true ↔
      (spdk.names tgt (Utf8.encode nqn)).isSome = true := by
  rw [hok.byName.isSome_iff, Option.isSome_iff_exists]
  constructor
  · rintro ⟨subsys, h⟩
    obtain ⟨sub, hsub, hnqn⟩ := (findSubsystem_eq_some hok).1 h
    exact ⟨subsys.ptr, sub, hsub, hnqn⟩
  · rintro ⟨ptr, sub, hsub, hnqn⟩
    exact ⟨⟨ptr⟩, (findSubsystem_eq_some hok).2 ⟨sub, hsub, hnqn⟩⟩

theorem PointsTo.nqn_eq (h : PointsTo tgt nqn subsys) : subsys.nqn tgt = nqn := by
  obtain ⟨sub, hsub, hnqn⟩ := h
  simp only [NvmfSubsystem.nqn, spdk.getNqn_get hsub, hnqn, Utf8.decode_eq_some.2 rfl,
    Option.getD_some]

/-! ## Changes -/

section same
variable (hsame : spdk.get tgt' = spdk.get tgt)
include hsame

theorem TgtOk.same (h : TgtOk tgt) : TgtOk tgt' where
  distinct := by rw [hsame]; exact h.distinct
  nulFree := by rw [hsame]; exact h.nulFree

theorem PointsTo.same (h : PointsTo tgt nqn subsys) : PointsTo tgt' nqn subsys := by
  rw [PointsTo, hsame]
  exact h

theorem names_same (h : TgtOk tgt) : spdk.names tgt' = spdk.names tgt := by
  have hnames := (h.same hsame).byName
  rw [hsame] at hnames
  exact hnames.ext h.byName

end same

section change
variable {ptr : Addr} (hf : ∀ sub, (f sub).nqn = sub.nqn)
  (hget : spdk.get tgt' = Named.change (spdk.get tgt) ptr f)
include hf hget

theorem TgtOk.change (h : TgtOk tgt) : TgtOk tgt' where
  distinct := by rw [hget]; exact h.distinct.change hf
  nulFree p sub hsub := by
    rw [hget] at hsub
    obtain ⟨old, hold, hnqn⟩ := Named.name_of_change hf hsub
    rw [hnqn]
    exact h.nulFree p old hold

theorem PointsTo.change (h : PointsTo tgt nqn subsys) : PointsTo tgt' nqn subsys := by
  obtain ⟨sub, hsub, hnqn⟩ := h
  refine ⟨_, by rw [hget]; exact Named.change_eq_some.2 ⟨sub, hsub, rfl⟩, ?_⟩
  split
  · exact (hf sub).trans hnqn
  · exact hnqn

/-- A change through a value is a change by its name. -/
theorem names_change (h : TgtOk tgt) (hp : PointsTo tgt nqn ⟨ptr⟩) :
    spdk.names tgt' = (spdk.names tgt).change nqn f := by
  obtain ⟨sub, hsub, hnqn⟩ := hp
  have hnames := (h.change hf hget).byName
  rw [hget] at hnames
  rw [Names.change, ← hnqn]
  exact hnames.ext (h.byName.change h.distinct hsub hf)

end change

section add
variable {ptr : Addr} {sub : SpdkNvmfSubsystem} (hfree : spdk.get tgt ptr = none)
  (hget : spdk.get tgt' = Function.update (spdk.get tgt) ptr (some sub))
include hget

theorem TgtOk.add (h : TgtOk tgt) (hnul : 0 ∉ sub.nqn)
    (hnew : ∀ p a, spdk.get tgt p = some a → a.nqn ≠ sub.nqn) : TgtOk tgt' where
  distinct := by rw [hget]; exact h.distinct.add hnew
  nulFree p a ha := by
    rw [hget] at ha
    by_cases hp : p = ptr
    · subst hp
      rw [Function.update_self, Option.some.injEq] at ha
      rwa [← ha]
    · rw [Function.update_of_ne hp] at ha
      exact h.nulFree p a ha

theorem PointsTo.new (hnqn : sub.nqn = Utf8.encode nqn) : PointsTo tgt' nqn ⟨ptr⟩ :=
  ⟨sub, by rw [hget, Function.update_self], hnqn⟩

include hfree

theorem PointsTo.add (h : PointsTo tgt nqn subsys) : PointsTo tgt' nqn subsys := by
  obtain ⟨old, hold, hnqn⟩ := h
  have hne : subsys.ptr ≠ ptr := by
    rintro rfl
    cases hold.symm.trans hfree
  exact ⟨old, by rw [hget, Function.update_of_ne hne, hold], hnqn⟩

theorem names_add (h : TgtOk tgt) (hnul : 0 ∉ sub.nqn)
    (hnew : ∀ p a, spdk.get tgt p = some a → a.nqn ≠ sub.nqn) :
    spdk.names tgt' = Function.update (spdk.names tgt) sub.nqn (some sub) := by
  have hnames := (h.add hget hnul hnew).byName
  rw [hget] at hnames
  exact hnames.ext (h.byName.add hfree hnew)

end add

/-! ## Steps -/

namespace Registry

variable {s s' : Registry spdk} {a : Action}

theorem call_eq {α : Type} (s : Registry spdk) (x : NvmfM spdk α) :
    s.call x = ((x.run s.tgt).1, { s with tgt := (x.run s.tgt).2 }) := rfl

structure Inv (s : Registry spdk) : Prop where
  ok : TgtOk s.tgt
  handles : ∀ p ∈ s.handles, PointsTo s.tgt p.1 p.2

/-- What a step is on the map. -/
def Refines (s : Registry spdk) (a : Action) (s' : Registry spdk) : Prop :=
  ∃ r, s.request a = some r ∧ spdk.names s'.tgt =
    r.apply spdk (fun nqn => (spdk.create s.tgt nqn).1.isSome) (spdk.names s.tgt)

/-- A setter, through the value at `k`. -/
theorem Inv.set (hi : Inv s) {k : Nat}
    {store : List UInt8 → SpdkNvmfSubsystem → SpdkNvmfSubsystem}
    (setter : TextSetter spdk.Tgt spdk.get store) (message : String) {text : List Char}
    (hstore : ∀ cstr sub, (store cstr sub).nqn = sub.nqn)
    (hs : (s.handles[k]?.map fun p => (s.call (p.2.setText setter message text)).2) = some s') :
    Inv s' ∧ ∃ nqn subsys, s.handles[k]? = some (nqn, subsys) ∧ spdk.names s'.tgt =
      if Takes setter.rc text then (spdk.names s.tgt).change nqn (store (Utf8.encode text))
      else spdk.names s.tgt := by
  obtain ⟨⟨nqn, subsys⟩, hk, rfl⟩ := Option.map_eq_some_iff.1 hs
  have hp : PointsTo s.tgt nqn subsys := hi.handles _ (List.mem_of_getElem? hk)
  obtain ⟨r, tgt', hrun, -, hget⟩ := setText_run setter message subsys text s.tgt
  rw [call_eq, hrun]
  by_cases ht : Takes setter.rc text
  · rw [if_pos ht] at hget
    have hnames := names_change (hstore _) hget hi.ok hp
    exact ⟨⟨hi.ok.change (hstore _) hget, fun p hp' => (hi.handles p hp').change (hstore _) hget⟩,
      nqn, subsys, hk, hnames.trans (if_pos ht).symm⟩
  · rw [if_neg ht] at hget
    have hnames := names_same hget hi.ok
    exact ⟨⟨hi.ok.same hget, fun p hp' => (hi.handles p hp').same hget⟩,
      nqn, subsys, hk, hnames.trans (if_neg ht).symm⟩

theorem Inv.create (hspdk : UniqueNames spdk) (hi : Inv s) (nqn : List Char)
    (opts : NvmfSubsystemOpts) :
    Inv (gets nqn (s.call (NvmfTarget.createSubsystem nqn opts))) ∧
      spdk.names (gets nqn (s.call (NvmfTarget.createSubsystem nqn opts))).tgt =
        (Request.create nqn opts).apply spdk (fun nqn => (spdk.create s.tgt nqn).1.isSome)
          (spdk.names s.tgt) := by
  by_cases hc : Creates spdk s.tgt nqn
  · obtain ⟨r, ptr, tgt', hrun, hfree, hget, hptr, -⟩ := @createSubsystem_new spdk s.tgt nqn opts hc
    have hcall : s.call (NvmfTarget.createSubsystem nqn opts) = (r, { s with tgt := tgt' }) := by
      rw [call_eq, hrun]
    have hnul : 0 ∉ Utf8.encode nqn := fun h0 => hc.1 (Utf8.zero_mem_encode.1 h0)
    have hnew : ∀ p a, spdk.get s.tgt p = some a → a.nqn ≠ Utf8.encode nqn := by
      intro p a ha hnqn
      have hnull := hspdk s.tgt p a ha
      rw [hnqn] at hnull
      have hsome := hc.2
      rw [hnull] at hsome
      cases hsome
    have hok : TgtOk tgt' := hi.ok.add hget hnul hnew
    have hnames : spdk.names tgt' = (Request.create nqn opts).apply spdk
        (fun nqn => (spdk.create s.tgt nqn).1.isSome) (spdk.names s.tgt) := by
      have hcreates : '\x00' ∉ nqn ∧ (spdk.create s.tgt (Utf8.encode nqn)).1.isSome = true := hc
      rw [Request.apply, if_pos hcreates]
      exact names_add hfree hget hi.ok hnul hnew
    rw [hcall]
    cases r with
    | ok subsys =>
      obtain rfl := hptr subsys rfl
      refine ⟨⟨hok, fun p hp => ?_⟩, hnames⟩
      rcases List.mem_append.1 hp with hp | hp
      · exact (hi.handles p hp).add hfree hget
      · obtain rfl := List.mem_singleton.1 hp
        exact PointsTo.new hget rfl
    | error e => exact ⟨⟨hok, fun p hp => (hi.handles p hp).add hfree hget⟩, hnames⟩
  · obtain ⟨e, tgt', hrun, hget⟩ := @createSubsystem_not_created spdk s.tgt nqn opts hc
    have hcall : s.call (NvmfTarget.createSubsystem nqn opts) =
        (.error e, { s with tgt := tgt' }) := by
      rw [call_eq, hrun]
    have hold : ¬ ('\x00' ∉ nqn ∧ (spdk.create s.tgt (Utf8.encode nqn)).1.isSome = true) := hc
    rw [hcall, Request.apply, if_neg hold]
    exact ⟨⟨hi.ok.same hget, fun p hp => (hi.handles p hp).same hget⟩, names_same hget hi.ok⟩

theorem Inv.find (hi : Inv s) (nqn : List Char) :
    Inv (s.find nqn) ∧ spdk.names (s.find nqn).tgt = spdk.names s.tgt := by
  unfold Registry.find
  split
  · rename_i subsys hf
    refine ⟨⟨hi.ok, fun p hp => ?_⟩, rfl⟩
    rcases List.mem_append.1 hp with hp | hp
    · exact hi.handles p hp
    · obtain rfl := List.mem_singleton.1 hp
      exact (findSubsystem_eq_some hi.ok).1 hf
  · exact ⟨hi, rfl⟩

theorem Inv.step (hspdk : UniqueNames spdk) (hi : Inv s) (hs : s.step a = some s') :
    Inv s' ∧ Refines s a s' := by
  cases a with
  | create nqn opts =>
    obtain rfl := Option.some.inj hs
    obtain ⟨hinv, hnames⟩ := hi.create hspdk nqn opts
    exact ⟨hinv, _, rfl, hnames⟩
  | find nqn =>
    obtain rfl := Option.some.inj hs
    obtain ⟨hinv, hnames⟩ := hi.find nqn
    exact ⟨hinv, _, rfl, hnames⟩
  | setSerialNumber k sn =>
    obtain ⟨hinv, nqn, subsys, hk, hnames⟩ := hi.set spdk.setSn _ (fun _ _ => rfl) hs
    exact ⟨hinv, .setSerialNumber nqn sn, by simp [request, hk], hnames⟩
  | setModelNumber k mn =>
    obtain ⟨hinv, nqn, subsys, hk, hnames⟩ := hi.set spdk.setMn _ (fun _ _ => rfl) hs
    exact ⟨hinv, .setModelNumber nqn mn, by simp [request, hk], hnames⟩
  | setAllowAnyHost k allow =>
    obtain ⟨⟨nqn, subsys⟩, hk, rfl⟩ := Option.map_eq_some_iff.1 hs
    have hp : PointsTo s.tgt nqn subsys := hi.handles _ (List.mem_of_getElem? hk)
    have hget := @SpdkSubsystems.get_setAllowAnyHost spdk s.tgt subsys.ptr allow
    let f := fun sub : SpdkNvmfSubsystem => { sub with allowAnyHost := allow }
    have hf : ∀ sub, (f sub).nqn = sub.nqn := fun _ => rfl
    exact ⟨⟨hi.ok.change hf hget, fun p hp' => (hi.handles p hp').change hf hget⟩,
      .setAllowAnyHost nqn allow, by simp [request, hk], names_change hf hget hi.ok hp⟩

/-! ## Runs -/

/-- **A target is a map from names to subsystems**, for an SPDK that does not create a second
subsystem of a name: each step is the request by name, and every value the program ever got is the
one that is found by its name. -/
theorem registry_refines {tgt₀ : spdk.Tgt} (hspdk : UniqueNames spdk)
    (hempty : ∀ ptr, spdk.get tgt₀ ptr = none) (h : (lts tgt₀).Reach s) :
    (∀ nqn subsys, (nqn, subsys) ∈ s.handles →
      subsys.nqn s.tgt = nqn ∧ NvmfTarget.findSubsystem s.tgt nqn = some subsys) ∧
    (∀ nqn, (NvmfTarget.findSubsystem s.tgt nqn).isSome = true ↔
      (spdk.names s.tgt (Utf8.encode nqn)).isSome = true) ∧
    ∀ a s', s.step a = some s' → Refines s a s' := by
  have hinv : Inv s := by
    have hdistinct : Distinct SpdkNvmfSubsystem.nqn (spdk.get tgt₀) := by
      intro p q a b ha
      cases (hempty p).symm.trans ha
    have h0 : Inv (lts tgt₀).init :=
      ⟨⟨hdistinct, fun p sub hsub => (by cases (hempty p).symm.trans hsub)⟩, fun _ h => by cases h⟩
    exact Lts.Reach.invariant (I := Inv) h0 (fun hi hs => (hi.step hspdk hs).1) h
  refine ⟨fun nqn subsys hp => ?_, fun nqn => findSubsystem_isSome hinv.ok,
    fun a s' hs => (hinv.step hspdk hs).2⟩
  have hpoints : PointsTo s.tgt nqn subsys := hinv.handles _ hp
  exact ⟨hpoints.nqn_eq, (findSubsystem_eq_some hinv.ok).2 hpoints⟩

/-- The subsystem that a failed creation left is found, gets its serial number, and stays the one
that is found when another is created. -/
theorem registry_refines_left : ∃ (s : Registry spdkLists) (subsys : NvmfSubsystem),
    (@lts spdkLists ([] : List SpdkNvmfSubsystem)).Reach s ∧
      NvmfTarget.findSubsystem s.tgt ['a'] = some subsys ∧ subsys.nqn s.tgt = ['a'] ∧
      List.map (·.serialNumber) (s.tgt : List SpdkNvmfSubsystem) = [some [83], none] := by
  obtain ⟨s, hs, hp⟩ := Lts.exists_of_run (M := @lts spdkLists ([] : List SpdkNvmfSubsystem))
    [.create ['a'] ⟨some ['S', '\x00'], none, true⟩, .find ['a'], .setSerialNumber 0 ['S'],
     .create ['a'] ⟨none, none, false⟩, .create ['b'] ⟨none, none, false⟩]
    (fun s => decide (s.handles[0]?.map (·.1) = some ['a'] ∧
      List.map (·.serialNumber) (s.tgt : List SpdkNvmfSubsystem) = [some [83], none])) (by decide)
  obtain ⟨hname, hserial⟩ := of_decide_eq_true hp
  obtain ⟨⟨nqn, subsys⟩, hk, rfl⟩ := Option.map_eq_some_iff.1 hname
  obtain ⟨hnqn, hfind⟩ := (registry_refines uniqueNames_spdkLists (fun _ => rfl) hs).1 _ _
    (List.mem_of_getElem? hk)
  exact ⟨s, subsys, hs, hfind, hnqn, hserial⟩

end Registry

end SpdkIo.Nvmf
