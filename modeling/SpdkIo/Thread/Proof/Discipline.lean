import SpdkIo.Thread.Proof.Spawn

/-!
# Spawning under a thread of the main thread

`spawn_safe`: `spawn` does not look at the library, but while the main thread keeps an `SpdkThread`
until the spawned threads have ended, they create SPDK threads only while the library is ready, and
it is finalised only when there are none, whatever the closures do. While a spawned thread runs,
the SPDK thread of the main thread counts, so nobody finalises the library; otherwise the main
thread is alone.
-/

namespace SpdkIo.Thread.Spawn

variable {T : Type} {s s' : State T} {lib lib' : Thread.State} {a : Thread.Action} {i j : OsId}
  {o o' : OsThread}

/-- A spawned thread has not ended. -/
def State.busy (s : State T) : Bool := s.spawned.any fun phase => !phase.hasEnded

/-- The `SpdkThread` values of the main thread. -/
def State.mainOwned (s : State T) : List SpdkId := s.lib.os[0]?.elim [] (·.owned)

/-- The `SpdkThread` that the main thread drops. -/
def mainDrops : Thread.Action → Option SpdkId
  | .drop 0 id => some id
  | _ => none

/-- The main thread has an `SpdkThread` when a thread is spawned, and drops its last one only when
the spawned threads have ended. -/
def Disciplined (s : State T) : Action T → Prop
  | .spawn _ _ => s.mainOwned ≠ []
  | .lib a => ∀ id ∈ mainDrops a, s.mainOwned.erase id = [] → s.busy = false
  | _ => True

/-- The shared data as the main thread `o` sees it. -/
structure MainOk (lib : Thread.State) (o : OsThread) : Prop where
  raised : lib.threads ≠ [] ∨ o.pc.attaching = true → lib.flag = true
  alone : o.pc.initialising = true → lib.threads = [] ∧ lib.flag = true
  ready : lib.flag = true → lib.ready = true ∨ o.pc.initialising = true
  lowered : o.pc = .fini → lib.flag = false

structure Kept (s : State T) : Prop where
  inv : Inv s
  lib : Thread.Inv s.lib
  main : ∃ o, s.lib.os[0]? = some o ∧ MainOk s.lib o
  others : ∀ j o, s.lib.os[j + 1]? = some o → o.pc.initialising = false
  roots : s.busy = true → s.mainOwned ≠ []

/-- While a spawned thread runs, there are SPDK threads. -/
theorem Kept.threads (h : Kept s) (hb : s.mainOwned ≠ []) : s.lib.threads ≠ [] := by
  obtain ⟨o, ho, -⟩ := h.main
  rw [State.mainOwned, ho] at hb
  obtain ⟨id, hid⟩ := List.exists_mem_of_ne_nil o.owned hb
  exact List.ne_nil_of_mem (h.inv.held.mem ho (List.mem_append_left _ hid))

/-- A spawned thread that has ended does nothing. -/
theorem Kept.idle (h : Kept s) (hb : s.busy = false) {k : Nat}
    (ho : s.lib.os[k + 1]? = some o) : o.pc = .idle := by
  have hlt : k < s.spawned.length := by
    have := (List.getElem?_eq_some_iff.1 ho).1
    have := h.inv.length
    omega
  obtain ⟨o₁, ho₁, hok⟩ := h.inv.phases k _ (List.getElem?_eq_getElem hlt)
  obtain rfl := Option.some.inj (ho₁.symm.trans ho)
  have hended := List.any_eq_false.1 hb _ (List.getElem_mem hlt)
  cases hphase : s.spawned[k] with
  | ended id outcome =>
    rw [hphase] at hok
    exact hok.1
  | attaching | running id | dropping id outcome =>
    rw [hphase] at hended
    exact absurd rfl hended

/-- What holds while there are SPDK threads. -/
structure Busy (lib : Thread.State) : Prop where
  flag : lib.flag = true
  ready : lib.ready = true
  calm : ∀ o ∈ lib.os, o.pc.finishing = false ∧ o.pc.initialising = false

theorem Kept.busy (h : Kept s) (hne : s.lib.threads ≠ []) : Busy s.lib := by
  obtain ⟨o₀, ho₀, hmain⟩ := h.main
  refine ⟨hmain.raised (.inl hne), h.lib.threads hne, fun o ho => ⟨?_, ?_⟩⟩
  · rw [← Bool.not_eq_true]
    exact fun hf => hne (h.lib.finishing o ho hf).1
  · obtain ⟨j, hj⟩ := List.getElem?_of_mem ho
    cases j with
    | zero =>
      obtain rfl := Option.some.inj (ho₀.symm.trans hj)
      rw [← Bool.not_eq_true]
      exact fun hi => hne (hmain.alone hi).1
    | succ j => exact h.others j o hj

/-! ## Steps of the thread library -/

/-- An OS thread that may take a step is the main thread, or a spawned one that has not ended. -/
theorem busy_of_allows (hall : s.allows a i = true) : s.busy = true ∨ i = 0 := by
  cases i with
  | zero => exact .inr rfl
  | succ k =>
    obtain ⟨phase, hk, hph⟩ := (Option.any_eq_true _ _).1 hall
    refine .inl (List.any_eq_true.2 ⟨phase, List.mem_of_getElem? hk, ?_⟩)
    cases phase with
    | ended id outcome => cases a <;> cases hph
    | attaching | running id | dropping id outcome => rfl

/-- The step is one of the main thread with nobody else around, or there are SPDK threads. -/
theorem Kept.actor (h : Kept s) (hact : s.busy = true ∨ i = 0) :
    s.lib.threads ≠ [] ∨ (i = 0 ∧ s.busy = false) := by
  cases hb : s.busy with
  | true => exact .inl (h.threads (h.roots hb))
  | false =>
    rw [hb] at hact
    exact .inr ⟨hact.resolve_left (by decide), rfl⟩

/-- Every step is outside of the windows of the library. -/
theorem Kept.orderly (h : Kept s) (ha : a.actor = some i) (hact : s.busy = true ∨ i = 0)
    (hs : s.lib.step a = some lib') : Orderly s.lib a := by
  obtain ⟨o₀, ho₀, hmain⟩ := h.main
  have henter : ∀ {fn name}, s.lib.threadLibInit i fn name = some lib' →
      s.lib.mayEnter name = true := by
    intro fn name hs
    simp only [State.mayEnter, Bool.or_eq_true, Bool.and_eq_true, List.all_eq_true,
      Bool.not_eq_true']
    refine .inr ?_
    rcases h.actor hact with hne | ⟨rfl, hb⟩
    · have hbusy := h.busy hne
      exact ⟨.inr hbusy.ready, fun o ho => (hbusy.calm o ho).1⟩
    · obtain ⟨o, ho, hs⟩ := Option.bind_eq_some_iff.1 hs
      obtain rfl := Option.some.inj (ho₀.symm.trans ho)
      split at hs
      · rename_i hpc
        refine ⟨?_, fun o ho => ?_⟩
        · cases hflag : s.lib.flag with
          | false => exact .inl rfl
          | true =>
            have hready := hmain.ready hflag
            rw [hpc] at hready
            exact .inr (hready.resolve_right (by decide))
        · obtain ⟨j, hj⟩ := List.getElem?_of_mem ho
          cases j with
          | zero =>
            obtain rfl := Option.some.inj (ho₀.symm.trans hj)
            rw [hpc]
            rfl
          | succ j =>
            rw [h.idle hb hj]
            rfl
      · cases hs
  cases a with
  | current i' name =>
    obtain rfl := Option.some.inj ha
    exact henter hs
  | currentWithMempoolSize i' name size =>
    obtain rfl := Option.some.inj ha
    exact henter hs
  | count i' =>
    intro hnil
    obtain rfl := Option.some.inj ha
    rcases h.actor hact with hne | ⟨rfl, hb⟩
    · exact absurd hnil hne
    · obtain ⟨o, ho, hs⟩ := Option.bind_eq_some_iff.1 hs
      obtain rfl := Option.some.inj (ho₀.symm.trans ho)
      split at hs
      · rename_i hpc
        rw [List.all_eq_true]
        intro o ho
        obtain ⟨j, hj⟩ := List.getElem?_of_mem ho
        cases j with
        | zero =>
          obtain rfl := Option.some.inj (ho₀.symm.trans hj)
          rw [hpc]
          rfl
        | succ j =>
          rw [h.idle hb hj]
          rfl
      · cases hs
  | _ => trivial

/-- **A step while there are SPDK threads** leaves the flag and the library alone. -/
theorem Busy.step (h : Busy lib) (ha : a.actor = some i) (hs : lib.step a = some lib') :
    lib'.flag = true ∧ lib'.ready = true ∧
      ∀ (j : OsId) (o' : OsThread), lib'.os[j]? = some o' →
        o'.pc.initialising = false ∧ o'.pc ≠ .fini := by
  obtain ⟨o, ho, heff⟩ := step_effect ha hs
  obtain ⟨hfin, hinit⟩ := h.calm o (List.mem_of_getElem? ho)
  have hold : ∀ (j : OsId) (o' : OsThread), lib.os[j]? = some o' →
      o'.pc.initialising = false ∧ o'.pc ≠ .fini := by
    intro j o' ho'
    obtain ⟨hfin', hinit'⟩ := h.calm o' (List.mem_of_getElem? ho')
    refine ⟨hinit', fun hpc => ?_⟩
    rw [hpc] at hfin'
    cases hfin'
  have hset : ∀ o' : OsThread, o'.pc.initialising = false → o'.pc ≠ .fini →
      ∀ (j : OsId) (x : OsThread), (lib.os.set i o')[j]? = some x →
        x.pc.initialising = false ∧ x.pc ≠ .fini := by
    intro o' hi hf j x hj
    rcases Table.set_cases hj with ⟨-, rfl⟩ | ⟨-, hj⟩
    · exact ⟨hi, hf⟩
    · exact hold j x hj
  cases heff with
  | move o' _ _ hinit' _ hfini' => exact ⟨h.flag, h.ready, hset o' hinit' hfini'⟩
  | create o' _ _ hpc' =>
    exact ⟨h.flag, h.ready, hset o' (by rw [hpc']; rfl) (by rw [hpc']; exact nofun)⟩
  | destroy o' id _ _ hpc' =>
    exact ⟨h.flag, h.ready, hset o' (by rw [hpc']; rfl) (by rw [hpc']; exact nofun)⟩
  | raise o' hflag =>
    rw [h.flag] at hflag
    cases hflag
  | initOk o' hpc | initFail o' hpc | lower o' hpc =>
    rw [hinit] at hpc
    cases hpc
  | finiSwap o' hpc | fini o' hpc =>
    rw [hpc] at hfin
    cases hfin

/-- The main thread is outside of the init function, and not creating an SPDK thread. -/
theorem MainOk.calm (hatt : o.pc.attaching = false) (hinit : o.pc.initialising = false)
    (hraised : lib.threads ≠ [] → lib.flag = true)
    (hready : lib.flag = true → lib.ready = true) (hlowered : o.pc = .fini → lib.flag = false) :
    MainOk lib o where
  raised h := by
    rcases h with h | h
    · exact hraised h
    · rw [hatt] at h
      cases h
  alone h := by
    rw [hinit] at h
    cases h
  ready h := .inl (hready h)
  lowered := hlowered

theorem MainOk.ready_of (h : MainOk lib o) (hinit : o.pc.initialising = false)
    (hflag : lib.flag = true) : lib.ready = true := by
  rcases h.ready hflag with hr | hi
  · exact hr
  · rw [hinit] at hi
    cases hi

/-- **A step of the main thread alone.** -/
theorem MainOk.step (h : MainOk lib o) (hlib : Thread.Inv lib) (ho : lib.os[0]? = some o)
    (ha : a.actor = some 0) (hs : lib.step a = some lib') :
    ∃ o', lib'.os[0]? = some o' ∧ MainOk lib' o' := by
  obtain ⟨o₁, ho₁, heff⟩ := step_effect ha hs
  obtain rfl := Option.some.inj (ho₁.symm.trans ho)
  have hfinishing : o₁.pc.finishing = true → lib.threads = [] := fun hf =>
    (hlib.finishing o₁ (List.mem_of_getElem? ho) hf).1
  cases heff with
  | move o' _ hinit hinit' hatt hfini =>
    refine ⟨o', Table.set_self ho, ?_, ?_, fun hf => .inl (h.ready_of hinit hf),
      fun hpc => absurd hpc hfini⟩
    · rintro (hne | hpc)
      · exact h.raised (.inl hne)
      · exact (hatt hpc).elim (fun hpc => h.raised (.inr hpc)) id
    · exact fun hpc => absurd (hinit'.symm.trans hpc) (by decide)
  | raise o' hflag _ hpc hinit' =>
    have hnil : lib.threads = [] := by
      by_contra hne
      rw [h.raised (.inl hne)] at hflag
      cases hflag
    refine ⟨o', Table.set_self ho, fun _ => rfl, fun _ => ⟨hnil, rfl⟩, fun _ => .inr hinit', ?_⟩
    intro hpc'
    rw [hpc'] at hinit'
    cases hinit'
  | initOk o' hinit _ hinit' hfini =>
    exact ⟨o', Table.set_self ho, fun _ => (h.alone hinit).2,
      fun hpc => absurd (hinit'.symm.trans hpc) (by decide), fun _ => .inl rfl,
      fun hpc => absurd hpc hfini⟩
  | initFail o' hinit _ hinit' =>
    refine ⟨o', Table.set_self ho, fun _ => (h.alone hinit).2, fun _ => h.alone hinit,
      fun _ => .inr hinit', fun hpc => ?_⟩
    rw [hpc] at hinit'
    cases hinit'
  | lower o' hinit _ hpc' =>
    exact ⟨o', Table.set_self ho, .calm (by rw [hpc']; rfl) (by rw [hpc']; rfl)
      (fun hne => absurd (h.alone hinit).1 hne) nofun (fun _ => rfl)⟩
  | create o' hpc _ hpc' =>
    have hflag := h.raised (.inr (by rw [hpc]; rfl))
    exact ⟨o', Table.set_self ho, .calm (by rw [hpc']; rfl) (by rw [hpc']; rfl) (fun _ => hflag)
      (h.ready_of (by rw [hpc]; rfl)) (fun hf => by rw [hpc'] at hf; cases hf)⟩
  | destroy o' id hpc _ hpc' =>
    exact ⟨o', Table.set_self ho, .calm (by rw [hpc']; rfl) (by rw [hpc']; rfl)
      (fun hne => h.raised (.inl fun hnil => hne (by rw [hnil]; rfl)))
      (h.ready_of (by rw [hpc]; rfl)) (fun hf => by rw [hpc'] at hf; cases hf)⟩
  | finiSwap o' hpc _ hpc' =>
    exact ⟨o', Table.set_self ho, .calm (by rw [hpc']; rfl) (by rw [hpc']; rfl)
      (fun hne => absurd (hfinishing (by rw [hpc]; rfl)) hne) nofun (fun _ => rfl)⟩
  | fini o' hpc _ hpc' =>
    have hflag := h.lowered hpc
    exact ⟨o', Table.set_self ho, .calm (by rw [hpc']; rfl) (by rw [hpc']; rfl)
      (fun hne => absurd (hfinishing (by rw [hpc]; rfl)) hne)
      (fun hf => absurd (hflag.symm.trans hf) (by decide)) (fun _ => hflag)⟩

/-- **A step of the thread library**, in whichever phase the spawned threads are left. -/
theorem Kept.libStep (h : Kept s) (ha : a.actor = some i) (hact : s.busy = true ∨ i = 0)
    (hs : s.lib.step a = some s'.lib) (hinv : Inv s')
    (hroots : s'.busy = true → s'.mainOwned ≠ []) : Kept s' := by
  obtain ⟨o₀, ho₀, hmain⟩ := h.main
  have hlib := h.lib.step (h.orderly ha hact hs) hs
  rcases h.actor hact with hne | ⟨rfl, hb⟩
  · obtain ⟨hflag, hready, hcalm⟩ := (h.busy hne).step ha hs
    have hlt : 0 < s'.lib.os.length := by
      rw [hinv.length]
      exact Nat.succ_pos _
    have ho := List.getElem?_eq_getElem hlt
    obtain ⟨hinit, hfini⟩ := hcalm 0 _ ho
    exact ⟨hinv, hlib,
      ⟨_, ho, fun _ => hflag, fun hi => absurd (hinit.symm.trans hi) (by decide),
        fun _ => .inl hready, fun hpc => absurd hpc hfini⟩,
      fun j o ho => (hcalm (j + 1) o ho).1, hroots⟩
  · refine ⟨hinv, hlib, hmain.step h.lib ho₀ ha hs, fun j o ho => ?_, hroots⟩
    -- the others have ended, and do not move
    have hlt : j + 1 < s.lib.os.length := by
      rw [← length_step ha hs]
      exact (List.getElem?_eq_some_iff.1 ho).1
    have hold := List.getElem?_eq_getElem hlt
    have hsame := os_of_ne ha hs (Nat.succ_ne_zero j).symm hold
    obtain rfl := Option.some.inj (hsame.symm.trans ho)
    rw [h.idle hb hold]
    rfl

/-- The main thread keeps its SPDK threads, except the one it drops. -/
theorem mainOwned_step (s' : State T) (ha : a.actor = some i)
    (hs : s.lib.step a = some s'.lib) {id : SpdkId} (hid : id ∈ s.mainOwned)
    (hdrop : a ≠ .drop 0 id) : id ∈ s'.mainOwned := by
  cases ho : s.lib.os[0]? with
  | none =>
    rw [State.mainOwned, ho] at hid
    cases hid
  | some o =>
    rw [State.mainOwned, ho] at hid
    by_cases hi : i = 0
    · subst hi
      obtain ⟨o', ho', hid'⟩ := owned_of_step ha hs ho hid hdrop
      rw [State.mainOwned, ho']
      exact hid'
    · rw [State.mainOwned, os_of_ne ha hs hi ho]
      exact hid

theorem mainOwned_drop (s' : State T) {id : SpdkId} (hs : s.lib.step (.drop 0 id) = some s'.lib) :
    s'.mainOwned = s.mainOwned.erase id := by
  obtain ⟨o, ho, hs⟩ := Option.bind_eq_some_iff.1 hs
  split at hs
  · obtain ⟨-, hs⟩ := Option.ite_none_right_eq_some.1 hs
    rw [State.mainOwned, State.mainOwned, ho, ← Option.some.inj hs, Thread.State.set,
      Table.set_self ho]
    rfl
  · cases hs

/-! ## The steps of the process -/

theorem Kept.lib_step (h : Kept s) (hd : Disciplined s (.lib a)) (hs : s.libStep a = some s') :
    Kept s' := by
  have hinv := h.inv.libStep hs
  obtain ⟨i, lib', ha, hall, hlib, rfl⟩ := libStep_eq hs
  refine h.libStep ha (busy_of_allows hall) hlib hinv fun hb => ?_
  have hbusy : s.busy = true := hb
  obtain ⟨id, hid⟩ := List.exists_mem_of_ne_nil _ (h.roots hbusy)
  by_cases hdrop : a = .drop 0 id
  · subst hdrop
    rw [mainOwned_drop { s with lib := lib' } hlib]
    intro hnil
    rw [hd id rfl hnil] at hbusy
    cases hbusy
  · exact List.ne_nil_of_mem (mainOwned_step { s with lib := lib' } ha hlib hid hdrop)

theorem Kept.spawn (h : Kept s) {name : List UInt8} (hd : s.mainOwned ≠ [])
    (hs : s.spawn i name = some s') : Kept s' := by
  have hinv := h.inv.spawn hs
  obtain ⟨-, hnul, rfl⟩ := spawn_eq hs
  obtain ⟨o₀, ho₀, hmain⟩ := h.main
  have hbusy := h.busy (h.threads hd)
  have hmain' : MainOk { s.lib with os := s.lib.os ++ [⟨.attach name, [], none, none⟩] } o₀ :=
    ⟨hmain.raised, hmain.alone, hmain.ready, hmain.lowered⟩
  have hlib : Thread.Inv { s.lib with os := s.lib.os ++ [⟨.attach name, [], none, none⟩] } :=
    { attaching := fun _ _ _ => hbusy.ready
      threads := h.lib.threads
      finishing := fun o ho hf => by
        rcases List.mem_append.1 ho with ho | ho
        · rw [(hbusy.calm o ho).1] at hf
          cases hf
        · obtain rfl := List.mem_singleton.1 ho
          cases hf }
  refine ⟨hinv, hlib, ⟨o₀, Table.append_of ho₀, hmain'⟩, fun j o ho => ?_, fun _ => ?_⟩
  · rcases Table.append_cases ho with ⟨-, rfl⟩ | ho
    · rfl
    · exact h.others j o ho
  · rw [State.mainOwned, ho₀] at hd
    rw [State.mainOwned, Table.append_of ho₀]
    exact hd

/-- A phase that has not ended is replaced. -/
theorem Kept.setPhase {k : Nat} {phase phase' : Phase T} (h : Kept s)
    (hk : s.spawned[k]? = some phase) (hn : phase.hasEnded = false)
    (hinv : Inv (s.setPhase k phase')) : Kept (s.setPhase k phase') := by
  refine ⟨hinv, h.lib, h.main, h.others, fun _ => h.roots ?_⟩
  exact List.any_eq_true.2 ⟨phase, List.mem_of_getElem? hk, by rw [hn]; rfl⟩

theorem Kept.closureRet {k : Nat} {outcome : Option T} (h : Kept s)
    (hs : s.closureRet k outcome = some s') : Kept s' := by
  have hinv := h.inv.closureRet hs
  obtain ⟨id, lib', hk, hlib, rfl⟩ := closureRet_eq hs
  have hbusy : s.busy = true := List.any_eq_true.2 ⟨_, List.mem_of_getElem? hk, rfl⟩
  obtain ⟨id', hid'⟩ := List.exists_mem_of_ne_nil _ (h.roots hbusy)
  refine h.libStep rfl (.inl hbusy) hlib hinv fun _ => ?_
  exact List.ne_nil_of_mem
    (mainOwned_step { s.setPhase k (.dropping id outcome) with lib := lib' } rfl hlib hid'
      (fun hc => by cases hc))

theorem Kept.step (h : Kept s) {act : Action T} (hd : Disciplined s act)
    (hs : s.step act = some s') : Kept s' := by
  cases act with
  | lib a => exact h.lib_step hd hs
  | spawn i name => exact h.spawn hd hs
  | attachRet k =>
    have hinv := h.inv.attachRet hs
    obtain ⟨o, phase', hk, -, -, -, rfl⟩ := attachRet_eq hs
    exact h.setPhase hk rfl hinv
  | closureRet k outcome => exact h.closureRet hs
  | exit k =>
    have hinv := h.inv.exit hs
    obtain ⟨o, id, outcome, hk, -, -, rfl⟩ := exit_eq hs
    exact h.setPhase hk rfl hinv
  | join k =>
    have hinv := h.inv.join hs
    obtain ⟨id, outcome, hk, -, rfl⟩ := join_eq hs
    exact { h with inv := hinv }

theorem Kept.init : Kept (lts T).init where
  inv := Inv.init
  lib :=
    { attaching := fun o ho hatt => by
        obtain rfl := List.mem_singleton.1 ho
        cases hatt
      threads := fun hne => absurd rfl hne
      finishing := fun o ho hf => by
        obtain rfl := List.mem_singleton.1 ho
        cases hf }
  main := ⟨_, rfl, .calm rfl rfl (fun hne => absurd rfl hne) nofun (fun _ => rfl)⟩
  others j o ho := by cases ho
  roots hb := by cases hb

/-- **The thread library is used only while it is ready**, in every disciplined run. -/
theorem spawn_safe {s : State T} (h : (lts T).ReachBy Disciplined s) : Safe s.lib := by
  have hkept : Kept s :=
    Lts.ReachBy.invariant (G := Disciplined) Kept.init (fun hi hg hs => hi.step hg hs) h
  constructor
  · intro i null lib' hs
    obtain ⟨o, ho, hs⟩ := Option.bind_eq_some_iff.1 hs
    split at hs
    · rename_i hpc
      exact hkept.lib.attaching o (List.mem_of_getElem? ho) (by rw [hpc]; rfl)
    · cases hs
  · intro i lib' hs
    obtain ⟨o, ho, hs⟩ := Option.bind_eq_some_iff.1 hs
    split at hs
    · rename_i hpc
      exact (hkept.lib.finishing o (List.mem_of_getElem? ho) (by rw [hpc]; rfl)).1
    · cases hs

instance decidableDisciplined (s : State T) : ∀ act, Decidable (Disciplined s act)
  | .spawn _ _ => inferInstanceAs (Decidable (s.mainOwned ≠ []))
  | .lib a => inferInstanceAs
    (Decidable (∀ id ∈ mainDrops a, s.mainOwned.erase id = [] → s.busy = false))
  | .attachRet _ | .closureRet _ _ | .exit _ | .join _ => .isTrue trivial

/-- A spawned thread that spawns another: that one is about to create its SPDK thread. -/
theorem spawn_safe_nested : ∃ (s : State Nat) (lib' : Thread.State),
    s.lib.step (.create 2 false) = some lib' ∧ s.lib.ready = true := by
  obtain ⟨s, hs, hp⟩ := Lts.exists_of_runBy (M := lts Nat) (G := Disciplined)
    [.lib (.current 0 [97]), .lib (.initRet 0 0), .lib (.attach 0), .lib (.create 0 false),
     .lib (.setThread 0), .spawn 0 [98], .lib (.attach 1), .lib (.create 1 false),
     .lib (.setThread 1), .attachRet 0, .spawn 1 [99], .closureRet 0 (some 42), .lib (.attach 2)]
    (fun s => (s.lib.step (.create 2 false)).isSome) (by decide)
  obtain ⟨lib', hlib⟩ := Option.isSome_iff_exists.1 hp
  exact ⟨s, lib', hlib, (spawn_safe hs).1 2 false lib' hlib⟩

end SpdkIo.Thread.Spawn
