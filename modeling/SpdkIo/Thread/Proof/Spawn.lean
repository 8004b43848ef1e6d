import SpdkIo.Thread.Proof.Effect

/-!
# Spawned threads

`join_result`: in every run, while a closure runs its OS thread alone holds the SPDK thread that the
closure has a reference to, and what `join` returns is the outcome of the closure, with the SPDK
thread destroyed. The invariant says where each spawned OS thread is in the thread library
(`Phase.Ok`).
-/

namespace SpdkIo.Thread.Spawn

variable {T : Type} {s s' : State T} {lib lib' : Thread.State} {a : Thread.Action} {i j : OsId}
  {o o' : OsThread} {k : Nat} {phase phase' : Phase T} {id : SpdkId}

/-- The SPDK thread `id` was destroyed. -/
def Gone (lib : Thread.State) (id : SpdkId) : Prop := id ∉ lib.threads ∧ id < lib.next

/-- On the way through `attach`, or back from it. -/
def Attaching (o : OsThread) : Prop :=
  (∃ name, o.pc = .attach name) ∨ o.pc = .create ∨ (∃ id, o.pc = .setThread id) ∨
    (o.pc = .idle ∧ ∀ id, o.returned = some (.ok id) → id ∈ o.owned)

/-- On the way through the drop of `id`, or back from it. -/
def Dropping (lib : Thread.State) (id : SpdkId) (o : OsThread) : Prop :=
  o.pc = .exiting id ∨ o.pc = .clearThread id ∨ o.pc = .destroy id ∨
    ((o.pc = .count ∨ o.pc = .finiSwap ∨ o.pc = .fini ∨ o.pc = .idle) ∧ Gone lib id)

/-- Where the OS thread `o` is in its phase. -/
def Phase.Ok (lib : Thread.State) (o : OsThread) : Phase T → Prop
  | .attaching => Attaching o
  | .running id => id ∈ o.owned
  | .dropping id _ => Dropping lib id o
  | .ended id outcome =>
    o.pc = .idle ∧ (id = none → outcome = none) ∧ ∀ id', id = some id' → Gone lib id'

/-! ## Steps of the thread library -/

theorem os_of_ne (ha : a.actor = some i) (hs : lib.step a = some lib') (hij : i ≠ j)
    (ho : lib.os[j]? = some o) : lib'.os[j]? = some o := by
  obtain ⟨oi, -, heff⟩ := step_effect ha hs
  cases heff with
  | _ => exact Table.set_of_ne hij ho

theorem Gone.step (h : Gone lib id) (ha : a.actor = some i) (hs : lib.step a = some lib') :
    Gone lib' id := by
  obtain ⟨oi, -, heff⟩ := step_effect ha hs
  cases heff with
  | create o' =>
    refine ⟨fun hmem => ?_, Nat.lt_succ_of_lt h.2⟩
    rcases List.mem_append.1 hmem with hmem | hmem
    · exact h.1 hmem
    · rw [List.mem_singleton] at hmem
      exact absurd h.2 (hmem ▸ Nat.lt_irrefl _)
  | destroy o' id' => exact ⟨fun hmem => h.1 (List.mem_of_mem_erase hmem), h.2⟩
  | _ => exact h

/-- Another OS thread takes a step. -/
theorem Phase.Ok.other (h : phase.Ok lib o) (ha : a.actor = some i) (hs : lib.step a = some lib') :
    phase.Ok lib' o := by
  cases phase with
  | attaching => exact h
  | running id => exact h
  | dropping id outcome =>
    obtain h | h | h | ⟨hpc, hgone⟩ := h
    · exact .inl h
    · exact .inr (.inl h)
    · exact .inr (.inr (.inl h))
    · exact .inr (.inr (.inr ⟨hpc, hgone.step ha hs⟩))
  | ended id outcome => exact ⟨h.1, h.2.1, fun id' hid' => (h.2.2 id' hid').step ha hs⟩

/-- `attach` goes on. -/
theorem Attaching.own (h : Attaching o) (ho : lib.os[i]? = some o)
    (hall : (Phase.attaching : Phase T).allows a = true) (ha : a.actor = some i)
    (hs : lib.step a = some lib') : ∃ o', lib'.os[i]? = some o' ∧ Attaching o' := by
  cases a with
  | attach j =>
    obtain rfl := Option.some.inj ha
    obtain ⟨o₁, ho₁, hs⟩ := Option.bind_eq_some_iff.1 hs
    obtain rfl := Option.some.inj (ho₁.symm.trans ho)
    split at hs
    · split at hs
      · obtain rfl := Option.some.inj hs
        exact ⟨_, Table.set_self ho, .inr (.inl rfl)⟩
      · obtain rfl := Option.some.inj hs
        exact ⟨_, Table.set_self ho, .inr (.inr (.inr ⟨rfl, nofun⟩))⟩
    · cases hs
  | create j null =>
    obtain rfl := Option.some.inj ha
    obtain ⟨o₁, ho₁, hs⟩ := Option.bind_eq_some_iff.1 hs
    obtain rfl := Option.some.inj (ho₁.symm.trans ho)
    split at hs
    · split at hs
      · obtain rfl := Option.some.inj hs
        exact ⟨_, Table.set_self ho, .inr (.inr (.inr ⟨rfl, nofun⟩))⟩
      · obtain rfl := Option.some.inj hs
        exact ⟨_, Table.set_self ho, .inr (.inr (.inl ⟨_, rfl⟩))⟩
    · cases hs
  | setThread j =>
    obtain rfl := Option.some.inj ha
    obtain ⟨o₁, ho₁, hs⟩ := Option.bind_eq_some_iff.1 hs
    obtain rfl := Option.some.inj (ho₁.symm.trans ho)
    split at hs
    · obtain rfl := Option.some.inj hs
      refine ⟨_, Table.set_self ho, .inr (.inr (.inr ⟨rfl, fun id hid => ?_⟩))⟩
      cases hid
      exact List.mem_append_right _ (List.mem_singleton_self _)
    · cases hs
  | _ => cases hall

/-- The drop goes on; `destroy` destroys the SPDK thread. -/
theorem Dropping.own {outcome : Option T} (hheld : Held lib) (h : Dropping lib id o)
    (ho : lib.os[i]? = some o) (hall : (Phase.dropping id outcome).allows a = true)
    (ha : a.actor = some i) (hs : lib.step a = some lib') :
    ∃ o', lib'.os[i]? = some o' ∧ Dropping lib' id o' := by
  cases a with
  | pollExit j exited =>
    obtain rfl := Option.some.inj ha
    obtain ⟨o₁, ho₁, hs⟩ := Option.bind_eq_some_iff.1 hs
    obtain rfl := Option.some.inj (ho₁.symm.trans ho)
    split at hs
    · rename_i id' hpc
      have hid : id' = id := by simpa [Dropping, hpc] using h
      split at hs
      · obtain rfl := Option.some.inj hs
        exact ⟨_, Table.set_self ho, .inr (.inl (by rw [hid]))⟩
      · obtain rfl := Option.some.inj hs
        exact ⟨_, ho, h⟩
    · cases hs
  | clearThread j =>
    obtain rfl := Option.some.inj ha
    obtain ⟨o₁, ho₁, hs⟩ := Option.bind_eq_some_iff.1 hs
    obtain rfl := Option.some.inj (ho₁.symm.trans ho)
    split at hs
    · rename_i id' hpc
      have hid : id' = id := by simpa [Dropping, hpc] using h
      obtain rfl := Option.some.inj hs
      exact ⟨_, Table.set_self ho, .inr (.inr (.inl (by rw [hid])))⟩
    · cases hs
  | destroy j =>
    obtain rfl := Option.some.inj ha
    obtain ⟨o₁, ho₁, hs⟩ := Option.bind_eq_some_iff.1 hs
    obtain rfl := Option.some.inj (ho₁.symm.trans ho)
    split at hs
    · rename_i id' hpc
      obtain rfl := Option.some.inj hs
      refine ⟨_, Table.set_self ho, .inr (.inr (.inr ⟨.inl rfl, ?_⟩))⟩
      have hid : id' = id := by simpa [Dropping, hpc] using h
      subst hid
      have hmem : id' ∈ lib.threads := hheld.mem ho (by simp [OsThread.held, hpc, Pc.ids])
      exact ⟨hheld.nodup.not_mem_erase, hheld.lt id' hmem⟩
    · cases hs
  | count j =>
    obtain rfl := Option.some.inj ha
    obtain ⟨o₁, ho₁, hs⟩ := Option.bind_eq_some_iff.1 hs
    obtain rfl := Option.some.inj (ho₁.symm.trans ho)
    split at hs
    · rename_i hpc
      have hgone : Gone lib id := by simpa [Dropping, hpc] using h
      split at hs
      · obtain rfl := Option.some.inj hs
        exact ⟨_, Table.set_self ho, .inr (.inr (.inr ⟨.inr (.inl rfl), hgone⟩))⟩
      · obtain rfl := Option.some.inj hs
        exact ⟨_, Table.set_self ho, .inr (.inr (.inr ⟨.inr (.inr (.inr rfl)), hgone⟩))⟩
    · cases hs
  | threadLibFini j =>
    obtain rfl := Option.some.inj ha
    obtain ⟨o₁, ho₁, hs⟩ := Option.bind_eq_some_iff.1 hs
    obtain rfl := Option.some.inj (ho₁.symm.trans ho)
    split at hs
    · rename_i hpc
      have hgone : Gone lib id := by simpa [Dropping, hpc] using h
      split at hs
      · obtain rfl := Option.some.inj hs
        exact ⟨_, Table.set_self ho, .inr (.inr (.inr ⟨.inr (.inr (.inl rfl)), hgone⟩))⟩
      · obtain rfl := Option.some.inj hs
        exact ⟨_, Table.set_self ho, .inr (.inr (.inr ⟨.inr (.inr (.inr rfl)), hgone⟩))⟩
    · cases hs
  | fini j =>
    obtain rfl := Option.some.inj ha
    obtain ⟨o₁, ho₁, hs⟩ := Option.bind_eq_some_iff.1 hs
    obtain rfl := Option.some.inj (ho₁.symm.trans ho)
    split at hs
    · rename_i hpc
      have hgone : Gone lib id := by simpa [Dropping, hpc] using h
      obtain rfl := Option.some.inj hs
      exact ⟨_, Table.set_self ho, .inr (.inr (.inr ⟨.inr (.inr (.inr rfl)), hgone⟩))⟩
    · cases hs
  | _ => cases hall

/-- The OS thread of a phase takes a step that the phase allows. -/
theorem Phase.Ok.own (hheld : Held lib) (h : phase.Ok lib o) (ho : lib.os[i]? = some o)
    (hall : phase.allows a = true) (ha : a.actor = some i) (hs : lib.step a = some lib') :
    ∃ o', lib'.os[i]? = some o' ∧ phase.Ok lib' o' := by
  cases phase with
  | attaching => exact Attaching.own h ho hall ha hs
  | running id =>
    refine owned_of_step ha hs ho h ?_
    rintro rfl
    simp [Phase.allows] at hall
  | dropping id outcome => exact Dropping.own hheld h ho hall ha hs
  | ended id outcome => cases a <;> cases hall

/-! ## The invariant -/

structure Inv (s : State T) : Prop where
  held : Held s.lib
  length : s.lib.os.length = s.spawned.length + 1
  phases : ∀ k phase, s.spawned[k]? = some phase →
    ∃ o, s.lib.os[k + 1]? = some o ∧ phase.Ok s.lib o
  joined : ∀ p ∈ s.joined, ∃ id outcome, s.spawned[p.1]? = some (.ended id outcome) ∧
    p.2 = joinResult outcome
  joined_nodup : (s.joined.map (·.1)).Nodup

theorem Inv.init : Inv (lts T).init where
  held := ⟨.nil, .nil, nofun⟩
  length := rfl
  phases k phase h := by cases h
  joined p hp := by cases hp
  joined_nodup := .nil

/-- **A step of the thread library** keeps every phase, if the one of its OS thread allows it. -/
theorem Inv.phases_step (h : Inv s) (ha : a.actor = some i) (hs : s.lib.step a = some lib')
    (hk : s.spawned[k]? = some phase) (hall : i = k + 1 → phase.allows a = true) :
    ∃ o, lib'.os[k + 1]? = some o ∧ phase.Ok lib' o := by
  obtain ⟨o, ho, hok⟩ := h.phases k phase hk
  by_cases hi : i = k + 1
  · subst hi
    exact hok.own h.held ho (hall rfl) ha hs
  · exact ⟨o, os_of_ne ha hs hi ho, hok.other ha hs⟩

theorem length_step (ha : a.actor = some i) (hs : lib.step a = some lib') :
    lib'.os.length = lib.os.length := by
  obtain ⟨o, -, heff⟩ := step_effect ha hs
  cases heff with
  | _ => exact List.length_set

theorem libStep_eq (hs : s.libStep a = some s') :
    ∃ i lib', a.actor = some i ∧ s.allows a i = true ∧ s.lib.step a = some lib' ∧
      s' = { s with lib := lib' } := by
  unfold State.libStep at hs
  obtain ⟨i, hi, hs⟩ := Option.bind_eq_some_iff.1 hs
  obtain ⟨hall, hs⟩ := Option.ite_none_right_eq_some.1 hs
  obtain ⟨lib', hlib, rfl⟩ := Option.map_eq_some_iff.1 hs
  exact ⟨i, lib', hi, hall, hlib, rfl⟩

theorem Inv.libStep (h : Inv s) (hs : s.libStep a = some s') : Inv s' := by
  obtain ⟨i, lib', ha, hall, hlib, rfl⟩ := libStep_eq hs
  refine { h with held := h.held.step ha hlib, length := ?_, phases := fun k phase hk => ?_ }
  · exact (length_step ha hlib).trans h.length
  · refine h.phases_step ha hlib hk ?_
    rintro rfl
    rwa [State.allows, show s.spawned[k]? = some phase from hk, Option.any_some] at hall

theorem spawn_eq {name : List UInt8} (hs : s.spawn i name = some s') :
    (∃ o, s.lib.os[i]? = some o ∧ o.pc = .idle) ∧ name.contains 0 = false ∧ s' = { s with
      lib := { s.lib with os := s.lib.os ++ [⟨.attach name, [], none, none⟩] }
      spawned := s.spawned ++ [.attaching] } := by
  unfold State.spawn at hs
  obtain ⟨o, ho, hs⟩ := Option.bind_eq_some_iff.1 hs
  obtain ⟨⟨hpc, -, hnul⟩, hs⟩ := Option.ite_none_right_eq_some.1 hs
  exact ⟨⟨o, ho, hpc⟩, hnul, (Option.some.inj hs).symm⟩

theorem Inv.spawn (h : Inv s) {name : List UInt8} (hs : s.spawn i name = some s') : Inv s' := by
  obtain ⟨-, -, rfl⟩ := spawn_eq hs
  refine { held := h.held.append, length := ?_, phases := fun k phase hk => ?_,
           joined := fun p hp => ?_, joined_nodup := h.joined_nodup }
  · simp [h.length]
  · rcases Table.append_cases hk with ⟨rfl, rfl⟩ | hk
    · refine ⟨⟨.attach name, [], none, none⟩, ?_, .inl ⟨name, rfl⟩⟩
      show (s.lib.os ++ [_])[_]? = _
      rw [← h.length, List.getElem?_concat_length]
    · obtain ⟨o, ho, hok⟩ := h.phases k phase hk
      exact ⟨o, Table.append_of ho, by cases phase <;> exact hok⟩
  · obtain ⟨id, outcome, hph, hr⟩ := h.joined p hp
    exact ⟨id, outcome, Table.append_of hph, hr⟩

/-- A phase that has not ended is replaced by one that is right. -/
theorem Inv.setPhase (h : Inv s) (hk : s.spawned[k]? = some phase) (hn : phase.hasEnded = false)
    (hok : ∃ o, s.lib.os[k + 1]? = some o ∧ phase'.Ok s.lib o) : Inv (s.setPhase k phase') where
  held := h.held
  length := by
    show s.lib.os.length = (s.spawned.set k phase').length + 1
    rw [List.length_set, h.length]
  phases j ph hj := by
    rcases Table.set_cases hj with ⟨rfl, rfl⟩ | ⟨-, hj⟩
    · exact hok
    · exact h.phases j ph hj
  joined p hp := by
    obtain ⟨id, outcome, hph, hr⟩ := h.joined p hp
    have hne : k ≠ p.1 := by
      rintro rfl
      rw [hk] at hph
      cases hph
      cases hn
    exact ⟨id, outcome, Table.set_of_ne hne hph, hr⟩
  joined_nodup := h.joined_nodup

theorem attachRet_eq (hs : s.attachRet k = some s') :
    ∃ o phase', s.spawned[k]? = some .attaching ∧ s.lib.os[k + 1]? = some o ∧ o.pc = .idle ∧
      ((∃ id, o.returned = some (.ok id) ∧ phase' = .running id) ∨ phase' = .ended none none) ∧
      s' = s.setPhase k phase' := by
  unfold State.attachRet at hs
  obtain ⟨phase, hk, hs⟩ := Option.bind_eq_some_iff.1 hs
  obtain ⟨o, ho, hs⟩ := Option.bind_eq_some_iff.1 hs
  split at hs
  · rename_i id hpc hr _
    exact ⟨o, _, hk, ho, hpc, .inl ⟨id, hr, rfl⟩, (Option.some.inj hs).symm⟩
  · rename_i e hpc hr _
    exact ⟨o, _, hk, ho, hpc, .inr rfl, (Option.some.inj hs).symm⟩
  · cases hs

theorem Inv.attachRet (h : Inv s) (hs : s.attachRet k = some s') : Inv s' := by
  obtain ⟨o, phase', hk, ho, hpc, hcases, rfl⟩ := attachRet_eq hs
  refine h.setPhase hk rfl ⟨o, ho, ?_⟩
  obtain ⟨o₁, ho₁, hok⟩ := h.phases k _ hk
  obtain rfl := Option.some.inj (ho₁.symm.trans ho)
  rcases hcases with ⟨id, hr, rfl⟩ | rfl
  · have hatt : Attaching o₁ := hok
    have howned : ∀ id, o₁.returned = some (.ok id) → id ∈ o₁.owned := by
      simpa [Attaching, hpc] using hatt
    exact howned id hr
  · exact ⟨hpc, fun _ => rfl, nofun⟩

theorem closureRet_eq {outcome : Option T} (hs : s.closureRet k outcome = some s') :
    ∃ id lib', s.spawned[k]? = some (.running id) ∧ s.lib.step (.drop (k + 1) id) = some lib' ∧
      s' = { s.setPhase k (.dropping id outcome) with lib := lib' } := by
  unfold State.closureRet at hs
  obtain ⟨phase, hk, hs⟩ := Option.bind_eq_some_iff.1 hs
  split at hs
  · rename_i id
    obtain ⟨lib', hlib, rfl⟩ := Option.map_eq_some_iff.1 hs
    exact ⟨id, lib', hk, hlib, rfl⟩
  · cases hs

theorem Inv.closureRet (h : Inv s) {outcome : Option T} (hs : s.closureRet k outcome = some s') :
    Inv s' := by
  obtain ⟨id, lib', hk, hlib, rfl⟩ := closureRet_eq hs
  have hexit : ∃ o', lib'.os[k + 1]? = some o' ∧ o'.pc = .exiting id := by
    obtain ⟨o, ho, hd⟩ := Option.bind_eq_some_iff.1 hlib
    split at hd
    · obtain ⟨-, hd⟩ := Option.ite_none_right_eq_some.1 hd
      obtain rfl := Option.some.inj hd
      exact ⟨_, Table.set_self ho, rfl⟩
    · cases hd
  obtain ⟨o', ho', hpc⟩ := hexit
  refine
    { held := h.held.step rfl hlib
      length := ?_
      phases := fun j ph hj => ?_
      joined := ?_
      joined_nodup := h.joined_nodup }
  · show _ = (s.spawned.set k _).length + 1
    rw [List.length_set, ← h.length]
    exact length_step rfl hlib
  · rcases Table.set_cases hj with ⟨rfl, rfl⟩ | ⟨hne, hj⟩
    · exact ⟨o', ho', .inl hpc⟩
    · exact h.phases_step rfl hlib hj fun hc => absurd (Nat.succ.inj hc) hne
  · intro p hp
    obtain ⟨id', outcome', hph, hr⟩ := h.joined p hp
    have hne : k ≠ p.1 := by
      rintro rfl
      rw [hk] at hph
      cases hph
    exact ⟨id', outcome', Table.set_of_ne hne hph, hr⟩

theorem exit_eq (hs : s.exit k = some s') :
    ∃ o id outcome, s.spawned[k]? = some (.dropping id outcome) ∧ s.lib.os[k + 1]? = some o ∧
      o.pc = .idle ∧ s' = s.setPhase k (.ended (some id) outcome) := by
  unfold State.exit at hs
  obtain ⟨phase, hk, hs⟩ := Option.bind_eq_some_iff.1 hs
  obtain ⟨o, ho, hs⟩ := Option.bind_eq_some_iff.1 hs
  split at hs
  · rename_i id outcome hpc _
    exact ⟨o, id, outcome, hk, ho, hpc, (Option.some.inj hs).symm⟩
  · cases hs

theorem Inv.exit (h : Inv s) (hs : s.exit k = some s') : Inv s' := by
  obtain ⟨o, id, outcome, hk, ho, hpc, rfl⟩ := exit_eq hs
  refine h.setPhase hk rfl ⟨o, ho, hpc, nofun, fun id' hid' => ?_⟩
  obtain ⟨o₁, ho₁, hok⟩ := h.phases k _ hk
  obtain rfl := Option.some.inj (ho₁.symm.trans ho)
  cases hid'
  have hdrop : Dropping s.lib id o₁ := hok
  simpa [Dropping, hpc] using hdrop

theorem join_eq (hs : s.join k = some s') :
    ∃ id outcome, s.spawned[k]? = some (.ended id outcome) ∧ k ∉ s.joined.map (·.1) ∧
      s' = { s with joined := s.joined ++ [(k, joinResult outcome)] } := by
  unfold State.join at hs
  obtain ⟨phase, hk, hs⟩ := Option.bind_eq_some_iff.1 hs
  split at hs
  · rename_i id outcome
    split at hs
    · cases hs
    · rename_i hn
      exact ⟨id, outcome, hk, hn, (Option.some.inj hs).symm⟩
  · cases hs

theorem Inv.join (h : Inv s) (hs : s.join k = some s') : Inv s' := by
  obtain ⟨id, outcome, hk, hn, rfl⟩ := join_eq hs
  refine
    { h with
      joined := fun p hp => ?_
      joined_nodup := Table.nodup_map_append h.joined_nodup hn }
  rcases List.mem_append.1 hp with hp | hp
  · exact h.joined p hp
  · obtain rfl := List.mem_singleton.1 hp
    exact ⟨id, outcome, hk, rfl⟩

theorem Inv.step (h : Inv s) {act : Action T} (hs : s.step act = some s') : Inv s' := by
  cases act with
  | lib a => exact h.libStep hs
  | spawn i name => exact h.spawn hs
  | attachRet k => exact h.attachRet hs
  | closureRet k outcome => exact h.closureRet hs
  | exit k => exact h.exit hs
  | join k => exact h.join hs

theorem inv_of_reach (h : (lts T).Reach s) : Inv s :=
  Lts.Reach.invariant Inv.init (fun hi hs => hi.step hs) h

/-- **Spawned threads in every run**: a closure has its SPDK thread to itself, and `join` returns
the outcome of the closure when the SPDK thread is destroyed. -/
theorem join_result {s : State T} (h : (lts T).Reach s) :
    (∀ k id, s.spawned[k]? = some (.running id) → id ∈ s.lib.threads ∧
      (∃ o, s.lib.os[k + 1]? = some o ∧ id ∈ o.owned) ∧
      ∀ j o, s.lib.os[j]? = some o → id ∈ o.held → j = k + 1) ∧
    (∀ p ∈ s.joined, ∃ id outcome, s.spawned[p.1]? = some (.ended id outcome) ∧
      p.2 = joinResult outcome ∧ (id = none → p.2 = .error .threadPanic) ∧
      ∀ id', id = some id' → id' ∉ s.lib.threads) ∧
    (s.joined.map (·.1)).Nodup := by
  have hinv := inv_of_reach h
  refine ⟨fun k id hk => ?_, fun p hp => ?_, hinv.joined_nodup⟩
  · obtain ⟨o, ho, hok⟩ := hinv.phases k _ hk
    have howned : id ∈ o.owned := hok
    have hid : id ∈ o.held := List.mem_append_left _ howned
    exact ⟨hinv.held.mem ho hid, ⟨o, ho, howned⟩,
      fun j o' ho' hid' => hinv.held.unique ho' ho hid' hid⟩
  · obtain ⟨id, outcome, hk, hr⟩ := hinv.joined p hp
    obtain ⟨o, -, -, hnone, hgone⟩ := hinv.phases p.1 _ hk
    refine ⟨id, outcome, hk, hr, fun hid => ?_, fun id' hid' => (hgone id' hid').1⟩
    rw [hr, hnone hid]
    rfl

/-- A thread that was spawned and joined. -/
theorem join_result_one : ∃ s : State Nat, s.joined = [(0, .ok 42)] ∧
    ∃ id outcome, s.spawned[0]? = some (.ended id outcome) ∧ .ok 42 = joinResult outcome := by
  obtain ⟨s, hs, hp⟩ := Lts.exists_of_run (M := lts Nat)
    [.lib (.current 0 [97]), .lib (.initRet 0 0), .lib (.attach 0), .lib (.create 0 false),
     .lib (.setThread 0), .spawn 0 [98], .lib (.attach 1), .lib (.create 1 false),
     .lib (.setThread 1), .attachRet 0, .closureRet 0 (some 42), .lib (.pollExit 1 true),
     .lib (.clearThread 1), .lib (.destroy 1), .lib (.count 1), .exit 0, .join 0]
    (fun s => decide (s.joined = [(0, .ok 42)])) (by decide)
  have hjoined := of_decide_eq_true hp
  obtain ⟨-, hresult, -⟩ := join_result hs
  obtain ⟨id, outcome, hk, hr, -⟩ := hresult (0, .ok 42) (by rw [hjoined]; simp)
  exact ⟨s, hjoined, id, outcome, hk, hr⟩

end SpdkIo.Thread.Spawn
