import SpdkIo.Thread.Local.Proof.Exits

/-!
# The current thread and drops

`dropsKeep_iff`: the drop of an `SpdkThread` leaves the current thread of the OS thread alone,
unless it is the dropped one, exactly in the runs that never drop a thread while another one is
current. `SpdkThread::drop` clears the current thread whichever it is.
-/

namespace SpdkIo.Thread.Local

variable {s s' : State}

/-- Every drop so far left `get_current` as it was, or dropped the current thread. -/
def DropsKeep (s : State) : Prop := ∀ d ∈ s.drops, d.before ≠ some d.id → d.after = d.before

/-- A thread is dropped when it is the current one, or when there is none. -/
def DropsCurrent (s : State) : Action → Prop
  | .drop id _ => s.getCurrent = none ∨ s.getCurrent = some id
  | _ => True

instance (s : State) : ∀ a, Decidable (DropsCurrent s a)
  | .drop id _ => inferInstanceAs (Decidable (s.getCurrent = none ∨ s.getCurrent = some id))
  | .current _ _ _ | .currentWithMempoolSize _ _ _ _ | .attach _ _ | .poll _ => .isTrue trivial

/-! ## Creation -/

theorem LibInit.same {rc : Int32} {r : Result Unit} (h : LibInit s rc (r, s')) :
    s'.thread = s.thread ∧ s'.owned = s.owned ∧ s'.drops = s.drops := by
  cases h with
  | already _ => exact ⟨rfl, rfl, rfl⟩
  | failed _ _ => exact ⟨rfl, rfl, rfl⟩
  | ok _ _ => exact ⟨rfl, rfl, rfl⟩

/-- The current thread is one of the `SpdkThread` values. -/
def CurrentOwned (s : State) : Prop := ∀ id, s.getCurrent = some id → id ∈ s.owned

/-- A creation: its thread is the current one, or it failed and nothing changed. -/
structure Created (s s' : State) : Prop where
  drops : s'.drops = s.drops
  thread : (s'.thread = s.thread ∧ s'.owned = s.owned) ∨
    ∃ id, s'.thread = some id ∧ id ∈ s'.owned

theorem Attached.created {name : List UInt8} {null : Bool} {r : Result SpdkId × State}
    (h : Attached s name null r) : Created s r.2 := by
  cases h with
  | failed _ => exact ⟨rfl, .inl ⟨rfl, rfl⟩⟩
  | ok _ _ => exact ⟨rfl, .inr ⟨_, rfl, List.mem_append_right _ (List.mem_singleton_self _)⟩⟩

theorem Current.created {name : List UInt8} {rc : Int32} {null : Bool} {r : Result SpdkId × State}
    (h : Current s name rc null r) : Created s r.2 := by
  cases h with
  | failed _ _ => exact ⟨rfl, .inl ⟨rfl, rfl⟩⟩
  | attach hinit hatt =>
    obtain ⟨hthread, howned, hdrops⟩ := hinit.same
    obtain ⟨hd, ⟨ht, ho⟩ | hnew⟩ := hatt.created
    · exact ⟨hd.trans hdrops, .inl ⟨ht.trans hthread, ho.trans howned⟩⟩
    · exact ⟨hd.trans hdrops, .inr hnew⟩

/-- What a step does to the current thread. -/
theorem step_current {a : Action} (hs : s.step a = some s') :
    (∃ id polls, a = .drop id polls ∧ Dropped s id s') ∨
      ((∀ id polls, a ≠ .drop id polls) ∧ Created s s') := by
  cases a with
  | current name rc null =>
    obtain rfl := Option.some.inj hs
    exact .inr ⟨fun _ _ he => (by cases he), (currentBy_exits s .libInit name rc null).created⟩
  | currentWithMempoolSize name size rc null =>
    obtain rfl := Option.some.inj hs
    exact .inr ⟨fun _ _ he => (by cases he),
      (currentBy_exits s (.libInitExt size) name rc null).created⟩
  | attach name null =>
    obtain rfl := Option.some.inj hs
    exact .inr ⟨fun _ _ he => (by cases he), (attached s name null).created⟩
  | poll id =>
    obtain rfl := poll_eq_some hs
    exact .inr ⟨fun _ _ he => (by cases he), rfl, .inl ⟨rfl, rfl⟩⟩
  | drop id polls => exact .inl ⟨id, polls, rfl, dropped hs⟩

/-! ## Runs -/

theorem CurrentOwned.step (h : CurrentOwned s) {a : Action} (hs : s.step a = some s') :
    CurrentOwned s' := by
  obtain ⟨id, polls, -, hd⟩ | ⟨-, hc⟩ := step_current hs
  · intro u hu
    cases hd.thread.symm.trans hu
  · intro u hu
    obtain ⟨ht, ho⟩ | ⟨id, ht, hm⟩ := hc.thread
    · rw [ho]
      exact h u (ht.symm.trans hu)
    · obtain rfl := Option.some.inj (ht.symm.trans hu)
      exact hm

/-- A step keeps `DropsKeep` exactly if it meets `DropsCurrent`. -/
theorem dropsKeep_step (h : DropsKeep s) {a : Action} (hs : s.step a = some s') :
    DropsKeep s' ↔ DropsCurrent s a := by
  obtain ⟨id, polls, rfl, hd⟩ | ⟨hne, hc⟩ := step_current hs
  · have hafter : s'.getCurrent = none := hd.thread
    have hlog := hd.drops
    rw [hafter] at hlog
    constructor
    · intro hk
      by_cases hcur : s.getCurrent = some id
      · exact .inr hcur
      · have := hk ⟨s.getCurrent, id, none⟩ (by rw [hlog]; simp) hcur
        exact .inl this.symm
    · intro hg d hmem hb
      rw [hlog] at hmem
      rcases List.mem_append.1 hmem with hmem | hmem
      · exact h d hmem hb
      · obtain rfl := List.mem_singleton.1 hmem
        rcases hg with hg | hg
        · exact hg.symm
        · exact absurd hg hb
  · have hg : DropsCurrent s a := by
      cases a with
      | drop id polls => exact absurd rfl (hne id polls)
      | current _ _ _ | currentWithMempoolSize _ _ _ _ | attach _ _ | poll _ => trivial
    refine iff_of_true ?_ hg
    unfold DropsKeep
    rw [hc.drops]
    exact h

/-- **Drops keep the current thread** exactly in the runs that drop a thread only when it is the
current one, or when there is none; the current thread is always one that is alive, and the log
holds what `get_current` returns before and after each drop. -/
theorem dropsKeep_iff (s : State) :
    (lts.ReachBy DropsCurrent s ↔ lts.ReachIn DropsKeep s) ∧
    (lts.Reach s → ∀ id, s.getCurrent = some id → id ∈ s.owned) ∧
    ∀ id polls s', s.drop id polls = some s' →
      s'.drops = s.drops ++ [⟨s.getCurrent, id, s'.getCurrent⟩] := by
  have h0 : DropsKeep lts.init := fun d hd => by cases hd
  have hown : lts.Reach s → CurrentOwned s := fun h =>
    h.invariant (fun id hid => by cases hid) fun hi hs => hi.step hs
  exact ⟨Lts.reachBy_iff_reachIn h0 fun _ hp hs => dropsKeep_step hp hs, hown,
    fun id polls s' hs => (dropped hs).drops⟩

/-- The newer of two threads is dropped. -/
theorem dropsKeep_nested : ∃ s s' : State, lts.ReachIn DropsKeep s ∧ 1 ∈ s.owned ∧
    s'.drops = s.drops ++ [⟨some 1, 1, none⟩] := by
  obtain ⟨s, hs, hp⟩ := Lts.exists_of_runBy (M := lts) (G := DropsCurrent)
    [.current [97] 0 false, .currentWithMempoolSize [98] 1023 0 false, .poll 0]
    (fun s => decide (s.getCurrent = some 1 ∧ (s.drop 1 2).map State.getCurrent = some none))
    (by decide)
  obtain ⟨hcur, hdrop⟩ := of_decide_eq_true hp
  obtain ⟨s', hs', hnone⟩ := Option.map_eq_some_iff.1 hdrop
  have hin := (dropsKeep_iff s).1.1 hs
  have hlog := (dropsKeep_iff s).2.2 1 2 s' hs'
  rw [hcur, hnone] at hlog
  exact ⟨s, s', hin, (dropsKeep_iff s).2.1 hin.reach 1 hcur, hlog⟩

/-- Thread 0 is dropped while thread 1 is current: then no thread is. -/
theorem not_dropsKeep : ¬ ∀ s, lts.Reach s → DropsKeep s := by
  intro hall
  obtain ⟨s, hs, hp⟩ := Lts.exists_of_run (M := lts)
    [.current [97] 0 false, .current [98] 0 false, .drop 0 1]
    (fun s => decide (s.drops = [⟨some 1, 0, none⟩] ∧ s.owned = [1])) (by decide)
  obtain ⟨hdrops, -⟩ := of_decide_eq_true hp
  have := hall s hs ⟨some 1, 0, none⟩ (by rw [hdrops]; simp) (by decide)
  cases this

end SpdkIo.Thread.Local
