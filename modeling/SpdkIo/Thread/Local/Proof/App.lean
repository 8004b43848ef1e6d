import SpdkIo.Thread.Local.App
import SpdkIo.Thread.Local.Proof.Exits

/-!
# Who initialises the thread library

`flagTracksLibrary_iff`: `THREAD_LIB_INITIALIZED` says whether the thread library is initialised
exactly in the runs in which the flag is lowered whenever an application starts and whenever one
ends. The operations on threads keep the two together; `start_callback` raises the flag for the
framework, and nothing lowers it when the framework finalises the library.
-/

namespace SpdkIo.Thread.Local

variable {s s' : State}

/-- The flag says whether the library is initialised, and every function that asked it initialised
the library exactly if it was not: never twice, and never skipping what it needs. -/
structure FlagTracksLibrary (s : State) : Prop where
  flag : s.flag = s.ready
  inits : ∀ i ∈ s.inits, i.called = !i.ready

/-- One more entry of the log. -/
theorem FlagTracksLibrary.append (h : FlagTracksLibrary s) {i : Init} (hi : i.called = !i.ready) :
    ∀ j ∈ s.inits ++ [i], j.called = !j.ready := by
  intro j hj
  rcases List.mem_append.1 hj with hj | hj
  · exact h.inits j hj
  · obtain rfl := List.mem_singleton.1 hj
    exact hi

/-! ## Operations on threads -/

theorem LibInit.tracks {rc : Int32} {r : Result Unit × State} (hi : LibInit s rc r)
    (h : FlagTracksLibrary s) : FlagTracksLibrary r.2 := by
  have hready := h.flag
  cases hi with
  | already hf =>
    rw [hf] at hready
    exact ⟨h.flag, h.append (by rw [← hready]; rfl)⟩
  | failed hf _ =>
    rw [hf] at hready
    exact ⟨h.flag, h.append (by rw [← hready]; rfl)⟩
  | ok hf _ =>
    rw [hf] at hready
    exact ⟨rfl, h.append (by rw [← hready]; rfl)⟩

theorem Attached.tracks {name : List UInt8} {null : Bool} {r : Result SpdkId × State}
    (ha : Attached s name null r) (h : FlagTracksLibrary s) : FlagTracksLibrary r.2 := by
  cases ha with
  | failed _ => exact h
  | ok _ _ => exact ⟨h.flag, h.inits⟩

theorem Current.tracks {name : List UInt8} {rc : Int32} {null : Bool} {r : Result SpdkId × State}
    (hc : Current s name rc null r) (h : FlagTracksLibrary s) : FlagTracksLibrary r.2 := by
  cases hc with
  | failed hf hrc =>
    have hinit : LibInit s rc (.error .notInitialized, _) := .failed hf hrc
    exact hinit.tracks h
  | attach hinit hatt => exact hatt.tracks (hinit.tracks h)

/-- Every operation on threads keeps the flag with the library. -/
theorem FlagTracksLibrary.step (h : FlagTracksLibrary s) {a : Action} (hs : s.step a = some s') :
    FlagTracksLibrary s' := by
  cases a with
  | current name rc null =>
    obtain rfl := Option.some.inj hs
    exact (currentBy_exits s .libInit name rc null).tracks h
  | currentWithMempoolSize name size rc null =>
    obtain rfl := Option.some.inj hs
    exact (currentBy_exits s (.libInitExt size) name rc null).tracks h
  | attach name null =>
    obtain rfl := Option.some.inj hs
    exact (attached s name null).tracks h
  | poll id =>
    obtain rfl := poll_eq_some hs
    exact h
  | drop id polls =>
    have hd := dropped hs
    refine ⟨?_, by rw [hd.inits]; exact h.inits⟩
    obtain ⟨hf, hr⟩ | ⟨-, hf, hr⟩ := hd.library
    · rw [hf, hr]
      exact h.flag
    · rw [hf, hr]

/-! ## The framework -/

variable {t t' : AppState}

/-- An application starts, and ends, with the flag lowered. -/
def FlagLowered (t : AppState) : AppAction → Prop
  | .run b _ _ _ | .runFailed b _ _ _ => b.NulFree → t.os.flag = false
  | .runRet _ _ => t.os.flag = false
  | .thread _ => True

instance (t : AppState) : ∀ a, Decidable (FlagLowered t a)
  | .run b _ _ _ | .runFailed b _ _ _ => inferInstanceAs (Decidable (b.NulFree → t.os.flag = false))
  | .runRet _ _ => inferInstanceAs (Decidable (t.os.flag = false))
  | .thread _ => .isTrue trivial

/-- After `spdk_app_fini` the flag is right exactly if it is lowered. -/
theorem fini_tracks_iff (h : FlagTracksLibrary t.os) (left : List SpdkId)
    (thread : Option SpdkId) :
    FlagTracksLibrary (t.spdkAppFini left thread).os ↔ t.os.flag = false :=
  ⟨fun h' => h'.flag, fun hf => ⟨hf, h.inits⟩⟩

/-- A step keeps the flag right exactly if it meets `FlagLowered`. -/
theorem flagTracksLibrary_step (h : FlagTracksLibrary t.os) {a : AppAction}
    (hs : t.step a = some t') : FlagTracksLibrary t'.os ↔ FlagLowered t a := by
  cases a with
  | thread a =>
    obtain ⟨os, hos, rfl⟩ := Option.map_eq_some_iff.1 hs
    exact iff_of_true (h.step hos) trivial
  | run b defaults created thread =>
    simp only [AppState.step, AppState.run] at hs
    by_cases hb : b.NulFree
    · obtain ⟨opts, ho⟩ := b.opts_of_nulFree hb defaults
      rw [ho] at hs
      obtain rfl := Option.some.inj hs
      constructor
      · intro h' _
        -- the framework's own initialisation is the last entry of the log
        have hlast := h'.inits ⟨true, t.os.ready⟩
          (List.mem_append_right _ (List.mem_singleton_self _))
        have hready : t.os.ready = false := by simpa using hlast.symm
        rw [h.flag, hready]
      · intro hf
        have hready : t.os.ready = false := by rw [← h.flag, hf hb]
        exact ⟨rfl, h.append (by rw [hready]; rfl)⟩
    · obtain ⟨e, he⟩ := b.opts_of_not hb defaults
      rw [he] at hs
      obtain rfl := Option.some.inj hs
      exact iff_of_true h fun hn => absurd hn hb
  | runFailed b defaults left thread =>
    simp only [AppState.step, AppState.runFailed] at hs
    by_cases hb : b.NulFree
    · obtain ⟨opts, ho⟩ := b.opts_of_nulFree hb defaults
      rw [ho] at hs
      obtain rfl := Option.some.inj hs
      exact (fini_tracks_iff h left thread).trans ⟨fun hf _ => hf, fun hf => hf hb⟩
    · obtain ⟨e, he⟩ := b.opts_of_not hb defaults
      rw [he] at hs
      obtain rfl := Option.some.inj hs
      exact iff_of_true h fun hn => absurd hn hb
  | runRet left thread =>
    simp only [AppState.step, AppState.runRet] at hs
    split at hs
    · obtain rfl := Option.some.inj hs
      exact fini_tracks_iff h left thread
    · cases hs

/-- **The flag tracks the library** exactly in the runs in which it is lowered whenever an
application starts and whenever one ends. -/
theorem flagTracksLibrary_iff {t : AppState} :
    appLts.ReachBy FlagLowered t ↔ appLts.ReachIn (fun t => FlagTracksLibrary t.os) t := by
  have h0 : FlagTracksLibrary appLts.init.os := ⟨rfl, fun i hi => by cases hi⟩
  exact Lts.reachBy_iff_reachIn (P := fun t : AppState => FlagTracksLibrary t.os) h0
    fun _ hp hs => flagTracksLibrary_step hp hs

/-- After an application of which nothing is left but the flag, a thread is created without the
initialisation it needs. -/
theorem not_flagTracksLibrary : ¬ ∀ t, appLts.Reach t → FlagTracksLibrary t.os := by
  intro hall
  let d : AppOpts := ⟨none, none, none, false, none, none, 0, 0, -1, false, false, .notice⟩
  obtain ⟨t, ht, hp⟩ := Lts.exists_of_run (M := appLts)
    [.run .new d 1 (some 0), .runRet [] none, .thread (.current [97] 0 false)]
    (fun t => decide (t.os.inits = [⟨true, false⟩, ⟨false, false⟩])) (by decide)
  have hlast := (hall t ht).inits ⟨false, false⟩ (by rw [of_decide_eq_true hp]; simp)
  cases hlast

end SpdkIo.Thread.Local
