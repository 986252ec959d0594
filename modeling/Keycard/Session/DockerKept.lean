import Keycard.Session.DockerKeep

/-!
# What a failed pause leaves

A teardown ends with the container frozen and kept, or removed and not kept, except where `container.pause()`
raises a `DockerException`: then a running container is registered as a paused one.
-/

open Reasoning

namespace Keycard.Docker

namespace KeepTeardown

variable {username : String} {containerId : Nat} {es : List KeepTeardownEvent} {s t : KeepTeardown}

/-- What the events so far say about a teardown, by where it is. -/
inductive Traced (username : String) (containerId : Nat) (es : List KeepTeardownEvent) (s : KeepTeardown) : Prop
  | before (hpoint : s.point = .created ∨ s.point = .pausing .queued ∨ s.point = .pausing (.running ()))
      (hswallows : ¬ Happened KeepTeardownEvent.swallows es) (hraises : ¬ Happened KeepTeardownEvent.raises es)
      (hremoves : ¬ Happened KeepTeardownEvent.removes es) (hroom : s.room = .initial)
      (hunkept : s.point ≠ .created → s.Unkept containerId)
  | paused (reply : DockerReply Unit) (hpoint : s.point = .pausing (.finished reply))
      (hswallows : Happened KeepTeardownEvent.swallows es ↔
        (KeepTeardownEvent.pauseEnds reply s.frozen).swallows = true)
      (hraises : Happened KeepTeardownEvent.raises es ↔ reply = .raised)
      (hremoves : ¬ Happened KeepTeardownEvent.removes es) (hroom : s.room = .initial)
      (hfrozen : reply = .returned () → s.frozen = true) (hunkept : s.Unkept containerId)
  | destroying (hpoint : s.point = .destroying ∨ s.point = .ended)
      (hswallows : ¬ Happened KeepTeardownEvent.swallows es) (hraises : Happened KeepTeardownEvent.raises es)
      (hremoves : s.room.container = false ↔ Happened KeepTeardownEvent.removes es)
      (hunkept : s.Unkept containerId)
  | kept (hpoint : s.point = .ended) (hswallows : Happened KeepTeardownEvent.swallows es ↔ s.frozen = false)
      (hraises : ¬ Happened KeepTeardownEvent.raises es)
      (hkept : ∃ kept, s.kept.byUsername.get? username = some kept ∧ kept.containerId = containerId)

theorem traced_initial : Traced username containerId [] initial :=
  .before (.inl rfl) (not_happened_nil _) (not_happened_nil _) (not_happened_nil _) rfl
    fun h ↦ absurd rfl h

/-! ## The registry -/

theorem unkept_iff : s.unkept containerId = true ↔ s.Unkept containerId := by
  unfold unkept Unkept
  rw [List.all_eq_true]
  constructor
  · intro h name kept hget
    exact of_decide_eq_true (h (name, kept) (Dict.mem_items_iff.mpr hget))
  · rintro h ⟨name, kept⟩ hm
    exact decide_eq_true (h name kept (Dict.mem_items_iff.mp hm))

theorem Unkept.of_same (h : s.Unkept containerId) (hsame : t.kept.byUsername = s.kept.byUsername) :
    t.Unkept containerId := by
  intro name kept hget
  rw [hsame] at hget
  exact h name kept hget

theorem foreign_registers {name : String} {kept : DockerKept} (hcreated : s.point ≠ .created)
    (h : s.foreign username containerId (.pauseEnds name (.returned kept)) = true) :
    kept.containerId ≠ containerId := by
  cases hpoint : s.point with
  | created => exact absurd hpoint hcreated
  | _ =>
    simp only [foreign, hpoint, Bool.and_eq_true] at h
    exact of_decide_eq_true h.2

/-- The others register no other `Kept` of this container. -/
theorem Unkept.elsewhere (h : s.Unkept containerId) {e : KeptEvent String DockerKept}
    {kept : KeptRooms String DockerKept} (hcreated : s.point ≠ .created)
    (hforeign : s.foreign username containerId e = true)
    (hstep : s.kept.step e = some kept) : Unkept { s with kept := kept } containerId := by
  have hchange := KeptRooms.step_change hstep
  have hregisters {name : String} {k : DockerKept} (hreg : e.registers = some (name, k)) :
      k.containerId ≠ containerId := by
    unfold KeptEvent.registers at hreg
    split at hreg
    · cases hreg
      exact foreign_registers hcreated hforeign
    · cases hreg
  intro name k hget
  generalize hreg : e.registers = registered at hchange
  cases hchange with
  | same hb =>
    rw [hb] at hget
    exact h name k hget
  | removed u k' f hu hf hb =>
    rw [hb, Dict.get?_erase, Function.update_apply] at hget
    split at hget
    · cases hget
    · exact h name k hget
  | registered u k' hnew hb =>
    rw [hb, Dict.get?_set, Function.update_apply] at hget
    split at hget
    · cases hget
      exact hregisters hreg
    · exact h name k hget

theorem keep_same {kept : KeptRooms String DockerKept} (h : s.kept.step (.keep username) = some kept) :
    kept.byUsername = s.kept.byUsername := by
  cases h
  rfl

theorem pauseEnds_raised_same {kept : KeptRooms String DockerKept}
    (h : s.kept.step (.pauseEnds username .raised) = some kept) : kept.byUsername = s.kept.byUsername := by
  simp only [KeptRooms.step] at h
  split at h
  · cases h
    rfl
  · cases h

theorem pauseEnds_returned_get {kept : KeptRooms String DockerKept} {k : DockerKept}
    (h : s.kept.step (.pauseEnds username (.returned k)) = some kept) :
    kept.byUsername.get? username = some k := by
  have hchange := KeptRooms.step_change h
  generalize hreg : (KeptEvent.pauseEnds username (.returned k)).registers = registered at hchange
  cases hchange with
  | same | removed => cases hreg
  | registered u k' hnew hb =>
    cases hreg
    rw [hb, Dict.get?_set, Function.update_self]

end KeepTeardown

/-! ## The fallback -/

theorem ThreadStep.container {e : DestroyEvent} {s t : DestroyCalls} (h : ThreadStep e s t) :
    t.container = false ↔ s.container = false ∨ (e.findsNone || e.removes) = true := by
  cases h with
  | goesOn p hfinds hfails hremoves => simp [DestroyCalls.go, hfinds, hremoves]
  | findsNone p hfinds hfails hremoves => simp [DestroyCalls.go, hfinds]
  | fails result hfinds hfails hremoves => simp [DestroyCalls.finish, hfinds, hremoves]
  | removes status hgone hfails =>
    rcases hgone with hgone | hgone <;> simp [DestroyCalls.finish, hgone]

theorem byThread_container {e : DestroyEvent} {s t : DestroyCalls} (hthread : KeepTeardown.byThread e = true)
    (h : s.step e = some t) :
    t.container = false ↔ s.container = false ∨ (e.findsNone || e.removes) = true := by
  unfold KeepTeardown.byThread at hthread
  split at hthread
  · simp only [DestroyCalls.step] at h
    split at h <;> cases h
    simp [DestroyCalls.go, DestroyEvent.findsNone, DestroyEvent.removes]
  · simp only [DestroyCalls.step] at h
    split at h <;> cases h
    exact (afterReload_step _ _ _).container
  · simp only [DestroyCalls.step] at h
    split at h <;> cases h
    exact (afterKill_step _ _).container
  · simp only [DestroyCalls.step] at h
    split at h <;> cases h
    exact (afterRemove_step _ _ _).container
  · cases hthread

theorem resumes_container {s t : DestroyCalls} {n : Nat} (h : s.step (.resumes n) = some t) :
    t.container = s.container := by
  simp only [DestroyCalls.step] at h
  split at h <;> cases h <;> rfl

theorem container_destroy : DestroyCalls.initial.destroy.container = true := rfl

/-! ## One step, and a run -/

namespace KeepTeardown

variable {username : String} {containerId : Nat} {es : List KeepTeardownEvent} {e : KeepTeardownEvent}
  {s t : KeepTeardown}

theorem happened_of_not {p : KeepTeardownEvent → Bool} (h : p e = false) :
    Happened p (es ++ [e]) ↔ Happened p es := by
  rw [happened_append, h]
  simp

/-- An event that tells nothing about `container.pause()` or the fallback. -/
theorem Traced.quiet (h : Traced username containerId es s) (hs : e.swallows = false) (hr : e.raises = false)
    (hm : e.removes = false) : Traced username containerId (es ++ [e]) s := by
  have hs : Happened KeepTeardownEvent.swallows (es ++ [e]) ↔ _ := happened_of_not hs
  have hr : Happened KeepTeardownEvent.raises (es ++ [e]) ↔ _ := happened_of_not hr
  have hm : Happened KeepTeardownEvent.removes (es ++ [e]) ↔ _ := happened_of_not hm
  cases h with
  | before hpoint hswallows hraises hremoves hroom hunkept =>
    exact .before hpoint (mt hs.mp hswallows) (mt hr.mp hraises) (mt hm.mp hremoves) hroom hunkept
  | paused reply hpoint hswallows hraises hremoves hroom hfrozen hunkept =>
    exact .paused reply hpoint (hs.trans hswallows) (hr.trans hraises) (mt hm.mp hremoves) hroom hfrozen hunkept
  | destroying hpoint hswallows hraises hremoves hunkept =>
    exact .destroying hpoint (mt hs.mp hswallows) (hr.mpr hraises) (hremoves.trans hm.symm) hunkept
  | kept hpoint hswallows hraises hkept =>
    exact .kept hpoint (hs.trans hswallows) (mt hr.mp hraises) hkept

theorem Traced.starts (h : Traced username containerId es s) (hpoint : s.point = .created)
    (hunkept : s.Unkept containerId) {kept : KeptRooms String DockerKept}
    (hkept : s.kept.step (.keep username) = some kept) :
    Traced username containerId es { s with kept := kept, point := .pausing .queued } := by
  cases h with
  | before _ hswallows hraises hremoves hroom =>
    exact .before (.inr (.inl rfl)) hswallows hraises hremoves hroom fun _ ↦ hunkept.of_same (keep_same hkept)
  | paused | destroying | kept => simp_all

theorem Traced.threadStarts (h : Traced username containerId es s) (hpoint : s.point = .pausing .queued) :
    Traced username containerId es { s with point := .pausing (.running ()) } := by
  cases h with
  | before _ hswallows hraises hremoves hroom hunkept =>
    exact .before (.inr (.inr rfl)) hswallows hraises hremoves hroom fun _ ↦ hunkept (by simp [hpoint])
  | paused | destroying | kept => simp_all

/-- `container.pause()` comes back, and so far nobody has looked at how. -/
theorem Traced.pauseEnds (h : Traced username containerId es s) (hpoint : s.point = .pausing (.running ()))
    {reply : DockerReply Unit} {frozen : Bool} (hfrozen : reply = .returned () → frozen = true) :
    Traced username containerId (es ++ [KeepTeardownEvent.pauseEnds reply frozen])
      { s with frozen := frozen, point := .pausing (.finished reply) } := by
  cases h with
  | before _ hswallows hraises hremoves hroom hunkept =>
    refine .paused reply rfl ?_ ?_ (mt (happened_of_not rfl).mp hremoves) hroom hfrozen (hunkept (by simp [hpoint]))
    · rw [happened_append, or_iff_right hswallows]
    · rw [happened_append, or_iff_right hraises]
      cases reply <;> simp [KeepTeardownEvent.raises]
  | paused | destroying | kept => simp_all

theorem pause_eq (kept : DockerKept) (reply : DockerReply Unit) :
    pause kept reply = if reply = .raised then .raised else .returned kept := by
  cases reply <;> rfl

/-- `keep` has what `pause` returned, and registers it; only an exception makes the teardown destroy. -/
theorem Traced.resumes (h : Traced username containerId es s) {reply : DockerReply Unit}
    (hpoint : s.point = .pausing (.finished reply)) {object : Nat} {kept : KeptRooms String DockerKept}
    (hkept : s.kept.step (.pauseEnds username (pause ⟨object, containerId⟩ reply)) = some kept) :
    Traced username containerId es (s.afterKeep kept (pause ⟨object, containerId⟩ reply)) := by
  cases h with
  | paused reply' hpoint' hswallows hraises hremoves hroom hfrozen hunkept =>
    obtain rfl : reply' = reply := by
      rw [hpoint] at hpoint'
      cases hpoint'
      rfl
    rw [pause_eq] at hkept ⊢
    split at hkept
    · rename_i hraised
      rw [if_pos hraised]
      subst hraised
      refine .destroying (.inl rfl) (fun hs ↦ ?_) (hraises.mpr rfl) ?_
        (hunkept.of_same (pauseEnds_raised_same hkept))
      · cases hswallows.mp hs
      · simp [afterKeep, hroom, container_destroy, hremoves]
    · rename_i hraised
      rw [if_neg hraised]
      refine .kept rfl ?_ (mt hraises.mp hraised) ⟨_, pauseEnds_returned_get hkept, rfl⟩
      rw [hswallows]
      cases reply' <;> simp_all [KeepTeardownEvent.swallows, afterKeep]
  | before | destroying | kept => simp_all

/-- The fallback goes on in its thread. -/
theorem Traced.destroys (h : Traced username containerId es s) (hpoint : s.point = .destroying)
    {e : DestroyEvent} (hthread : byThread e = true) {room : DestroyCalls} (hroom : s.room.step e = some room) :
    Traced username containerId (es ++ [KeepTeardownEvent.destroys e]) { s with room := room } := by
  cases h with
  | destroying _ hswallows hraises hremoves hunkept =>
    refine .destroying (.inl hpoint) (mt (happened_of_not rfl).mp hswallows)
      ((happened_of_not rfl).mpr hraises) ?_ hunkept
    rw [happened_append, ← hremoves]
    exact byThread_container hthread hroom
  | before | paused | kept => simp_all

theorem Traced.checkedOut (h : Traced username containerId es s) (hpoint : s.point = .destroying)
    {room : DestroyCalls} (hroom : s.room.step (.resumes 0) = some room) :
    Traced username containerId es { s with room := room, point := .ended } := by
  cases h with
  | destroying _ hswallows hraises hremoves hunkept =>
    refine .destroying (.inr rfl) hswallows hraises ?_ hunkept
    rw [resumes_container hroom]
    exact hremoves
  | before | paused | kept => simp_all

/-- The others do not touch what this teardown will find. -/
theorem Traced.elsewhere (h : Traced username containerId es s) {e : KeptEvent String DockerKept}
    (hended : s.point ≠ .ended) (hforeign : s.foreign username containerId e = true)
    {kept : KeptRooms String DockerKept} (hkept : s.kept.step e = some kept) :
    Traced username containerId es { s with kept := kept } := by
  cases h with
  | before hpoint hswallows hraises hremoves hroom hunkept =>
    exact .before hpoint hswallows hraises hremoves hroom fun hcreated ↦
      (hunkept hcreated).elsewhere hcreated hforeign hkept
  | paused reply hpoint hswallows hraises hremoves hroom hfrozen hunkept =>
    exact .paused reply hpoint hswallows hraises hremoves hroom hfrozen
      (hunkept.elsewhere (by simp [hpoint]) hforeign hkept)
  | destroying hpoint hswallows hraises hremoves hunkept =>
    exact .destroying hpoint hswallows hraises hremoves
      (hunkept.elsewhere (by rcases hpoint with hp | hp <;> simp [hp]) hforeign hkept)
  | kept hpoint => exact absurd hpoint hended

theorem Traced.step (h : Traced username containerId es s) (hst : s.step username containerId e = some t) :
    Traced username containerId (es ++ [e]) t := by
  cases e with
  | starts =>
    simp only [KeepTeardown.step] at hst
    split at hst
    · split at hst
      · rename_i hpoint hunkept
        obtain ⟨kept, hkept, rfl⟩ := Option.map_eq_some_iff.mp hst
        exact (h.starts hpoint (unkept_iff.mp hunkept) hkept).quiet rfl rfl rfl
      · cases hst
    · cases hst
  | threadStarts =>
    simp only [KeepTeardown.step] at hst
    split at hst <;> cases hst
    rename_i hpoint
    exact (h.threadStarts hpoint).quiet rfl rfl rfl
  | pauseEnds reply frozen =>
    simp only [KeepTeardown.step] at hst
    split at hst
    · split at hst <;> cases hst
      rename_i hpoint hreply
      exact h.pauseEnds hpoint (by simpa using hreply)
    · cases hst
  | resumes object =>
    simp only [KeepTeardown.step] at hst
    split at hst
    · rename_i hpoint
      obtain ⟨kept, hkept, rfl⟩ := Option.map_eq_some_iff.mp hst
      exact (h.resumes hpoint hkept).quiet rfl rfl rfl
    · cases hst
  | destroys e =>
    simp only [KeepTeardown.step] at hst
    split at hst
    · split at hst
      · rename_i hpoint hthread
        obtain ⟨room, hroom, rfl⟩ := Option.map_eq_some_iff.mp hst
        exact h.destroys hpoint hthread hroom
      · cases hst
    · cases hst
  | checkedOut =>
    simp only [KeepTeardown.step] at hst
    split at hst
    · rename_i hpoint
      obtain ⟨room, hroom, rfl⟩ := Option.map_eq_some_iff.mp hst
      exact (h.checkedOut hpoint hroom).quiet rfl rfl rfl
    · cases hst
  | elsewhere e =>
    simp only [KeepTeardown.step] at hst
    split at hst
    · cases hst
    · split at hst
      · rename_i hended hforeign
        obtain ⟨kept, hkept, rfl⟩ := Option.map_eq_some_iff.mp hst
        exact (h.elsewhere hended hforeign hkept).quiet rfl rfl rfl
      · cases hst

theorem run_traced (h : (keepMachine username containerId).run .initial es = some s) :
    Traced username containerId es s :=
  Machine.run_induction h traced_initial fun _ _ _ _ ht hst ↦ ht.step hst

/-- A teardown leaves the room paused and kept, or gone and not kept, exactly if `container.pause()` does
not fail in the way `DockerRoom.pause` forgets, and if it fails in another way, the fallback comes to its
end. -/
theorem settled_iff_not_swallowed (h : (keepMachine username containerId).run .initial es = some s)
    (hended : s.point = .ended) :
    s.Settled username containerId ↔
      ¬ Happened KeepTeardownEvent.swallows es ∧
        (Happened KeepTeardownEvent.raises es → Happened KeepTeardownEvent.removes es) := by
  cases run_traced h with
  | before hpoint => simp_all
  | paused reply hpoint => simp_all
  | destroying hpoint hswallows hraises hremoves hunkept =>
    constructor
    · rintro (⟨-, kept, hget, hid⟩ | ⟨hgone, -⟩)
      · exact absurd hid (hunkept _ _ hget)
      · exact ⟨hswallows, fun _ ↦ hremoves.mp hgone⟩
    · rintro ⟨-, hfallback⟩
      exact .inr ⟨hremoves.mpr (hfallback hraises), hunkept⟩
  | kept hpoint hswallows hraises hkept =>
    constructor
    · rintro (⟨hfrozen, -⟩ | ⟨-, hunkept⟩)
      · refine ⟨fun hs ↦ ?_, fun hr ↦ absurd hr hraises⟩
        rw [hswallows.mp hs] at hfrozen
        cases hfrozen
      · obtain ⟨kept, hget, hid⟩ := hkept
        exact absurd hid (hunkept _ _ hget)
    · rintro ⟨hs, -⟩
      refine .inl ⟨?_, hkept⟩
      rw [hswallows] at hs
      exact (Bool.not_eq_false _).mp hs

/-- A disconnect from a container that freezes. -/
def freezes : List KeepTeardownEvent :=
  [.starts, .threadStarts, .pauseEnds (.returned ()) true, .resumes 0]

theorem freezes_settled : ∃ s, (keepMachine "python" 7).run .initial freezes = some s ∧
    s.frozen = true ∧ s.Settled "python" 7 := by
  have hrun : (keepMachine "python" 7).run .initial freezes = some _ := rfl
  exact ⟨_, hrun, rfl, (settled_iff_not_swallowed hrun rfl).mpr (by decide)⟩

/-- The same, but the container has exited, or the runtime cannot freeze it. -/
def cannotFreeze : List KeepTeardownEvent :=
  [.starts, .threadStarts, .pauseEnds .dockerException false, .resumes 0]

theorem cannotFreeze_kept : ¬ ∀ (username : String) (containerId : Nat) (es : List KeepTeardownEvent)
    (s : KeepTeardown), (keepMachine username containerId).run .initial es = some s → s.point = .ended →
      s.Settled username containerId := by
  intro h
  rcases h "python" 7 cannotFreeze _ rfl rfl with ⟨hfrozen, -⟩ | ⟨hgone, -⟩
  · cases hfrozen
  · cases hgone

end KeepTeardown

end Keycard.Docker
