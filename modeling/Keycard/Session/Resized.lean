import Keycard.Session.Core
import Keycard.Session.TerminalSize
import Keycard.Session.Turn

/-!
# Whose size the room ends up at

While `open` or `resume` runs there is no room to forward a size to, and the size they were called with is
not looked at again.  Afterwards each change is forwarded as it came, and whichever call reaches the
container last decides.
-/

open Reasoning

namespace Keycard.Session

variable {ρ κ : Type}

/-! ## When a session has a room -/

/-- `open` or `resume` has yet to come back. -/
def Unopened (pump : Option (LoopTask (PumpPoint ρ κ))) : Prop :=
  pump = none ∨ (∃ c, pump = some (.created c)) ∨ ∃ kept c, pump = some (.suspended (.opening kept) c)

theorem unopened_of_cancel {pump : LoopTask (PumpPoint ρ κ)} (h : Unopened (some pump.cancel)) :
    Unopened (some pump) := by
  rcases h with h | ⟨c, h⟩ | ⟨kept, c, h⟩
  · cases h
  · cases pump with
    | created c => exact .inr (.inl ⟨c, rfl⟩)
    | suspended p c => cases h
    | ended how => cases h
  · cases pump with
    | created c => cases h
    | suspended p c =>
      cases h
      exact .inr (.inr ⟨kept, c, rfl⟩)
    | ended how => cases h

theorem not_unopened_ended (how : Outcome) : ¬ Unopened (some (.ended how) : Option (LoopTask (PumpPoint ρ κ))) := by
  rintro (h | ⟨c, h⟩ | ⟨kept, c, h⟩) <;> cases h

section

variable [Room ρ] {cfg : SessionConfig}

theorem Move.unopened {c d : Core ρ κ} {a : Act ρ κ} (hm : Move cfg c a d) (h : Unopened d.pump) :
    Unopened c.pump := by
  cases hm with
  | starts hp => exact .inl hp
  | cancelsPump pump hp => exact hp ▸ unopened_of_cancel h
  | pumpStarts kept hp => exact .inr (.inl ⟨false, hp⟩)
  | pumpEnds pump how hp => exact absurd h (not_unopened_ended how)
  | openCut kept hp => exact .inr (.inr ⟨kept, true, hp⟩)
  | resumeFails k b hp => exact .inr (.inr ⟨some k, b, hp⟩)
  | opensLate kept b room hp => exact .inr (.inr ⟨kept, b, hp⟩)
  | opens kept b room hp => exact .inr (.inr ⟨kept, b, hp⟩)
  | lateDestroyed | lateCut => exact absurd h (not_unopened_ended _)
  | reads room b p hp hpoint =>
    rcases h with h | ⟨c, h⟩ | ⟨kept, c, h⟩
    · cases h
    · cases h
    · cases h
      rcases hpoint with hpoint | hpoint <;> cases hpoint
  | _ => exact h

theorem unopened_of_step {s t : RoomSession ρ κ} {e : Event ρ κ} (h : step cfg s e = some t)
    (ht : Unopened t.pump) : Unopened s.pump := by
  have hmoves : Moves (Move cfg) (fun _ ↦ True) (core s) (core t) := (step_moves h).mono fun _ _ ↦ trivial
  refine hmoves.invariant (I := fun c ↦ Unopened c.pump → Unopened (core s).pump) id ?_ ht
  intro c a d hc _ hm hd
  exact hc (hm.unopened hd)

/-- A session has the room it had, or none, but for the end of `open` or `resume`. -/
theorem Turn.room {s t : RoomSession ρ κ} {e : Event ρ κ} (h : Turn cfg s e t) :
    t.room = s.room ∨ t.room = none ∨ ∃ room broken, e = .openEnds (.returned room) broken ∧ s.teardown = none := by
  cases h with
  | connectionLost => exact .inl (by rw [connectionLost_eq])
  | openEnds hp hreply =>
    rename_i kept c reply broken
    cases reply with
    | cancelled => exact .inl rfl
    | raised =>
      cases kept with
      | none =>
        left
        rw [RoomSession.afterOpen, noRoomAvailable_eq]
      | some k => exact .inl rfl
    | returned room =>
      unfold RoomSession.afterOpen
      simp only []
      split
      · exact .inr (.inl rfl)
      · exact .inr (.inr ⟨room, broken, rfl, ‹_›⟩)
  | destroyKeptEnds => exact .inl (by rw [afterDestroyKept_eq])
  | lateDestroyEnds => exact .inl (by rw [afterLateDestroy_eq])
  | readEnds => exact .inl (by rw [afterRead_eq])
  | pumpResumes => exact .inl (by rw [goodbye_eq, dequeue_eq])
  | watchdogRuns => exact .inl (by rw [idleWatchdog_eq])
  | watchdogResumes | closerResumes => exact .inl (by rw [dequeue_eq]; rfl)
  | closerStarts => exact .inl (by rw [forceClose_eq])
  | forceCloseTimeout => exact .inl (by rw [cancelCloser_eq])
  | teardownStarts => exact .inr (.inl (by rw [runTeardown_eq]))
  | keepEnds => exact .inl (by rw [afterKeep_eq])
  | destroyEnds => exact .inl (by rw [afterDestroy_eq])
  | _ => exact .inl rfl

end

/-! ## Which call was the last -/

/-- The size that the last of some calls is for, or the one the room was opened at. -/
def latest (resizes : List Resize) (size : Size) : Size :=
  ((resizes.map Resize.size).getLast?).getD size

theorem latest_concat (resizes : List Resize) (resize : Resize) (size : Size) :
    latest (resizes ++ [resize]) size = resize.size := by
  rw [latest, List.map_append, List.map_singleton, List.getLast?_concat, Option.getD_some]

/-- The calls before and after one of them. -/
theorem exists_split {resizes : List Resize} {i : Nat} {resize : Resize} (h : resizes[i]? = some resize) :
    ∃ before, resizes = before ++ resize :: resizes.drop (i + 1) ∧
      ∀ resize', resizes.set i resize' = before ++ resize' :: resizes.drop (i + 1) := by
  obtain ⟨hi, hget⟩ := List.getElem?_eq_some_iff.mp h
  refine ⟨resizes.take i, ?_, fun resize' ↦ List.set_eq_take_append_cons_drop.trans (if_pos hi)⟩
  rw [← hget, ← List.drop_eq_getElem_cons hi, List.take_append_drop]

/-- A call that goes on without reaching the container. -/
structure Resize.Silent (resize resize' : Resize) : Prop where
  size : resize'.size = resize.size
  applied : resize'.applied = resize.applied
  point : resize'.point = .back ∨ resize'.point = .ended ↔ resize.point = .back ∨ resize.point = .ended

theorem Resize.run_silent {resize resize' : Resize} (h : resize.run = some resize') : resize.Silent resize' := by
  unfold Resize.run at h
  split at h
  · rename_i hpoint
    cases h
    exact ⟨rfl, rfl, by simp [hpoint]⟩
  · rename_i hpoint
    cases h
    exact ⟨rfl, rfl, by simp [hpoint]⟩
  · cases h

theorem Resize.start_silent {resize resize' : Resize} (h : resize.start = some resize') :
    resize.Silent resize' := by
  unfold Resize.start at h
  split at h
  · rename_i hpoint
    cases h
    exact ⟨rfl, rfl, by simp [hpoint]⟩
  · cases h

namespace SizedSession

/-- Every call so far has either been made or will be, and sizes and calls agree in what comes last. -/
structure Fitted (s : SizedSession ρ κ) : Prop where
  recorded : s.size = latest s.resizes s.args
  applied : s.applied = some (latest (s.resizes.filter Resize.applied) s.args)
  done : ∀ resize ∈ s.resizes, resize.applied = true ↔ resize.point = .back ∨ resize.point = .ended

structure Sized (s : SizedSession ρ κ) : Prop where
  unopened : Unopened s.session.pump → s.session.room = none ∧ s.resizes = []
  opened : s.session.room ≠ none → s.Fitted

variable {s t : SizedSession ρ κ}

theorem Fitted.quiet (h : s.Fitted) (hquiet : ∀ resize ∈ s.resizes, resize.point = .ended) :
    s.applied = some s.size := by
  have hall : s.resizes.filter Resize.applied = s.resizes :=
    List.filter_eq_self.mpr fun resize hmem ↦ (h.done resize hmem).mpr (.inr (hquiet resize hmem))
  rw [h.applied, h.recorded, hall]

/-! ## One step -/

theorem Fitted.opened {session : RoomSession ρ κ} (hresizes : s.resizes = []) (hsize : s.size = s.args) :
    Fitted { s with session := session, applied := some s.args } where
  recorded := by rw [hresizes]; exact hsize
  applied := by rw [hresizes]; rfl
  done := by
    rw [hresizes]
    exact fun resize hmem ↦ absurd hmem List.not_mem_nil

theorem Fitted.changed (h : s.Fitted) {width height : Nat} (hwidth : width ≠ 0) (hheight : height ≠ 0) :
    Fitted { s with
      size := s.size.merge width height
      resizes := s.resizes ++ [⟨⟨width, height⟩, .created, false⟩] } where
  recorded := by
    rw [latest_concat, Size.merge, if_neg hwidth, if_neg hheight]
  applied := by
    rw [List.filter_append, List.filter_cons_of_neg Bool.false_ne_true, List.filter_nil, List.append_nil]
    exact h.applied
  done := by
    intro resize hmem
    rcases List.mem_append.mp hmem with hmem | hmem
    · exact h.done resize hmem
    · rw [List.mem_singleton.mp hmem]
      simp

theorem Fitted.advance (h : s.Fitted) {i : Nat} {resize resize' : Resize} (hget : s.resizes[i]? = some resize)
    (hsilent : resize.Silent resize') : Fitted { s with resizes := s.resizes.set i resize' } := by
  obtain ⟨before, heq, hset⟩ := exists_split hget
  have hsizes : (s.resizes.set i resize').map Resize.size = s.resizes.map Resize.size := by
    rw [hset, List.map_append, List.map_cons, hsilent.size, ← List.map_cons, ← List.map_append, ← heq]
  have hfilter : ((s.resizes.set i resize').filter Resize.applied).map Resize.size =
      (s.resizes.filter Resize.applied).map Resize.size := by
    conv_rhs => rw [heq]
    rw [hset, List.filter_append, List.filter_append, List.filter_cons, List.filter_cons, hsilent.applied]
    split
    · rw [List.map_append, List.map_append, List.map_cons, List.map_cons, hsilent.size]
    · rfl
  refine ⟨?_, ?_, fun r hmem ↦ ?_⟩
  · rw [latest, hsizes]
    exact h.recorded
  · rw [latest, hfilter]
    exact h.applied
  · rcases List.mem_or_eq_of_mem_set hmem with hmem | rfl
    · exact h.done r hmem
    · rw [hsilent.applied, hsilent.point]
      exact h.done resize (List.mem_of_getElem? hget)

/-- A call reaches the container before any that was started after it. -/
theorem Fitted.finish (h : s.Fitted) {i : Nat} {resize : Resize} (hget : s.resizes[i]? = some resize)
    (hlast : ∀ later ∈ s.resizes.drop (i + 1), later.applied = false) :
    Fitted { s with
      resizes := s.resizes.set i { resize with point := .back, applied := true }
      applied := some resize.size } := by
  obtain ⟨before, heq, hset⟩ := exists_split hget
  have hnone : (s.resizes.drop (i + 1)).filter Resize.applied = [] :=
    List.filter_eq_nil_iff.mpr fun later hmem ↦ Bool.eq_false_iff.mp (hlast later hmem)
  refine ⟨?_, ?_, fun r hmem ↦ ?_⟩
  · rw [latest, hset, List.map_append, List.map_cons]
    show s.size = _
    rw [h.recorded, latest]
    conv_lhs => rw [heq, List.map_append, List.map_cons]
  · rw [hset, List.filter_append, List.filter_cons_of_pos rfl, hnone, latest_concat]
  · rcases List.mem_or_eq_of_mem_set hmem with hmem | rfl
    · exact h.done r hmem
    · simp

theorem sized_initial : (initial : SizedSession ρ κ).Sized where
  unopened := fun _ ↦ ⟨rfl, rfl⟩
  opened := fun h ↦ absurd rfl h

theorem follow_session (e : Event ρ κ) (fits : Bool) (session : RoomSession ρ κ) :
    (s.follow e fits session).session = session := by
  unfold follow
  simp only []
  split
  · rfl
  · split <;> rfl
  · rfl

theorem follow_resizes (e : Event ρ κ) (fits : Bool) (session : RoomSession ρ κ) :
    (s.follow e fits session).resizes = s.resizes := by
  unfold follow
  simp only []
  split
  · rfl
  · split <;> rfl
  · rfl

theorem sized_of_none (hroom : s.session.room = none) (hresizes : Unopened s.session.pump → s.resizes = []) :
    s.Sized :=
  ⟨fun hlater ↦ ⟨hroom, hresizes hlater⟩, fun hne ↦ absurd hroom hne⟩

/-- `open` or `resume` comes back with a room. -/
theorem Sized.opens (h : s.Sized) {kept : Option κ} {c : Bool}
    (hp : s.session.pump = some (.suspended (.opening kept) c)) {room : ρ} {broken fits : Bool}
    (hok : s.session.teardown = none → s.size = s.args ∧ fits = true) :
    (s.follow (.openEnds (.returned room) broken) fits
      (s.session.afterOpen kept (.returned room) broken)).Sized := by
  obtain ⟨-, hresizes⟩ := h.unopened (.inr (.inr ⟨kept, c, hp⟩))
  cases hteardown : s.session.teardown with
  | some td =>
    refine sized_of_none ?_ fun _ ↦ (follow_resizes _ _ _).trans hresizes
    rw [follow_session, RoomSession.afterOpen]
    simp only [RoomSession.note, hteardown]
  | none =>
    obtain ⟨hsize, rfl⟩ := hok hteardown
    refine ⟨fun hlater ↦ ?_, fun _ ↦ .opened hresizes hsize⟩
    rw [follow_session, RoomSession.afterOpen] at hlater
    simp only [RoomSession.note, hteardown] at hlater
    -- past the opening: in the read loop, or out of it when the banner could not be written
    split at hlater
    · exact absurd hlater (not_unopened_ended .raised)
    · rcases hlater with hlater | ⟨c, hlater⟩ | ⟨kept, c, hlater⟩ <;> cases hlater

section

variable [Room ρ] {cfg : SessionConfig}

/-- A step of the session itself. -/
theorem Sized.follow (h : s.Sized) {e : Event ρ κ} {fits : Bool} {session : RoomSession ρ κ}
    (hok : s.Settles (.session e fits)) (hstep : Session.step cfg s.session e = some session) :
    (s.follow e fits session).Sized := by
  have hturn := step_turn hstep
  have hroom := hturn.room
  have hunopened := unopened_of_step hstep
  have hquiet (hsame : s.follow e fits session = { s with session := session })
      (hroom : session.room = s.session.room ∨ session.room = none) : (s.follow e fits session).Sized := by
    rw [hsame]
    rcases hroom with hroom | hroom
    · refine ⟨fun hlater ↦ (h.unopened (hunopened hlater)).imp_left hroom.trans, fun hne ↦ ?_⟩
      have hfitted := h.opened (hroom ▸ hne)
      exact ⟨hfitted.recorded, hfitted.applied, hfitted.done⟩
    · exact sized_of_none hroom fun hlater ↦ (h.unopened (hunopened hlater)).2
  cases hturn with
  | pumpCutOff hp =>
    obtain ⟨hroom, hresizes⟩ := h.unopened (.inr (.inl ⟨true, hp⟩))
    exact sized_of_none hroom fun _ ↦ hresizes
  | pumpStarts hp =>
    obtain ⟨hroom, hresizes⟩ := h.unopened (.inr (.inl ⟨false, hp⟩))
    exact sized_of_none hroom fun _ ↦ hresizes
  | @openEnds kept c reply broken hp hreply =>
    cases reply with
    | returned room => exact h.opens hp (hok rfl)
    | raised | cancelled =>
      refine hquiet rfl (hroom.imp_right fun hroom ↦ hroom.resolve_right ?_)
      rintro ⟨room, broken', he, -⟩
      cases he
  | _ =>
    refine hquiet rfl (hroom.imp_right fun hroom ↦ hroom.resolve_right ?_)
    rintro ⟨room, broken', he, -⟩
    cases he

end

theorem advance_cases {i : Nat} {f : Resize → Option Resize} (h : s.advance i f = some t) :
    ∃ resize resize', s.resizes[i]? = some resize ∧ f resize = some resize' ∧
      t = { s with resizes := s.resizes.set i resize' } := by
  unfold advance at h
  split at h
  · rename_i resize hget
    obtain ⟨resize', hf, rfl⟩ := Option.map_eq_some_iff.mp h
    exact ⟨resize, resize', hget, hf, rfl⟩
  · cases h

/-- What has been started before the room was opened is nothing at all. -/
theorem Sized.set (h : s.Sized) {i : Nat} {resize resize' : Resize} (hget : s.resizes[i]? = some resize)
    {size : Option Size} (hfitted : s.session.room ≠ none →
      Fitted { s with resizes := s.resizes.set i resize', applied := size }) :
    Sized { s with resizes := s.resizes.set i resize', applied := size } where
  unopened := by
    intro hlater
    have hnil := (h.unopened hlater).2
    rw [hnil] at hget
    cases hget
  opened := hfitted

theorem Sized.advance (h : s.Sized) {i : Nat} {f : Resize → Option Resize}
    (hf : ∀ resize resize', f resize = some resize' → resize.Silent resize') (hstep : s.advance i f = some t) :
    t.Sized := by
  obtain ⟨resize, resize', hget, hresize, rfl⟩ := advance_cases hstep
  exact h.set hget fun hroom ↦ (h.opened hroom).advance hget (hf _ _ hresize)

theorem Sized.finish (h : s.Sized) {i : Nat} {taken : Bool}
    (hok : s.session.room ≠ none → taken = true ∧ ∀ later ∈ s.resizes.drop (i + 1), later.applied = false)
    (hstep : s.finish i taken = some t) : t.Sized := by
  unfold SizedSession.finish at hstep
  split at hstep
  · rename_i resize hget
    obtain ⟨u, hadvance, rfl⟩ := Option.map_eq_some_iff.mp hstep
    obtain ⟨resize₁, resize', hget₁, hfinish, rfl⟩ := advance_cases hadvance
    cases hget.symm.trans hget₁
    unfold Resize.finish at hfinish
    split at hfinish
    · cases hfinish
      cases taken with
      | true => exact h.set hget fun hroom ↦ (h.opened hroom).finish hget (hok hroom).2
      | false => exact h.set hget fun hroom ↦ absurd (hok hroom).1 Bool.false_ne_true
    · cases hfinish
  · cases hstep

theorem Sized.changed (h : s.Sized) {width height : Nat}
    (hok : s.session.room ≠ none → width ≠ 0 ∧ height ≠ 0) : (s.terminalSizeChanged width height).Sized := by
  unfold terminalSizeChanged
  simp only []
  split
  · rename_i room hroom
    have hne : s.session.room ≠ none := by rw [hroom]; exact Option.some_ne_none room
    refine ⟨fun hlater ↦ absurd (h.unopened hlater).1 hne, fun _ ↦ ?_⟩
    exact (h.opened hne).changed (hok hne).1 (hok hne).2
  · rename_i hroom
    exact sized_of_none hroom fun hlater ↦ (h.unopened hlater).2

section

variable [Room ρ] {cfg : SessionConfig}

theorem Sized.step (h : s.Sized) {e : SizedEvent ρ κ} (hok : s.Settles e) (hstep : step cfg s e = some t) :
    t.Sized := by
  cases e with
  | session e fits =>
    obtain ⟨session, hsession, rfl⟩ := Option.map_eq_some_iff.mp hstep
    exact h.follow hok hsession
  | ptyRequested width height =>
    simp only [SizedSession.step] at hstep
    split at hstep
    · rename_i hnone
      cases hstep
      obtain ⟨hroom, hresizes⟩ := h.unopened (.inl (Option.isNone_iff_eq_none.mp hnone))
      exact sized_of_none hroom fun _ ↦ hresizes
    · cases hstep
  | terminalSizeChanged width height =>
    cases hstep
    exact h.changed hok
  | resizeRuns i => exact h.advance (fun _ _ ↦ Resize.run_silent) hstep
  | resizeStarts i => exact h.advance (fun _ _ ↦ Resize.start_silent) hstep
  | resizeFinishes i taken => exact h.finish hok hstep

/-! ## Whole runs -/

theorem sized_of_reached (h : (machine ρ κ cfg).ReachedBy Settles s) : s.Sized :=
  h.invariant sized_initial fun _ _ _ _ hi hok hstep ↦ hi.step hok hstep

end

/-- As long as every step settles, an open room that no call is on its way to is at the recorded size. -/
theorem fits_of_settles (ρ κ : Type) [Room ρ] (cfg : SessionConfig) (s : SizedSession ρ κ)
    (h : (machine ρ κ cfg).ReachedBy Settles s) (hquiet : s.Quiet) : s.applied = some s.size :=
  ((sized_of_reached h).opened hquiet.1).quiet hquiet.2

/-! One session of a Docker room. -/

def noKeep : SessionConfig where
  keepWindow := none
  idleSeconds := 0

/-- Two sizes in a row, taken up by the executor in the other order. -/
def twoSizes : List (SizedEvent BuiltRoom Nat) :=
  [.ptyRequested 120 0, .session .sessionStarted false, .terminalSizeChanged 0 40,
    .session (.pumpStarts none) false, .terminalSizeChanged 120 0,
    .session (.openEnds (.returned (.docker 0)) false) true, .terminalSizeChanged 100 30,
    .terminalSizeChanged 101 31, .resizeRuns 0, .resizeRuns 1, .resizeStarts 1, .resizeStarts 0]

def inOrder : List (SizedEvent BuiltRoom Nat) :=
  twoSizes ++ ([.resizeFinishes 0 true, .resizeFinishes 1 true, .resizeRuns 1, .resizeRuns 0] :
    List (SizedEvent BuiltRoom Nat))

theorem inOrder_fits :
    ∃ s, (machine BuiltRoom Nat noKeep).run initial inOrder = some s ∧ s.size = ⟨101, 31⟩ ∧
      s.applied = some s.size := by
  have hfollows : (machine BuiltRoom Nat noKeep).Follows Settles initial inOrder := by decide
  exact ⟨_, rfl, rfl, fits_of_settles BuiltRoom Nat noKeep _ (.run .init hfollows rfl) (by decide)⟩

/-- A size that comes while the room opens, a width that is not known, and two sizes that come in the wrong
order. -/
theorem sizes_lost :
    (∃ s, (machine BuiltRoom Nat noKeep).run initial
        [.session .sessionStarted false, .session (.pumpStarts none) false, .terminalSizeChanged 120 40,
          .session (.openEnds (.returned (.docker 0)) false) true] = some s ∧
      s.Quiet ∧ s.size = ⟨120, 40⟩ ∧ s.applied = some ⟨80, 24⟩) ∧
    (∃ s, (machine BuiltRoom Nat noKeep).run initial
        [.session .sessionStarted false, .session (.pumpStarts none) false,
          .session (.openEnds (.returned (.docker 0)) false) true, .terminalSizeChanged 0 40, .resizeRuns 0,
          .resizeStarts 0, .resizeFinishes 0 true, .resizeRuns 0] = some s ∧
      s.Quiet ∧ s.size = ⟨80, 40⟩ ∧ s.applied = some ⟨0, 40⟩) ∧
    ∃ s, (machine BuiltRoom Nat noKeep).run initial (twoSizes ++
        [.resizeFinishes 1 true, .resizeFinishes 0 true, .resizeRuns 1, .resizeRuns 0]) = some s ∧
      s.Quiet ∧ s.size = ⟨101, 31⟩ ∧ s.applied = some ⟨100, 30⟩ :=
  ⟨⟨_, rfl, by decide, rfl, rfl⟩, ⟨_, rfl, by decide, rfl, rfl⟩, ⟨_, rfl, by decide, rfl, rfl⟩⟩

end SizedSession

end Keycard.Session
