import Keycard.Reasoning.Machine

/-!
# The host key

`ensure_host_key`, one step on the file system after the other, and the starts of the server that run it.  A start
may be killed anywhere, and whatever file it leaves behind is what the next start finds.
-/

open Reasoning

namespace Keycard.Server.HostKey

abbrev Bytes := List UInt8

abbrev Mode := BitVec 9

structure KeyFile where
  content : Bytes
  mode : Mode
deriving DecidableEq, Repr

/-- What a start has of its own: the umask, and the key that it would generate. -/
structure Start where
  umask : Mode
  privateKey : Bytes
  publicKey : Bytes
deriving DecidableEq, Repr

/-- Where a start is in `ensure_host_key`, and in `create_server` after it. -/
inductive Point where
  | down
  | generating (start : Start)
  | opening (start : Start)
  | writing (start : Start) (rest : Bytes)
  | publishing (start : Start)
  | writingPublic (rest : Bytes)
  | ensured
  | serving
deriving DecidableEq, Repr

structure State where
  /-- the file at the path of the host key -/
  key : Option KeyFile
  /-- it was made by a start of the server -/
  created : Bool
  point : Point
  /-- the keys that were served so far -/
  served : List Bytes
deriving DecidableEq, Repr

inductive Event where
  | starts (start : Start)
  | mkdirs
  | opens
  | writes (n : Nat)
  | chmods
  | opensPublic
  | returns
  | serves
  /-- killed, shut down, or ended by an exception -/
  | stops
deriving DecidableEq, Repr

def createdMode (umask : Mode) : Mode :=
  0o666 &&& ~~~umask

/-- `open(path, "wb")` -/
def openFile (umask : Mode) : Option KeyFile → KeyFile
  | none => ⟨[], createdMode umask⟩
  | some file => { file with content := [] }

def KeyFile.write (file : KeyFile) (data : Bytes) : KeyFile :=
  { file with content := file.content ++ data }

/-- Where the key has the suffix of the public key, `samePath`, the public key is written over it.  What asyncssh
`imports` is a complete key. -/
def step (imports : Bytes → Bool) (samePath : Bool) (s : State) : Event → Option State
  | .starts start =>
    match s.point with
    -- `path.exists()`
    | .down => some { s with point := if s.key.isSome then .ensured else .generating start }
    | _ => none
  | .mkdirs =>
    match s.point with
    | .generating start => some { s with point := .opening start }
    | _ => none
  | .opens =>
    match s.point with
    | .opening start => some {
        s with
        key := some (openFile start.umask s.key)
        created := s.created || s.key.isNone
        point := .writing start start.privateKey }
    | _ => none
  | .writes n =>
    match s.point with
    | .writing start rest => some {
        s with
        key := s.key.map fun file ↦ file.write (rest.take n)
        point := .writing start (rest.drop n) }
    | .writingPublic rest => some {
        s with
        key := if samePath then s.key.map fun file ↦ file.write (rest.take n) else s.key
        point := .writingPublic (rest.drop n) }
    | _ => none
  | .chmods =>
    match s.point with
    | .writing start [] => some {
        s with
        key := s.key.map fun file ↦ { file with mode := 0o600 }
        point := .publishing start }
    | _ => none
  | .opensPublic =>
    match s.point with
    | .publishing start => some {
        s with
        key := if samePath then some (openFile start.umask s.key) else s.key
        point := .writingPublic start.publicKey }
    | _ => none
  | .returns =>
    match s.point with
    | .writingPublic [] => some { s with point := .ensured }
    | _ => none
  | .serves =>
    match s.point, s.key with
    | .ensured, some file =>
      if imports file.content then some { s with point := .serving, served := s.served ++ [file.content] } else none
    | _, _ => none
  | .stops => some { s with point := .down }

/-- The starts of a server, where `found` is what is at the path before the first of them. -/
def machine (imports : Bytes → Bool) (samePath : Bool) (found : Option KeyFile) : Machine State Event where
  init := { key := found, created := false, point := .down, served := [] }
  step := step imports samePath

/-! ## What a history has to keep to -/

/-- Nobody but the owner may read. -/
def IsPrivate (mode : Mode) : Prop :=
  mode &&& 0o044 = 0

instance (mode : Mode) : Decidable (IsPrivate mode) :=
  inferInstanceAs (Decidable (_ = _))

/-- A key that is created now is hidden from the others. -/
def Hides : Point → Prop
  | .opening start => start.umask &&& 0o044 = 0o044
  | _ => True

instance (point : Point) : Decidable (Hides point) :=
  match point with
  | .opening start => inferInstanceAs (Decidable (start.umask &&& 0o044 = 0o044))
  | .down | .generating _ | .writing _ _ | .publishing _ | .writingPublic _ | .ensured | .serving => isTrue trivial

/-- What is on the file system is either no complete key, or the umask alone has given it the mode 0600. -/
def Settled (imports : Bytes → Bool) (key : Option KeyFile) : Point → Prop
  | .writing start _ => (∃ file ∈ key, imports file.content = true) → createdMode start.umask = 0o600
  | _ => True

instance (imports : Bytes → Bool) (key : Option KeyFile) (point : Point) : Decidable (Settled imports key point) :=
  match point with
  | .writing start _ =>
    inferInstanceAs (Decidable ((∃ file ∈ key, imports file.content = true) → createdMode start.umask = 0o600))
  | .down | .generating _ | .opening _ | .publishing _ | .writingPublic _ | .ensured | .serving => isTrue trivial

/-- The key is created under a umask that hides it, and no start ends between the last byte of the key and the
`chmod`, unless the umask alone gives the mode 0600. -/
def Careful (imports : Bytes → Bool) (s : State) : Event → Prop
  | .opens => Hides s.point
  | .stops => Settled imports s.key s.point
  | _ => True

instance (imports : Bytes → Bool) (s : State) (e : Event) : Decidable (Careful imports s e) :=
  match e with
  | .opens => inferInstanceAs (Decidable (Hides s.point))
  | .stops => inferInstanceAs (Decidable (Settled imports s.key s.point))
  | .starts _ | .mkdirs | .writes _ | .chmods | .opensPublic | .returns | .serves => isTrue trivial

/-- The key is private, and served with the mode 0600, and what has been served stays. -/
structure Sound (imports : Bytes → Bool) (s : State) : Prop where
  isPrivate : s.created = true → ∀ file ∈ s.key, IsPrivate file.mode
  complete : s.point = .serving → ∃ file ∈ s.key, imports file.content = true ∧ (s.created = true → file.mode = 0o600)
  stays : ∀ content ∈ s.served, ∃ file ∈ s.key, file.content = content

/-! ## The steps -/

inductive Does (imports : Bytes → Bool) (samePath : Bool) (s : State) : Event → State → Prop
  | finds {start : Start} (hpoint : s.point = .down) (hkey : s.key.isSome = true) :
      Does imports samePath s (.starts start) { s with point := .ensured }
  | misses {start : Start} (hpoint : s.point = .down) (hkey : s.key = none) :
      Does imports samePath s (.starts start) { s with point := .generating start }
  | mkdirs {start : Start} (hpoint : s.point = .generating start) :
      Does imports samePath s .mkdirs { s with point := .opening start }
  | opens {start : Start} (hpoint : s.point = .opening start) : Does imports samePath s .opens {
      s with
      key := some (openFile start.umask s.key)
      created := s.created || s.key.isNone
      point := .writing start start.privateKey }
  | writes {n : Nat} {start : Start} {rest : Bytes} (hpoint : s.point = .writing start rest) :
      Does imports samePath s (.writes n) {
        s with
        key := s.key.map fun file ↦ file.write (rest.take n)
        point := .writing start (rest.drop n) }
  | chmods {start : Start} (hpoint : s.point = .writing start []) : Does imports samePath s .chmods {
      s with
      key := s.key.map fun file ↦ { file with mode := 0o600 }
      point := .publishing start }
  | opensPublic {start : Start} (hpoint : s.point = .publishing start) : Does imports samePath s .opensPublic {
      s with
      key := if samePath then some (openFile start.umask s.key) else s.key
      point := .writingPublic start.publicKey }
  | writesPublic {n : Nat} {rest : Bytes} (hpoint : s.point = .writingPublic rest) :
      Does imports samePath s (.writes n) {
        s with
        key := if samePath then s.key.map fun file ↦ file.write (rest.take n) else s.key
        point := .writingPublic (rest.drop n) }
  | returns (hpoint : s.point = .writingPublic []) : Does imports samePath s .returns { s with point := .ensured }
  | serves {file : KeyFile} (hpoint : s.point = .ensured) (hkey : s.key = some file)
      (himports : imports file.content = true) :
      Does imports samePath s .serves { s with point := .serving, served := s.served ++ [file.content] }
  | stops : Does imports samePath s .stops { s with point := .down }

theorem step_does {imports : Bytes → Bool} {samePath : Bool} {s t : State} {e : Event}
    (h : step imports samePath s e = some t) : Does imports samePath s e t := by
  cases e with
  | starts start =>
    simp only [step] at h
    split at h
    · cases h
      by_cases hkey : s.key.isSome = true
      · rw [if_pos hkey]
        exact .finds ‹_› hkey
      · rw [if_neg hkey]
        exact .misses ‹_› (Option.not_isSome_iff_eq_none.mp hkey)
    · cases h
  | writes n =>
    simp only [step] at h
    split at h
    · cases h
      exact .writes ‹_›
    · cases h
      exact .writesPublic ‹_›
    · cases h
  | serves =>
    simp only [step] at h
    split at h
    · split at h
      · cases h
        exact .serves ‹_› ‹_› ‹_›
      · cases h
    · cases h
  | stops =>
    cases h
    exact .stops
  | mkdirs =>
    simp only [step] at h
    split at h
    · cases h
      exact .mkdirs ‹_›
    · cases h
  | opens =>
    simp only [step] at h
    split at h
    · cases h
      exact .opens ‹_›
    · cases h
  | chmods =>
    simp only [step] at h
    split at h
    · cases h
      exact .chmods ‹_›
    · cases h
  | opensPublic =>
    simp only [step] at h
    split at h
    · cases h
      exact .opensPublic ‹_›
    · cases h
  | returns =>
    simp only [step] at h
    split at h
    · cases h
      exact .returns ‹_›
    · cases h

variable {imports : Bytes → Bool} {samePath : Bool} {s t : State} {e : Event}

/-! ## A key that was served stays -/

/-- A start that has found no key. -/
def creates : Point → Bool
  | .generating _ | .opening _ | .writing _ _ | .publishing _ | .writingPublic _ => true
  | .down | .ensured | .serving => false

/-- Nothing has been served while a key is being created. -/
structure Kept (s : State) : Prop where
  fresh : creates s.point = true → s.served = []
  stays : ∀ content ∈ s.served, ∃ file ∈ s.key, file.content = content

/-- Where nothing has been served yet, nothing has to stay. -/
theorem kept_of_nil (h : s.served = []) : Kept s := by
  refine ⟨fun _ ↦ h, ?_⟩
  rw [h]
  nofun

/-- Nothing is left of the key that was served only if nothing was served. -/
theorem Kept.served_nil (h : Kept s) (hkey : s.key = none) : s.served = [] := by
  rw [List.eq_nil_iff_forall_not_mem]
  intro content hcontent
  obtain ⟨file, hfile, -⟩ := h.stays content hcontent
  rw [hkey] at hfile
  cases hfile

theorem Kept.fresh_of_point {point : Point} (h : Kept s) (hpoint : s.point = point) (hcreates : creates point = true) :
    s.served = [] :=
  h.fresh (hpoint ▸ hcreates)

theorem Kept.step (h : Kept s) (hdoes : Does imports samePath s e t) : Kept t := by
  cases hdoes with
  | finds hpoint hkey => exact ⟨nofun, h.stays⟩
  | misses hpoint hkey => exact kept_of_nil (h.served_nil hkey)
  | mkdirs hpoint | opens hpoint | writes hpoint | chmods hpoint | opensPublic hpoint | writesPublic hpoint =>
    exact kept_of_nil (h.fresh_of_point hpoint rfl)
  | returns hpoint => exact kept_of_nil (h.fresh_of_point hpoint rfl)
  | @serves file hpoint hkey himports =>
    refine ⟨nofun, fun content hcontent ↦ ?_⟩
    rcases List.mem_append.mp hcontent with hbefore | hnow
    · exact h.stays content hbefore
    · exact ⟨file, hkey, (List.mem_singleton.mp hnow).symm⟩
  | stops => exact ⟨nofun, h.stays⟩

/-- However the starts end, and under whatever umask, a key that has been served is never replaced. -/
theorem reachable_kept {found : Option KeyFile} (h : (machine imports samePath found).Reachable s) : Kept s :=
  h.invariant (kept_of_nil rfl) fun _ _ _ _ hkept hst ↦ hkept.step (step_does hst)

/-! ## The mode of the key -/

/-- A key that was created, and is complete, has the mode that `chmod` gives it. -/
def Locked (imports : Bytes → Bool) (s : State) : Prop :=
  s.created = true → ∀ file ∈ s.key, imports file.content = true → file.mode = 0o600

/-- The key is there, in this mode. -/
def HasMode (key : Option KeyFile) (mode : Mode) : Prop :=
  ∃ file ∈ key, file.mode = mode

/-- What is known of the key where a start is. -/
def KeyAt (imports : Bytes → Bool) (s : State) : Point → Prop
  | .down => Locked imports s
  | .generating _ => s.key = none
  | .opening _ => s.key = none
  | .writing start _ => HasMode s.key (createdMode start.umask)
  | .publishing _ => HasMode s.key 0o600
  | .writingPublic _ => HasMode s.key 0o600
  | .ensured => Locked imports s
  | .serving => Locked imports s ∧ ∃ file ∈ s.key, imports file.content = true

structure Inv (imports : Bytes → Bool) (s : State) : Prop where
  isPrivate : s.created = true → ∀ file ∈ s.key, IsPrivate file.mode
  keyAt : KeyAt imports s s.point

theorem isPrivate_createdMode {umask : Mode} (h : umask &&& 0o044 = 0o044) : IsPrivate (createdMode umask) := by
  have hclear : ~~~umask &&& 0o044 = 0 := by
    rw [← h]
    ext i hi
    simp only [BitVec.getElem_and, BitVec.getElem_not]
    cases umask[i] <;> simp
  rw [IsPrivate, createdMode, BitVec.and_assoc, hclear]
  exact BitVec.and_zero

theorem Inv.keyAt_of_point {point : Point} (h : Inv imports s) (hpoint : s.point = point) : KeyAt imports s point :=
  hpoint ▸ h.keyAt

namespace HasMode

variable {key : Option KeyFile} {mode : Mode}

/-- The key is in one file, and that file has the mode. -/
theorem of_mem (h : HasMode key mode) : ∀ file ∈ key, file.mode = mode := by
  intro file hfile
  obtain ⟨other, hother, hmode⟩ := h
  rw [Option.mem_unique hfile hother]
  exact hmode

theorem isPrivate (h : HasMode key 0o600) : ∀ file ∈ key, IsPrivate file.mode := by
  intro file hfile
  rw [h.of_mem file hfile]
  decide

theorem locked (h : HasMode s.key 0o600) : Locked imports s :=
  fun _ file hfile _ ↦ h.of_mem file hfile

/-- What is written leaves the mode as it is. -/
theorem write (h : HasMode key mode) (data : Bytes) : HasMode (key.map fun file ↦ file.write data) mode := by
  obtain ⟨file, hfile, hmode⟩ := h
  exact ⟨file.write data, Option.mem_map_of_mem _ hfile, hmode⟩

theorem chmod (h : HasMode key mode) : HasMode (key.map fun file ↦ { file with mode := 0o600 }) 0o600 := by
  obtain ⟨file, hfile, -⟩ := h
  exact ⟨_, Option.mem_map_of_mem _ hfile, rfl⟩

/-- Where the key is there, it is opened with the mode that it has. -/
theorem openFile (h : HasMode key mode) (umask : Mode) : HasMode (some (openFile umask key)) mode := by
  obtain ⟨file, hfile, hmode⟩ := h
  rw [Option.mem_def.mp hfile]
  exact ⟨_, rfl, hmode⟩

end HasMode

theorem locked_of_none (h : s.key = none) : Locked imports s := by
  intro _ file hfile
  rw [h] at hfile
  cases hfile

/-- Every start that ends leaves either no complete key, or one that is locked. -/
theorem Inv.locked (h : Inv imports s) (hsettled : Settled imports s.key s.point) : Locked imports s := by
  cases hpoint : s.point with
  | down => exact h.keyAt_of_point hpoint
  | generating start => exact locked_of_none (h.keyAt_of_point hpoint)
  | opening start => exact locked_of_none (h.keyAt_of_point hpoint)
  | writing start rest =>
    -- the one point at which a start may leave a complete key that has not been locked
    intro _ file hfile himports
    rw [hpoint] at hsettled
    rw [HasMode.of_mem (h.keyAt_of_point hpoint) file hfile]
    exact hsettled ⟨file, hfile, himports⟩
  | publishing start => exact HasMode.locked (h.keyAt_of_point hpoint)
  | writingPublic rest => exact HasMode.locked (h.keyAt_of_point hpoint)
  | ensured => exact h.keyAt_of_point hpoint
  | serving => exact (h.keyAt_of_point hpoint).1

theorem Inv.step (h : Inv imports s) (hcareful : Careful imports s e) (hdoes : Does imports samePath s e t) :
    Inv imports t := by
  cases hdoes with
  | finds hpoint hkey => exact ⟨h.isPrivate, h.keyAt_of_point hpoint⟩
  | misses hpoint hkey => exact ⟨h.isPrivate, hkey⟩
  | mkdirs hpoint => exact ⟨h.isPrivate, h.keyAt_of_point hpoint⟩
  | @opens start hpoint =>
    have hnone : s.key = none := h.keyAt_of_point hpoint
    have hhides : Hides s.point := hcareful
    rw [hpoint] at hhides
    -- there was no file, so its mode is what the umask leaves of it
    rw [hnone]
    refine ⟨fun _ file hfile ↦ ?_, ⟨_, rfl, rfl⟩⟩
    cases hfile
    exact isPrivate_createdMode hhides
  | @writes n start rest hpoint =>
    have hmode : HasMode s.key (createdMode start.umask) := h.keyAt_of_point hpoint
    have hwritten := hmode.write (rest.take n)
    refine ⟨fun hcreated file hfile ↦ ?_, hwritten⟩
    -- writing leaves the mode alone, and it was private before
    obtain ⟨old, hold, hmodeOld⟩ := hmode
    rw [hwritten.of_mem file hfile, ← hmodeOld]
    exact h.isPrivate hcreated old hold
  | chmods hpoint =>
    have hlocked := HasMode.chmod (h.keyAt_of_point hpoint)
    exact ⟨fun _ ↦ hlocked.isPrivate, hlocked⟩
  | @opensPublic start hpoint =>
    have hmode : HasMode s.key 0o600 := h.keyAt_of_point hpoint
    -- where both keys go to one path, the file is there already and keeps its mode
    cases samePath with
    | false => exact ⟨h.isPrivate, hmode⟩
    | true => exact ⟨fun _ ↦ (hmode.openFile start.umask).isPrivate, hmode.openFile start.umask⟩
  | @writesPublic n rest hpoint =>
    have hmode : HasMode s.key 0o600 := h.keyAt_of_point hpoint
    cases samePath with
    | false => exact ⟨h.isPrivate, hmode⟩
    | true => exact ⟨fun _ ↦ (hmode.write (rest.take n)).isPrivate, hmode.write (rest.take n)⟩
  | returns hpoint => exact ⟨h.isPrivate, HasMode.locked (h.keyAt_of_point hpoint)⟩
  | @serves file hpoint hkey himports => exact ⟨h.isPrivate, h.keyAt_of_point hpoint, file, hkey, himports⟩
  | stops => exact ⟨h.isPrivate, h.locked hcareful⟩

theorem Inv.init (found : Option KeyFile) : Inv imports (machine imports samePath found).init :=
  ⟨nofun, nofun⟩

/-! ## The host key over the starts of a server -/

theorem careful_sound (imports : Bytes → Bool) (samePath : Bool) (found : Option KeyFile) (s : State)
    (h : (machine imports samePath found).ReachedBy (Careful imports) s) : Sound imports s := by
  have hinv : Inv imports s := h.invariant (.init found) fun _ _ _ _ hinv hcareful hst ↦
    hinv.step hcareful (step_does hst)
  refine ⟨hinv.isPrivate, fun hserving ↦ ?_, (reachable_kept h.reachable).stays⟩
  obtain ⟨hlocked, file, hfile, himports⟩ := hinv.keyAt_of_point hserving
  exact ⟨file, hfile, himports, fun hcreated ↦ hlocked hcreated file hfile himports⟩

/-- A start under this umask. -/
abbrev starting (umask : Mode) : Start where
  umask := umask
  privateKey := [1, 2, 3]
  publicKey := [4, 5]

/-- The key is complete once its last byte is there. -/
abbrev endsWithThree (content : Bytes) : Bool :=
  content == [1, 2, 3]

/-- Killed between the last byte and the `chmod`, and started again. -/
abbrev killed (umask : Mode) : List Event :=
  [.starts (starting umask), .mkdirs, .opens, .writes 2, .writes 1, .stops, .starts (starting umask), .serves]

theorem careful_sound_killed :
    Sound endsWithThree {
      key := some ⟨[1, 2, 3], 0o600⟩
      created := true
      point := .serving
      served := [[1, 2, 3]] } :=
  careful_sound endsWithThree false none _ (Machine.ReachedBy.run .init
    (show (machine endsWithThree false none).Follows (Careful endsWithThree) _ (killed 0o077) by decide) (by decide))

/-- Under the usual umask the key is readable by everybody when it is created, and it is served so after a start was
killed before the `chmod`. -/
theorem usualUmask_unsound :
    (machine endsWithThree false none).Reachable {
      key := some ⟨[], 0o644⟩
      created := true
      point := .writing (starting 0o022) [1, 2, 3]
      served := [] } ∧
    (machine endsWithThree false none).Reachable {
      key := some ⟨[1, 2, 3], 0o644⟩
      created := true
      point := .serving
      served := [[1, 2, 3]] } ∧
    ¬ ∀ s, (machine endsWithThree false none).Reachable s → Sound endsWithThree s := by
  have hopened : (machine endsWithThree false none).Reachable {
      key := some ⟨[], 0o644⟩
      created := true
      point := .writing (starting 0o022) [1, 2, 3]
      served := [] } :=
    Machine.ReachedBy.run .init (by decide)
      (show (machine _ _ _).run _ [.starts (starting 0o022), .mkdirs, .opens] = some _ by decide)
  have hserved : (machine endsWithThree false none).Reachable {
      key := some ⟨[1, 2, 3], 0o644⟩
      created := true
      point := .serving
      served := [[1, 2, 3]] } :=
    Machine.ReachedBy.run .init (by decide) (show (machine _ _ _).run _ (killed 0o022) = some _ by decide)
  refine ⟨hopened, hserved, fun hsound ↦ ?_⟩
  exact absurd ((hsound _ hopened).isPrivate rfl _ rfl) (by decide)

end Keycard.Server.HostKey
