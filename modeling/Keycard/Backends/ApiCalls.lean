import Keycard.Backends.Firecracker
import Keycard.Backends.JsonBodies
import Keycard.Backends.MachineConfig

/-!
# The API calls

The calls that `open`, `pause` and `resume` make, and what the two ends of a connection make of the part of a message
that has come: of a request the server reads nothing until it is whole, and neither does `read_response`.
-/

open Reasoning

namespace Keycard.FcApi

open Firecracker (Bytes MachineConfig)

/-- `Response.ok` -/
def Response.ok (response : Response) : Bool :=
  200 ≤ response.status && response.status < 300

/-- `ApiError`.  The status is 0 where there was no response. -/
structure ApiError where
  method : String
  path : String
  status : Int
  body : Bytes
deriving DecidableEq, Repr

/-- What `request` raises when the time is over. -/
def ApiError.timedOut (method path : String) : ApiError where
  method := method
  path := path
  status := 0
  body := ascii "\x7b\"fault_message\":\"timed out\"\x7d"

/-! ## What is called -/

/-- `GUEST_CID` -/
def guestCid : Int := 3

/-- `str(instance.dir / name)` -/
def fileIn (dir name : String) : String :=
  dir ++ "/" ++ name

def put (path : String) (body : Body) : Request Body :=
  ⟨"PUT", path, some body⟩

def patch (path : String) (body : Body) : Request Body :=
  ⟨"PATCH", path, some body⟩

def textField (s : String) : Field :=
  .scalar (.text s)

def truthField (b : Bool) : Field :=
  .scalar (.truth b)

def numberField (n : Int) : Field :=
  .scalar (.number n)

section

variable (kernel bootArgs dir : String) (machine : MachineConfig)

/-- `_configure` -/
def configureCalls : List (Request Body) := [
  put "/boot-source" [("kernel_image_path", textField kernel), ("boot_args", textField bootArgs)],
  put "/drives/rootfs" [("drive_id", textField "rootfs"), ("path_on_host", textField (fileIn dir "rootfs.ext4")),
    ("is_root_device", truthField true), ("is_read_only", truthField false)],
  put "/machine-config" [("vcpu_count", numberField machine.vcpuCount),
    ("mem_size_mib", numberField machine.memSizeMib)],
  put "/vsock" [("guest_cid", numberField guestCid), ("uds_path", textField (fileIn dir "vsock.sock"))]]

def instanceStart : Request Body :=
  put "/actions" [("action_type", textField "InstanceStart")]

/-- The calls of `open`. -/
def openCalls : List (Request Body) :=
  configureCalls kernel bootArgs dir machine ++ [instanceStart]

/-- The call of `resume`. -/
def snapshotLoad : Request Body :=
  put "/snapshot/load" [("snapshot_path", textField (fileIn dir "snapshot")),
    ("mem_backend", .object [("backend_path", .text (fileIn dir "memory")), ("backend_type", .text "File")]),
    ("enable_diff_snapshots", truthField false), ("resume_vm", truthField true)]

def resumeCalls : List (Request Body) :=
  [snapshotLoad dir]

def vmPaused : Request Body :=
  patch "/vm" [("state", textField "Paused")]

def snapshotCreate : Request Body :=
  put "/snapshot/create" [("snapshot_type", textField "Full"), ("snapshot_path", textField (fileIn dir "snapshot")),
    ("mem_file_path", textField (fileIn dir "memory"))]

/-- The calls of `pause`. -/
def pauseCalls : List (Request Body) :=
  [vmPaused, snapshotCreate dir]

end

/-- A call that can be read as it was meant. -/
def IsCall {J : Type} (call : Request J) : Prop :=
  IsWord call.method ∧ IsWord call.path

instance {J : Type} (call : Request J) : Decidable (IsCall call) :=
  inferInstanceAs (Decidable ((_ ∧ _) ∧ _ ∧ _))

theorem isWord_methods : IsWord "PUT" ∧ IsWord "PATCH" := by
  unfold IsWord
  decide

theorem isCall_put {path : String} (hpath : IsWord path) (body : Body) : IsCall (put path body) :=
  ⟨isWord_methods.1, hpath⟩

theorem isCall_patch {path : String} (hpath : IsWord path) (body : Body) : IsCall (patch path body) :=
  ⟨isWord_methods.2, hpath⟩

theorem isCall_openCalls (kernel bootArgs dir : String) (machine : MachineConfig) :
    ∀ call ∈ openCalls kernel bootArgs dir machine, IsCall call := by
  have hword : ∀ word ∈ ["/boot-source", "/drives/rootfs", "/machine-config", "/vsock", "/actions"], IsWord word := by
    unfold IsWord
    decide
  simp only [List.forall_mem_cons] at hword
  obtain ⟨hboot, hdrive, hconfig, hvsock, hactions, -⟩ := hword
  intro call hcall
  simp only [openCalls, configureCalls, List.cons_append, List.nil_append, List.mem_cons, List.not_mem_nil,
    or_false] at hcall
  rcases hcall with rfl | rfl | rfl | rfl | rfl
  · exact isCall_put hboot _
  · exact isCall_put hdrive _
  · exact isCall_put hconfig _
  · exact isCall_put hvsock _
  · exact isCall_put hactions _

theorem isCall_pauseCalls (dir : String) : ∀ call ∈ pauseCalls dir, IsCall call := by
  intro call hcall
  simp only [pauseCalls, List.mem_cons, List.not_mem_nil, or_false] at hcall
  rcases hcall with rfl | rfl
  · exact isCall_patch (by unfold IsWord; decide) _
  · exact isCall_put (by unfold IsWord; decide) _

theorem isCall_resumeCalls (dir : String) : ∀ call ∈ resumeCalls dir, IsCall call := by
  intro call hcall
  rw [List.mem_singleton.mp hcall]
  exact isCall_put (by unfold IsWord; decide) _

def callBytes {J : Type} (json : Json J) (call : Request J) : Bytes :=
  encodeRequest json call.method call.path call.body

/-! ## The server's side -/

/-- What is behind a request does not matter to its reader. -/
theorem readRequest_append {J : Type} {json : Json J} {sent rest : Bytes} {request : Request J}
    (h : readRequest json sent = some (request, rest)) (more : Bytes) :
    readRequest json (sent ++ more) = some (request, rest ++ more) := by
  unfold readRequest at h ⊢
  split at h
  · cases h
  · rename_i head behind hread
    simp only [readUntil_append hread more]
    split at h
    · rename_i line headers hlines
      split at h
      · rename_i method path version length hwords hlength
        split at h
        · cases h
        · rename_i henough
          rw [if_neg (by rw [List.length_append]; omega)]
          split at h
          · rename_i hzero
            rw [if_pos hzero]
            cases h
            rfl
          · rename_i hpos
            rw [if_neg hpos, List.take_append_of_le_length (by omega), List.drop_append_of_le_length (by omega)]
            obtain ⟨body, hbody, heq⟩ := Option.map_eq_some_iff.mp h
            cases heq
            rw [hbody]
            rfl
      · cases h
    · cases h

/-- The server reads a request of it only when all of it has come, and then as it was meant. -/
theorem readRequest_sent {J : Type} {json : Json J} {call request : Request J} (hcall : IsCall call)
    {sent rest : Bytes} (hsent : sent <+: callBytes json call) (h : readRequest json sent = some (request, rest)) :
    request = call := by
  obtain ⟨more, hmore⟩ := hsent
  have hwhole := readRequest_append h more
  rw [hmore, callBytes, readRequest_encodeRequest json hcall.1 hcall.2] at hwhole
  exact (Prod.mk.inj (Option.some.inj hwhole)).1.symm

/-- What the server answers, with any headers but another length or an encoding.  Without a body the length may be
missing. -/
structure ServerAnswer (limit : Nat) where
  status : Nat
  reason : Text
  before : List Header
  sized : Bool
  after : List Header
  body : Bytes
  isShort : IsShort status
  isShortBody : IsShort body.length
  isPlain : IsPlain reason
  areOthers : ∀ header ∈ before ++ after, IsOther header
  noBody : sized = false → body = []
  fits : (renderHead status reason (before ++ if sized then lengthHeader body.length :: after else after)).length ≤
    limit + 4

namespace ServerAnswer

variable {limit : Nat} (answer : ServerAnswer limit)

def headers : List Header :=
  answer.before ++ if answer.sized then lengthHeader answer.body.length :: answer.after else answer.after

def head : Bytes :=
  renderHead answer.status answer.reason answer.headers

def bytes : Bytes :=
  answer.head ++ answer.body

def response : Response :=
  ⟨answer.status, answer.body⟩

/-! ## The client's side -/

variable {answer} {received : Bytes}

theorem readUntil_head (rest : Bytes) : readUntil blankLine (answer.head ++ rest) = some (answer.head, rest) := by
  have hread := readuntil_renderHead answer.isPlain answer.fits rest
  unfold readuntil at hread
  split at hread
  · cases hread
  · rename_i chunk behind heq
    split at hread
    · cases hread
      exact heq
    · cases hread

/-- The head has not come whole. -/
theorem readuntil_part (hpart : received <+: answer.head) (hne : received ≠ answer.head) :
    readuntil limit blankLine received = .error .incompleteRead := by
  obtain ⟨more, hmore⟩ := hpart
  have hnone : readUntil blankLine received = none := by
    cases hread : readUntil blankLine received with
    | none => rfl
    | some found =>
      obtain ⟨chunk, rest⟩ := found
      have hwhole := readUntil_append hread more
      rw [hmore, ← List.append_nil answer.head, readUntil_head] at hwhole
      -- nothing is behind the head, so nothing was to come
      have hrest : rest ++ more = [] := (Prod.mk.inj (Option.some.inj hwhole)).2.symm
      rw [(List.append_eq_nil_iff.mp hrest).2, List.append_nil] at hmore
      exact absurd hmore hne
  have hlength : received.length < limit + blankLine.length := by
    have hhead : answer.head.length ≤ limit + 4 := answer.fits
    have hlt : 0 < more.length := by
      apply List.length_pos_of_ne_nil
      rintro rfl
      exact hne (by rw [← hmore, List.append_nil])
    rw [← hmore, List.length_append] at hhead
    show received.length < limit + 4
    omega
  unfold readuntil
  rw [hnone]
  simp only [if_pos hlength]

theorem lastValue_none {key : Text} (h : ∀ header ∈ answer.headers, header.key ≠ key) :
    lastValue answer.headers key = none := by
  unfold lastValue
  rw [Option.map_eq_none_iff, List.find?_eq_none]
  intro header hheader
  simpa using h header (List.mem_reverse.mp hheader)

theorem lastValue_encoding : lastValue answer.headers transferEncodingKey = none := by
  apply lastValue_none
  intro header hheader
  unfold headers at hheader
  rcases List.mem_append.mp hheader with hbefore | hbehind
  · exact (answer.areOthers header (List.mem_append_left _ hbefore)).2
  · have hafter (h : header ∈ answer.after) : header.key ≠ transferEncodingKey :=
      (answer.areOthers header (List.mem_append_right _ h)).2
    split at hbehind
    · rcases List.mem_cons.mp hbehind with rfl | hmem
      · rw [key_lengthHeader]
        decide
      · exact hafter hmem
    · exact hafter hbehind

/-- What the head says of the length. -/
theorem int_length {dict : Dict Text Text} (hget : ∀ key, dict.get? key = lastValue answer.headers key) :
    int (lengthText dict) = some (answer.body.length : Int) := by
  by_cases hsized : answer.sized = true
  · have hlast : lastValue answer.headers contentLengthKey = some (Nat.toDigits 10 answer.body.length) := by
      unfold headers
      rw [if_pos hsized]
      exact lastValue_length answer.areOthers answer.body.length
    rw [lengthText_eq ((hget _).trans hlast), int_decimal answer.isShortBody]
  · have hnone : lastValue answer.headers contentLengthKey = none := by
      apply lastValue_none
      intro header hheader
      rw [headers, if_neg hsized] at hheader
      exact (answer.areOthers header hheader).1
    have htext : lengthText dict = ['0'] := by
      rw [lengthText, hget, hnone]
    rw [htext, answer.noBody (Bool.eq_false_iff.mpr hsized)]
    decide

/-- The head has come, and some of the body. -/
theorem readResponse_body {part : Bytes} (hpart : part <+: answer.body) :
    readResponse limit (answer.head ++ part) =
      if part = answer.body then .ok (answer.response, []) else .error .incompleteRead := by
  obtain ⟨headers, hhead, hget⟩ := parseHead_renderHead answer.isShort answer.isPlain answer.headers
  have hread : readuntil limit blankLine (answer.head ++ part) = .ok (answer.head, part) :=
    readuntil_renderHead answer.isPlain answer.fits part
  have hparse : parseHead answer.head = .ok ((answer.status : Int), headers) := hhead
  have hencoding := (hget _).trans lastValue_encoding
  have hint := int_length hget
  unfold readResponse
  simp only [hread, bind, Except.bind, hparse, hencoding, hint]
  split
  · rename_i hnone
    cases hnone
  · rename_i hzero
    -- there is no body, and the reader is not asked for one
    have hnil : answer.body = [] := List.eq_nil_of_length_eq_zero (by simpa using Option.some.inj hzero)
    have hpartNil : part = [] := by simpa [hnil] using hpart
    rw [if_pos (hpartNil.trans hnil.symm), response, hnil, hpartNil]
    rfl
  · rename_i length hsome
    rw [← Option.some.inj hsome]
    by_cases hall : part = answer.body
    · have hexact := readexactly_append answer.body []
      rw [List.append_nil] at hexact
      rw [if_pos hall, hall, hexact]
      rfl
    · have hlt : part.length < answer.body.length := by
        rcases Nat.lt_or_ge part.length answer.body.length with hlt | hge
        · exact hlt
        · exact absurd (hpart.eq_of_length_le hge) hall
      rw [if_neg hall, readexactly, if_neg (by omega), Int.toNat_natCast, if_pos hlt]

/-- Of an answer, `read_response` reads nothing until it is whole, and then the response that was meant. -/
theorem readResponse_received (h : received <+: answer.bytes) :
    readResponse limit received =
      if received = answer.bytes then .ok (answer.response, []) else .error .incompleteRead := by
  rcases List.prefix_or_prefix_of_prefix h (List.prefix_append answer.head answer.body) with hbegun | hhead
  · by_cases hwhole : received = answer.head
    · have hbody : readResponse limit (answer.head ++ []) = _ := readResponse_body List.nil_prefix
      rw [List.append_nil] at hbody
      rw [hwhole, hbody]
      simp [bytes, eq_comm]
    · have hne : received ≠ answer.bytes := by
        intro heq
        rw [heq] at hbegun
        have hnil : answer.body = [] := by
          have hlength := hbegun.length_le
          rw [bytes, List.length_append] at hlength
          exact List.eq_nil_of_length_eq_zero (by omega)
        exact hwhole (by rw [heq, bytes, hnil, List.append_nil])
      rw [if_neg hne, readResponse, readuntil_part hbegun hwhole]
      rfl
  · obtain ⟨part, rfl⟩ := hhead
    rw [readResponse_body ((List.prefix_append_right_inj _).mp h)]
    simp [bytes]

end ServerAnswer

end Keycard.FcApi
