import Keycard.Backends.ControlChannel
import Keycard.Reasoning.Dict
import Keycard.Reasoning.Framing
import Keycard.Reasoning.Literals

/-!
# The control API's wire format

`encode_request`, `parse_head` and `read_response`, which speak HTTP/1.1 over a socket.  A request is written in
UTF-8, and the head of a response is read as Latin-1; the lengths count bytes.
-/

open Reasoning

namespace Keycard.FcApi

open Firecracker (Bytes chars maxStrDigits)

/-! ## `str`, as far as Latin-1 goes -/

abbrev Text := List Char

/-- `str.isspace` -/
def isSpace (c : Char) : Bool :=
  c.toNat = 32 || 9 ≤ c.toNat && c.toNat ≤ 13 || 28 ≤ c.toNat && c.toNat ≤ 31 || c.toNat = 133 || c.toNat = 160

/-- `str.strip` -/
def strip (text : Text) : Text :=
  (text.dropWhile isSpace).rdropWhile isSpace

/-- `str.lower` of one character: the capitals are 32 before the small letters, and `×` is between them. -/
def lowerChar (c : Char) : Char :=
  if 65 ≤ c.toNat && c.toNat ≤ 90 || 192 ≤ c.toNat && c.toNat ≤ 222 && c.toNat ≠ 215 then Char.ofNat (c.toNat + 32)
  else c

/-- `str.lower` -/
def lower (text : Text) : Text :=
  text.map lowerChar

/-- `str.partition`, without the separator. -/
def partition (sep : Char) (text : Text) : Text × Text :=
  (cut sep text).getD (text, [])

/-- `str.split` at a character, at most `n` times. -/
def splitMax (sep : Char) : Nat → Text → List Text
  | 0, text => [text]
  | n + 1, text =>
    match cut sep text with
    | none => [text]
    | some (part, rest) => part :: splitMax sep n rest

/-- The characters that a byte can stand for; no digit is among them that is not ASCII. -/
def latin1 : Unicode where
  isSpace := isSpace
  decimal _ := none
  lower := lower
  isSpace_ascii c hc := by
    have hsmall : c.toNat ≠ 133 ∧ c.toNat ≠ 160 := by omega
    simp only [isSpace, hsmall.1, hsmall.2, decide_false, Bool.or_false]
  lower_ascii text htext := List.map_congr_left fun c hc ↦ by
    have hall : ∀ n : Fin 128, lowerChar (Char.ofNat n) = (Char.ofNat n).toLower := by decide
    have hchar := hall ⟨c.toNat, htext c hc⟩
    rwa [Char.ofNat_toNat] at hchar

/-- `int(text)`, with `none` for a `ValueError` -/
def int (text : Text) : Option Int :=
  Firecracker.int latin1 text

/-- `bytes.decode("iso-8859-1")` -/
def decodeLatin1 (bytes : Bytes) : Text :=
  chars bytes

/-! ## Requests -/

/-- `json.dumps` and `json.loads`, on the values that are not `None`. -/
structure Json (J : Type) where
  dumps : J → String
  loads : String → Option J
  loads_dumps : ∀ value, loads (dumps value) = some value
  loads_empty : loads "" = none

/-- `HOST_HEADER` -/
def hostHeader : String :=
  "localhost"

def payloadOf {J : Type} (json : Json J) : Option J → Bytes
  | none => []
  | some body => encodeUtf8 (json.dumps body)

/-- The lines behind the request line. -/
def headerLines (payload : Bytes) : List String :=
  let lines := [
    "Host: " ++ hostHeader,
    "Accept: application/json",
    "Connection: close",
    "Content-Length: " ++ toString payload.length]
  if payload = [] then lines else lines ++ ["Content-Type: application/json"]

/-- `encode_request` -/
def encodeRequest {J : Type} (json : Json J) (method path : String) (body : Option J) : Bytes :=
  let payload := payloadOf json body
  let lines := (method ++ " " ++ path ++ " HTTP/1.1") :: headerLines payload
  encodeUtf8 (String.intercalate "\r\n" lines ++ "\r\n\r\n") ++ payload

/-! ## Responses -/

/-- What `read_response` raises. -/
inductive Fault where
  | incompleteRead
  | limitOverrun
  /-- not an HTTP response: `line` -/
  | notHttp (line : Text)
  /-- bad status line: `line` -/
  | badStatus (line : Text)
  /-- unsupported transfer-encoding: `value` -/
  | transferEncoding (value : Text)
  /-- `int` of the content-length -/
  | badLength (value : Text)
  /-- readexactly size can not be less than zero -/
  | negativeSize
deriving DecidableEq, Repr

structure Response where
  status : Int
  body : Bytes
deriving DecidableEq, Repr

/-- `StreamReader.readuntil`, of all that will arrive: what is read, and what is left.  The limit counts what is
before the separator. -/
def readuntil (limit : Nat) (separator unread : Bytes) : Except Fault (Bytes × Bytes) :=
  match readUntil separator unread with
  | none => .error (if unread.length < limit + separator.length then .incompleteRead else .limitOverrun)
  | some (chunk, rest) =>
    if chunk.length ≤ limit + separator.length then .ok (chunk, rest) else .error .limitOverrun

/-- `StreamReader.readexactly` -/
def readexactly (n : Int) (unread : Bytes) : Except Fault (Bytes × Bytes) :=
  if n < 0 then .error .negativeSize
  else if unread.length < n.toNat then .error .incompleteRead
  else .ok (unread.take n.toNat, unread.drop n.toNat)

/-- `b"\r\n\r\n"` -/
def blankLine : Bytes :=
  [13, 10, 13, 10]

/-- One turn of the loop of `parse_head`. -/
def parseHeader (headers : Dict Text Text) (line : Text) : Dict Text Text :=
  if line = [] then headers
  else headers.set (lower (strip (partition ':' line).1)) (strip (partition ':' line).2)

/-- `parse_head` -/
def parseHead (head : Bytes) : Except Fault (Int × Dict Text Text) :=
  let lines := splitPair '\r' '\n' (decodeLatin1 head)
  let first := lines.headD []
  match splitMax ' ' 2 first with
  | version :: code :: _ =>
    if "HTTP/".toList.isPrefixOf version then
      match int code with
      | none => .error (.badStatus first)
      | some status => .ok (status, lines.tail.foldl parseHeader .empty)
    else .error (.notHttp first)
  | _ => .error (.notHttp first)

def contentLengthKey : Text :=
  "content-length".toList

def transferEncodingKey : Text :=
  "transfer-encoding".toList

/-- `headers.get("content-length", "0") or "0"` -/
def lengthText (headers : Dict Text Text) : Text :=
  match headers.get? contentLengthKey with
  | none => ['0']
  | some [] => ['0']
  | some value => value

/-- `read_response`: the response, and what is left in the reader. -/
def readResponse (limit : Nat) (unread : Bytes) : Except Fault (Response × Bytes) := do
  let (head, unread) ← readuntil limit blankLine unread
  let (status, headers) ← parseHead head
  match headers.get? transferEncodingKey with
  | some value => throw (.transferEncoding value)
  | none =>
    match int (lengthText headers) with
    | none => throw (.badLength (lengthText headers))
    -- `if length else b""`: the reader is not asked for anything
    | some 0 => return (⟨status, []⟩, unread)
    | some length =>
      let (body, unread) ← readexactly length unread
      return (⟨status, body⟩, unread)

/-! ## The server -/

structure Request (J : Type) where
  method : String
  path : String
  body : Option J

/-- The value of a line, if it is a content-length. -/
def lengthOf (line : Text) : Option Nat :=
  if lower (strip (partition ':' line).1) = contentLengthKey then Firecracker.natural (strip (partition ':' line).2)
  else none

/-- A request up to the first empty line and as much behind it as the head says, and what is left. -/
def readRequest {J : Type} (json : Json J) (bytes : Bytes) : Option (Request J × Bytes) :=
  match readUntil blankLine bytes with
  | none => none
  | some (head, rest) =>
    match (decodeUtf8 head).map fun text ↦ splitPair '\r' '\n' text.toList with
    | some (line :: headers) =>
      match line.splitOn ' ', headers.findSome? lengthOf with
      | [method, path, _], some length =>
        if rest.length < length then none
        else if length = 0 then some (⟨String.ofList method, String.ofList path, none⟩, rest)
        else
          ((decodeUtf8 (rest.take length)).bind json.loads).map fun body ↦
            (⟨String.ofList method, String.ofList path, some body⟩, rest.drop length)
      | _, _ => none
    | _ => none

/-- A Latin-1 text without a carriage return. -/
def IsPlain (text : Text) : Prop :=
  ∀ c ∈ text, c.toNat < 256 ∧ c ≠ '\r'

/-- `text.encode("iso-8859-1")`, of a Latin-1 text -/
def encodeLatin1 (text : Text) : Bytes :=
  text.map Char.toUInt8

structure Header where
  name : Text
  value : Text
  isPlain : IsPlain (name ++ value)
  noColon : ':' ∉ name

namespace Header

/-- A header as a line.  Where a space is put behind the colon, it is part of the value. -/
def line (header : Header) : Text :=
  header.name ++ ':' :: header.value

def key (header : Header) : Text :=
  lower (strip header.name)

end Header

/-- The key's last value. -/
def lastValue (headers : List Header) (key : Text) : Option Text :=
  (headers.reverse.find? fun header ↦ header.key = key).map fun header ↦ strip header.value

def statusLine (status : Nat) (reason : Text) : Text :=
  "HTTP/1.1".toList ++ ' ' :: (Nat.toDigits 10 status ++ ' ' :: reason)

def renderHead (status : Nat) (reason : Text) (headers : List Header) : Bytes :=
  encodeLatin1 (withEnds '\r' '\n' (statusLine status reason :: headers.map Header.line) ++ ['\r', '\n'])

/-- A number that is not too long for `int`, which raises where there are more than 4300 digits. -/
def IsShort (n : Nat) : Prop :=
  (Nat.toDigits 10 n).length ≤ maxStrDigits

/-! ## Texts and their bytes -/

theorem partition_append {sep : Char} {name : Text} (h : sep ∉ name) (value : Text) :
    partition sep (name ++ sep :: value) = (name, value) := by
  rw [partition, cut_line h]
  rfl

theorem isSpace_of_isDigit {c : Char} (h : c.isDigit = true) : isSpace c = false ∧ c.toNat < 127 ∧ isSpaceC c = false := by
  obtain ⟨hlow, hhigh⟩ : 48 ≤ c.toNat ∧ c.toNat ≤ 57 := by
    simpa [Char.isDigit, UInt32.le_iff_toNat_le] using h
  refine ⟨?_, by omega, ?_⟩
  · simp only [isSpace, Bool.or_eq_false_iff, Bool.and_eq_false_iff, decide_eq_false_iff_not]
    omega
  · simp only [isSpaceC, Bool.or_eq_false_iff, Bool.and_eq_false_iff, decide_eq_false_iff_not]
    omega

theorem isDigit_decimal (n : Nat) : ∀ c ∈ Nat.toDigits 10 n, c.isDigit = true :=
  fun _ ↦ isDigit_of_mem_toDigits

theorem strip_decimal (n : Nat) : strip (' ' :: Nat.toDigits 10 n) = Nat.toDigits 10 n := by
  have hdigits : strip (Nat.toDigits 10 n) = Nat.toDigits 10 n :=
    strip_eq_self fun c hc ↦ (isSpace_of_isDigit (isDigit_decimal n c hc)).1
  rw [strip, List.dropWhile_cons_of_pos (by decide)]
  exact hdigits

theorem int_decimal {n : Nat} (hn : IsShort n) : int (Nat.toDigits 10 n) = some (n : Int) :=
  Firecracker.int_toDigits latin1 hn

theorem decodeLatin1_encodeLatin1 {text : Text} (h : ∀ c ∈ text, c.toNat < 256) :
    decodeLatin1 (encodeLatin1 text) = text := by
  have hchars : chars (ascii (String.ofList text)) = (String.ofList text).toList :=
    Firecracker.chars_ascii fun c hc ↦ h c (by simpa using hc)
  rw [ascii, String.toList_ofList] at hchars
  exact hchars

theorem encodeLatin1_withEnds (lines : List Text) :
    encodeLatin1 (withEnds '\r' '\n' lines ++ ['\r', '\n']) = withEnds 13 10 (lines.map encodeLatin1) ++ [13, 10] := by
  have hmap (text : Text) : encodeLatin1 text = text.flatMap fun c ↦ [c.toUInt8] := List.map_eq_flatMap
  have hends : (withEnds '\r' '\n' lines).flatMap (fun c ↦ [c.toUInt8]) =
      withEnds 13 10 (lines.map fun line ↦ line.flatMap fun c ↦ [c.toUInt8]) := 
    flatMap_withEnds (fun c : Char ↦ [c.toUInt8]) rfl rfl lines
  rw [hmap, List.flatMap_append, hends, funext hmap]
  rfl

theorem not_mem_encodeLatin1 {text : Text} (h : IsPlain text) : 13 ∉ encodeLatin1 text := by
  intro hmem
  obtain ⟨c, hc, hbyte⟩ := List.mem_map.mp hmem
  have hcode : c.toNat = 13 := by
    rw [← Firecracker.toUInt8_toNat (h c hc).1, hbyte]
    rfl
  exact (h c hc).2 (Char.toNat_inj.mp hcode)

/-! ## What `parse_head` makes of a head -/

theorem splitMax_append {sep : Char} {part : Text} (h : sep ∉ part) (n : Nat) (rest : Text) :
    splitMax sep (n + 1) (part ++ sep :: rest) = part :: splitMax sep n rest := by
  rw [splitMax, cut_line h]

theorem splitMax_statusLine (status : Nat) (reason : Text) :
    splitMax ' ' 2 (statusLine status reason) = ["HTTP/1.1".toList, Nat.toDigits 10 status, reason] := by
  have hdigits : ' ' ∉ Nat.toDigits 10 status :=
    fun hmem ↦ absurd (isDigit_decimal status _ hmem) (by decide)
  have hversion : ' ' ∉ "HTTP/1.1".toList := by decide
  have hfirst : splitMax ' ' 2 (statusLine status reason) =
      "HTTP/1.1".toList :: splitMax ' ' 1 (Nat.toDigits 10 status ++ ' ' :: reason) := splitMax_append hversion 1 _
  have hsecond : splitMax ' ' 1 (Nat.toDigits 10 status ++ ' ' :: reason) = [Nat.toDigits 10 status, reason] :=
    splitMax_append hdigits 0 reason
  exact hfirst.trans (congrArg _ hsecond)

theorem parseHeader_line (headers : Dict Text Text) (header : Header) :
    parseHeader headers header.line = headers.set header.key (strip header.value) := by
  rw [parseHeader, if_neg, Header.line, partition_append header.noColon]
  · rfl
  · rw [Header.line]
    exact List.append_ne_nil_of_right_ne_nil _ (List.cons_ne_nil _ _)

theorem get?_foldl_parseHeader (headers : List Header) (dict : Dict Text Text) (key : Text) :
    ((headers.map Header.line).foldl parseHeader dict).get? key =
      (lastValue headers key).or (dict.get? key) := by
  induction headers generalizing dict with
  | nil => rfl
  | cons header headers ih =>
    rw [List.map_cons, List.foldl_cons, ih, parseHeader_line, Dict.get?_set]
    unfold lastValue
    rw [List.reverse_cons, List.find?_append]
    cases hfind : headers.reverse.find? fun header ↦ header.key = key with
    -- a later header has the last word
    | some last => rfl
    | none =>
      by_cases hkey : key = header.key
      · rw [hkey, Function.update_self]
        simp
      · rw [Function.update_of_ne hkey]
        simp [Ne.symm hkey]

theorem IsPlain.append {text more : Text} (h : IsPlain text) (hmore : IsPlain more) : IsPlain (text ++ more) := by
  intro c hc
  exact (List.mem_append.mp hc).elim (h c) (hmore c)

theorem IsPlain.cons {c : Char} {text : Text} (hc : c.toNat < 256 ∧ c ≠ '\r') (h : IsPlain text) :
    IsPlain (c :: text) :=
  List.forall_mem_cons.mpr ⟨hc, h⟩

theorem isPlain_decimal (n : Nat) : IsPlain (Nat.toDigits 10 n) := by
  intro c hc
  have hdigit := isDigit_decimal n c hc
  refine ⟨Nat.lt_trans (isSpace_of_isDigit hdigit).2.1 (by decide), ?_⟩
  rintro rfl
  cases hdigit

theorem isPlain_statusLine {status : Nat} {reason : Text} (hreason : IsPlain reason) :
    IsPlain (statusLine status reason) := by
  have hversion : IsPlain "HTTP/1.1".toList :=
    show ∀ c ∈ "HTTP/1.1".toList, c.toNat < 256 ∧ c ≠ '\r' by decide
  exact hversion.append (.cons (by decide) ((isPlain_decimal status).append (.cons (by decide) hreason)))

theorem Header.isPlain_line (header : Header) : IsPlain header.line := by
  have hname : IsPlain header.name := fun c hc ↦ header.isPlain c (List.mem_append_left _ hc)
  have hvalue : IsPlain header.value := fun c hc ↦ header.isPlain c (List.mem_append_right _ hc)
  exact hname.append (.cons (by decide) hvalue)

section

variable {status : Nat} {reason : Text} {headers : List Header}

theorem isPlain_head (status : Nat) (headers : List Header) (hreason : IsPlain reason) :
    ∀ line ∈ statusLine status reason :: headers.map Header.line, line ≠ [] ∧ IsPlain line := by
  intro line hline
  rcases List.mem_cons.mp hline with rfl | hline
  · exact ⟨List.append_ne_nil_of_left_ne_nil (by decide) _, isPlain_statusLine hreason⟩
  · obtain ⟨header, -, rfl⟩ := List.mem_map.mp hline
    exact ⟨List.append_ne_nil_of_right_ne_nil _ (List.cons_ne_nil _ _), header.isPlain_line⟩

/-- `parse_head` finds the status, and every key's last value. -/
theorem parseHead_renderHead (hstatus : IsShort status) (hreason : IsPlain reason) (headers : List Header) :
    ∃ dict, parseHead (renderHead status reason headers) = .ok (status, dict) ∧
      ∀ key, dict.get? key = lastValue headers key := by
  have hplain := isPlain_head status headers hreason
  have hlines : AreLines '\r' (statusLine status reason :: headers.map Header.line) :=
    fun line hline ↦ ⟨(hplain line hline).1, fun hreturn ↦ ((hplain line hline).2 _ hreturn).2 rfl⟩
  have hlatin1 : ∀ c ∈ withEnds '\r' '\n' (statusLine status reason :: headers.map Header.line) ++ ['\r', '\n'],
      c.toNat < 256 := by
    intro c hc
    rcases List.mem_append.mp hc with hc | hend
    · rcases of_mem_withEnds hc with ⟨line, hline, hc⟩ | rfl | rfl
      · exact ((hplain line hline).2 c hc).1
      · decide
      · decide
    · exact Nat.lt_trans ((show ∀ c ∈ ['\r', '\n'], c.toNat < 128 by decide) c hend) (by decide)
  have hsplit : splitPair '\r' '\n' (decodeLatin1 (renderHead status reason headers)) =
      statusLine status reason :: (headers.map Header.line ++ [[], []]) := by
    rw [renderHead, decodeLatin1_encodeLatin1 hlatin1, splitPair_head hlines]
    rfl
  refine ⟨(headers.map Header.line).foldl parseHeader .empty, ?_, fun key ↦ ?_⟩
  · unfold parseHead
    simp only [hsplit, List.headD_cons, List.tail_cons, splitMax_statusLine, int_decimal hstatus, List.foldl_append]
    rfl
  · rw [get?_foldl_parseHeader, Dict.get?_empty, Option.or_none]

/-- `readuntil` reads the head, and nothing of what is behind it. -/
theorem readuntil_renderHead {limit : Nat} (hreason : IsPlain reason)
    (hlimit : (renderHead status reason headers).length ≤ limit + 4) (rest : Bytes) :
    readuntil limit blankLine (renderHead status reason headers ++ rest) =
      .ok (renderHead status reason headers, rest) := by
  have hplain := isPlain_head status headers hreason
  have hlines : AreLines 13 ((statusLine status reason :: headers.map Header.line).map encodeLatin1) := by
    intro line hline
    obtain ⟨text, htext, rfl⟩ := List.mem_map.mp hline
    exact ⟨by simpa [encodeLatin1] using (hplain text htext).1, not_mem_encodeLatin1 (hplain text htext).2⟩
  have hhead : renderHead status reason headers =
      withEnds 13 10 ((statusLine status reason :: headers.map Header.line).map encodeLatin1) ++ [13, 10] :=
    encodeLatin1_withEnds _
  have hread : readUntil blankLine (renderHead status reason headers ++ rest) =
      some (renderHead status reason headers, rest) := by
    rw [hhead, List.append_assoc]
    exact readUntil_head (by decide) hlines rest
  rw [readuntil, hread]
  exact if_pos hlimit

end

/-! ## What `read_response` makes of a response -/

/-- A content-length with the number of bytes in the body. -/
def lengthHeader (n : Nat) : Header where
  name := "Content-Length".toList
  value := ' ' :: Nat.toDigits 10 n
  isPlain := by
    have hname : IsPlain "Content-Length".toList :=
      show ∀ c ∈ "Content-Length".toList, c.toNat < 256 ∧ c ≠ '\r' by decide
    exact hname.append (.cons (by decide) (isPlain_decimal n))
  noColon := by decide

theorem key_lengthHeader (n : Nat) : (lengthHeader n).key = contentLengthKey := by
  show lower (strip "Content-Length".toList) = "content-length".toList
  decide

/-- The other headers are neither a content-length nor a transfer-encoding. -/
def IsOther (header : Header) : Prop :=
  header.key ≠ contentLengthKey ∧ header.key ≠ transferEncodingKey

theorem lastValue_length {before after : List Header} (h : ∀ header ∈ before ++ after, IsOther header) (n : Nat) :
    lastValue (before ++ lengthHeader n :: after) contentLengthKey = some (Nat.toDigits 10 n) := by
  have hafter : after.reverse.find? (fun header ↦ header.key = contentLengthKey) = none := by
    rw [List.find?_eq_none]
    intro header hheader
    simpa using (h header (List.mem_append_right _ (List.mem_reverse.mp hheader))).1
  unfold lastValue
  rw [List.reverse_append, List.reverse_cons, List.append_assoc, List.find?_append, hafter, Option.none_or,
    List.singleton_append, List.find?_cons, show decide ((lengthHeader n).key = contentLengthKey) = true from
      decide_eq_true (key_lengthHeader n)]
  exact congrArg some (strip_decimal n)

theorem lastValue_transferEncoding {before after : List Header} (h : ∀ header ∈ before ++ after, IsOther header)
    (n : Nat) : lastValue (before ++ lengthHeader n :: after) transferEncodingKey = none := by
  unfold lastValue
  rw [Option.map_eq_none_iff, List.find?_eq_none]
  intro header hheader
  rw [List.mem_reverse, List.mem_append, List.mem_cons] at hheader
  simp only [decide_eq_true_eq]
  rcases hheader with hbefore | rfl | hafter
  · exact (h header (List.mem_append_left _ hbefore)).2
  · rw [key_lengthHeader]
    decide
  · exact (h header (List.mem_append_right _ hafter)).2

theorem lengthText_eq {headers : Dict Text Text} {n : Nat}
    (h : headers.get? contentLengthKey = some (Nat.toDigits 10 n)) :
    lengthText headers = Nat.toDigits 10 n := by
  unfold lengthText
  rw [h]
  split
  · rename_i heq
    cases heq
  · rename_i heq
    exact absurd (Option.some.inj heq) Nat.toDigits_ne_nil
  · rename_i value hvalue heq
    exact (Option.some.inj heq).symm

theorem readexactly_append (body rest : Bytes) : readexactly body.length (body ++ rest) = .ok (body, rest) := by
  rw [readexactly, if_neg (by omega), Int.toNat_natCast, if_neg (by simp), List.take_left, List.drop_left]

theorem readResponse_render {limit status : Nat} {reason : Text} {before after : List Header} {body : Bytes}
    (hstatus : IsShort status) (hbody : IsShort body.length) (hreason : IsPlain reason)
    (hothers : ∀ header ∈ before ++ after, IsOther header)
    (hlimit : (renderHead status reason (before ++ lengthHeader body.length :: after)).length ≤ limit + 4)
    (rest : Bytes) :
    readResponse limit (renderHead status reason (before ++ lengthHeader body.length :: after) ++ body ++ rest) =
      .ok (⟨status, body⟩, rest) := by
  obtain ⟨headers, hhead, hget⟩ :=
    parseHead_renderHead hstatus hreason (before ++ lengthHeader body.length :: after)
  have hlength := lengthText_eq ((hget _).trans (lastValue_length hothers body.length))
  have hint : int (lengthText headers) = some (body.length : Int) := by rw [hlength, int_decimal hbody]
  have hread := readuntil_renderHead hreason hlimit (body ++ rest)
  have hencoding := (hget _).trans (lastValue_transferEncoding hothers body.length)
  rw [List.append_assoc]
  unfold readResponse
  simp only [hread, bind, Except.bind, hhead, hencoding, hint]
  cases body with
  | nil => rfl
  | cons b body =>
    have hne : ((b :: body).length : Int) ≠ 0 := by
      rw [List.length_cons]
      omega
    have hexact := readexactly_append (b :: body) rest
    split
    · rename_i hnone
      cases hnone
    · rename_i hzero
      exact absurd (Option.some.inj hzero) hne
    · rename_i length hsome
      rw [← Option.some.inj hsome, hexact]
      rfl

/-! ## What the server makes of a request -/

theorem toList_head {lines : List String} (hne : lines ≠ []) :
    (String.intercalate "\r\n" lines ++ "\r\n\r\n").toList =
      withEnds '\r' '\n' (lines.map String.toList) ++ ['\r', '\n'] := by
  have hends : "\r\n\r\n".toList = ['\r', '\n'] ++ ['\r', '\n'] := rfl
  have hmap : lines.map String.toList ≠ [] := by simpa using hne
  rw [String.toList_append, String.toList_intercalate, hends, ← List.append_assoc]
  exact congrArg (· ++ ['\r', '\n']) (intercalate_end hmap)

theorem encodeUtf8_head {lines : List String} (hne : lines ≠ []) :
    encodeUtf8 (String.intercalate "\r\n" lines ++ "\r\n\r\n") =
      withEnds 13 10 (lines.map encodeUtf8) ++ [13, 10] := by
  have hends : (withEnds '\r' '\n' (lines.map String.toList)).flatMap String.utf8EncodeChar =
      withEnds 13 10 ((lines.map String.toList).map fun line ↦ line.flatMap String.utf8EncodeChar) :=
    flatMap_withEnds String.utf8EncodeChar (by decide) (by decide) _
  rw [encodeUtf8, toList_head hne, List.flatMap_append, hends, List.map_map]
  rfl

theorem areLines_utf8 {lines : List String} (h : AreLines '\r' (lines.map String.toList)) :
    AreLines 13 (lines.map encodeUtf8) := by
  intro bytes hbytes
  obtain ⟨line, hline, rfl⟩ := List.mem_map.mp hbytes
  obtain ⟨hne, hreturn⟩ := h line.toList (List.mem_map_of_mem hline)
  constructor
  · obtain ⟨c, text, htext⟩ := List.exists_cons_of_ne_nil hne
    rw [encodeUtf8, htext, List.flatMap_cons]
    exact List.append_ne_nil_of_left_ne_nil String.utf8EncodeChar_ne_nil _
  · intro hmem
    obtain ⟨c, hc, hcode, hbyte⟩ := of_mem_encodeUtf8 hmem (by decide)
    have hnat : c.toNat = 13 := by
      rw [← Firecracker.toUInt8_toNat (c := c) (by omega), ← hbyte]
      rfl
    rw [show c = '\r' from Char.toNat_inj.mp hnat] at hc
    exact hreturn hc

theorem toList_lengthLine (n : Nat) :
    ("Content-Length: " ++ toString n).toList = "Content-Length".toList ++ ':' :: ' ' :: Nat.toDigits 10 n := by
  rw [String.toList_append, Nat.toString_eq_repr, Nat.toList_repr]
  rfl

theorem return_not_mem_decimal (n : Nat) : '\r' ∉ Nat.toDigits 10 n :=
  fun hmem ↦ (isPlain_decimal n _ hmem).2 rfl

/-- What a line of a head has to be. -/
def IsLine (line : String) : Prop :=
  line.toList ≠ [] ∧ '\r' ∉ line.toList

instance (line : String) : Decidable (IsLine line) :=
  inferInstanceAs (Decidable (_ ∧ _))

theorem isLine_lengthLine (n : Nat) : IsLine ("Content-Length: " ++ toString n) := by
  rw [IsLine, toList_lengthLine]
  refine ⟨List.append_ne_nil_of_right_ne_nil _ (List.cons_ne_nil _ _), fun hmem ↦ ?_⟩
  rcases List.mem_append.mp hmem with hname | hvalue
  · exact absurd hname (by decide)
  · simp [return_not_mem_decimal] at hvalue

theorem areLines_headerLines (payload : Bytes) : AreLines '\r' ((headerLines payload).map String.toList) := by
  have hhost : IsLine ("Host: " ++ hostHeader) := by decide
  have haccept : IsLine "Accept: application/json" := by decide
  have hconnection : IsLine "Connection: close" := by decide
  have htype : IsLine "Content-Type: application/json" := by decide
  have hfour : ∀ text ∈ ["Host: " ++ hostHeader, "Accept: application/json", "Connection: close",
      "Content-Length: " ++ toString payload.length], IsLine text :=
    List.forall_mem_cons.mpr ⟨hhost, List.forall_mem_cons.mpr ⟨haccept, List.forall_mem_cons.mpr ⟨hconnection,
      List.forall_mem_singleton.mpr (isLine_lengthLine _)⟩⟩⟩
  have hlines : ∀ text ∈ headerLines payload, IsLine text := by
    unfold headerLines
    split
    · exact hfour
    · exact List.forall_mem_append.mpr ⟨hfour, List.forall_mem_singleton.mpr htype⟩
  intro line hline
  obtain ⟨text, htext, rfl⟩ := List.mem_map.mp hline
  exact hlines text htext

theorem lengthOf_append {name : Text} (hcolon : ':' ∉ name) (hkey : lower (strip name) = contentLengthKey)
    (value : Text) : lengthOf (name ++ ':' :: value) = Firecracker.natural (strip value) := by
  rw [lengthOf, partition_append hcolon]
  exact if_pos hkey

theorem lengthOf_lengthLine (n : Nat) : lengthOf ("Content-Length: " ++ toString n).toList = some n := by
  have hcolon : ':' ∉ "Content-Length".toList := by decide
  have hkey : lower (strip "Content-Length".toList) = contentLengthKey := by decide
  have hvalue : Firecracker.natural (strip (' ' :: Nat.toDigits 10 n)) = some n := by
    rw [strip_decimal, Firecracker.natural_toDigits]
  exact (congrArg lengthOf (toList_lengthLine n)).trans ((lengthOf_append hcolon hkey _).trans hvalue)

/-- The content-length of a request counts the bytes of the payload. -/
theorem findSome?_headerLines (payload : Bytes) :
    ((headerLines payload).map String.toList ++ [[], []]).findSome? lengthOf = some payload.length := by
  have hhost : lengthOf ("Host: " ++ hostHeader).toList = none := by decide
  have haccept : lengthOf "Accept: application/json".toList = none := by decide
  have hconnection : lengthOf "Connection: close".toList = none := by decide
  unfold headerLines
  split
  · simp only [List.map_cons, List.cons_append, List.findSome?_cons, hhost, haccept, hconnection, lengthOf_lengthLine]
  · simp only [List.map_cons, List.cons_append, List.findSome?_cons, hhost, haccept, hconnection, lengthOf_lengthLine]

theorem payloadOf_some_ne_nil {J : Type} (json : Json J) (body : J) : payloadOf json (some body) ≠ [] := by
  intro hnil
  have hempty : json.dumps body = "" := by
    have hdecode := decodeUtf8_encodeUtf8 (json.dumps body)
    rw [show encodeUtf8 (json.dumps body) = [] from hnil] at hdecode
    exact (Option.some.inj hdecode).symm
  have hloads := json.loads_dumps body
  rw [hempty, json.loads_empty] at hloads
  cases hloads

/-- The server finds the end of a head, and its lines. -/
theorem readUntil_lines {line : String} {lines : List String}
    (h : AreLines '\r' ((line :: lines).map String.toList)) (payload : Bytes) :
    ∃ head, readUntil blankLine
        (encodeUtf8 (String.intercalate "\r\n" (line :: lines) ++ "\r\n\r\n") ++ payload) = some (head, payload) ∧
      (decodeUtf8 head).map (fun text ↦ splitPair '\r' '\n' text.toList) =
        some (line.toList :: (lines.map String.toList ++ [[], []])) := by
  have hne : line :: lines ≠ [] := List.cons_ne_nil _ _
  refine ⟨encodeUtf8 (String.intercalate "\r\n" (line :: lines) ++ "\r\n\r\n"), ?_, ?_⟩
  · rw [encodeUtf8_head hne, List.append_assoc]
    exact readUntil_head (by decide) (areLines_utf8 h) payload
  · rw [decodeUtf8_encodeUtf8, Option.map_some, toList_head hne, splitPair_head h]
    rfl

theorem splitOn_requestLine {method path : String} (hmethod : ' ' ∉ method.toList) (hpath : ' ' ∉ path.toList) :
    (method ++ " " ++ path ++ " HTTP/1.1").toList.splitOn ' ' =
      [method.toList, path.toList, "HTTP/1.1".toList] := by
  have hversion : ' ' ∉ "HTTP/1.1".toList := by decide
  have hwords : (method ++ " " ++ path ++ " HTTP/1.1").toList =
      [' '].intercalate [method.toList, path.toList, "HTTP/1.1".toList] := by
    simp [List.intercalate]
  rw [hwords]
  apply List.splitOn_intercalate
  · simp only [List.forall_mem_cons]
    exact ⟨hmethod, hpath, hversion, nofun⟩
  · exact List.cons_ne_nil _ _

theorem return_not_mem_requestLine {method path : String} (hmethod : '\r' ∉ method.toList)
    (hpath : '\r' ∉ path.toList) : '\r' ∉ (method ++ " " ++ path ++ " HTTP/1.1").toList := by
  simp [hmethod, hpath]

def IsWord (text : String) : Prop :=
  '\r' ∉ text.toList ∧ ' ' ∉ text.toList

/-- Of a request that `encode_request` has written, the server reads the method, the path and the body, and
nothing is left over. -/
theorem readRequest_encodeRequest {J : Type} (json : Json J) {method path : String}
    (hmethod : IsWord method) (hpath : IsWord path) (body : Option J) :
    readRequest json (encodeRequest json method path body) = some (⟨method, path, body⟩, []) := by
  have hlines : AreLines '\r' (((method ++ " " ++ path ++ " HTTP/1.1") :: headerLines (payloadOf json body)).map
      String.toList) := by
    rw [List.map_cons]
    refine List.forall_mem_cons.mpr ⟨⟨?_, return_not_mem_requestLine hmethod.1 hpath.1⟩, areLines_headerLines _⟩
    simp
  obtain ⟨head, hread, hsplit⟩ := readUntil_lines hlines (payloadOf json body)
  have hrequest := splitOn_requestLine hmethod.2 hpath.2
  have hlength := findSome?_headerLines (payloadOf json body)
  unfold readRequest encodeRequest
  simp only [hread, hsplit, hrequest, hlength, Nat.lt_irrefl, if_false, List.take_length, List.drop_length,
    String.ofList_toList]
  -- a payload is empty only where there is no body, since `loads` takes no empty text
  cases body with
  | none => rfl
  | some body =>
    rw [if_neg (by simpa using payloadOf_some_ne_nil json body)]
    rw [payloadOf, decodeUtf8_encodeUtf8, Option.bind_some, json.loads_dumps]
    rfl

/-- The framing round-trips: what `encode_request` writes is read to its end, and what `read_response` reads is the
response that was written and no byte more. -/
theorem framing_round_trips {J : Type} (json : Json J) :
    (∀ method path : String, IsWord method → IsWord path → ∀ body : Option J,
      readRequest json (encodeRequest json method path body) = some (⟨method, path, body⟩, [])) ∧
    ∀ (limit status : Nat) (reason : Text) (before after : List Header) (body rest : Bytes),
      IsShort status → IsShort body.length → IsPlain reason → (∀ header ∈ before ++ after, IsOther header) →
        let headers := before ++ lengthHeader body.length :: after
        let head := renderHead status reason headers
        head.length ≤ limit + 4 →
          readResponse limit (head ++ body ++ rest) = .ok (⟨status, body⟩, rest) ∧
            ∃ parsed, parseHead head = .ok (status, parsed) ∧ ∀ key, parsed.get? key = lastValue headers key := by
  refine ⟨fun method path hmethod hpath body ↦ readRequest_encodeRequest json hmethod hpath body, ?_⟩
  intro limit status reason before after body rest hstatus hbody hreason hothers headers head hlimit
  exact ⟨readResponse_render hstatus hbody hreason hothers hlimit rest, parseHead_renderHead hstatus hreason _⟩

/-- `json.dumps` and `json.loads`, on the truth values. -/
def jsonBool : Json Bool where
  dumps value := if value then "true" else "false"
  loads text := if text = "true" then some true else if text = "false" then some false else none
  loads_dumps := by decide
  loads_empty := by decide

def serverHeader : Header where
  name := "Server".toList
  value := " Firecracker API: v1".toList
  isPlain := show ∀ c ∈ "Server".toList ++ " Firecracker API: v1".toList, c.toNat < 256 ∧ c ≠ '\r' by decide
  noColon := by decide

theorem framing_round_trips_badRequest :
    readRequest jsonBool (encodeRequest jsonBool "PUT" "/actions" (some true)) =
      some (⟨"PUT", "/actions", some true⟩, []) ∧
    readResponse 65536 (renderHead 400 "Bad Request".toList [serverHeader, lengthHeader 5] ++ ascii "false" ++
      ascii "more") = .ok (⟨400, ascii "false"⟩, ascii "more") := by
  obtain ⟨hrequest, hresponse⟩ := framing_round_trips jsonBool
  constructor
  · exact hrequest "PUT" "/actions" (by unfold IsWord; decide) (by unfold IsWord; decide) (some true)
  · have hothers : ∀ header ∈ [serverHeader] ++ [], IsOther header := by
      intro header hheader
      rw [List.mem_singleton.mp hheader]
      unfold IsOther
      decide
    have hhead : (renderHead 400 "Bad Request".toList [serverHeader, lengthHeader 5]).length ≤ 65536 + 4 := by
      decide +kernel
    exact (hresponse 65536 400 "Bad Request".toList [serverHeader] [] (ascii "false") (ascii "more")
      (by unfold IsShort; decide) (by unfold IsShort; decide) (by unfold IsPlain; decide) hothers
      hhead).1

end Keycard.FcApi
