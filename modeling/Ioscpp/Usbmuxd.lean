import Ioscpp.Protocol.BinaryPlistUnfold
import Ioscpp.Protocol.PlistXmlDocument
import Ioscpp.Support.Settled
import Ioscpp.TransportReading

/-!
# The usbmuxd daemon

The daemon's messages have a length of four bytes, which counts itself, a header
and a body.  `muxd_request` sends a property list and reads the answer, by which a
connection finds its device; `Stream::open` sends a `Connect` message over a transport of
its own.  Both refuse an answer of fewer than 16 bytes with its length, which is 12 in the
buffer, and of an answer of type `Result` both read the word at offset 12.

## Main results

- `Answers.run`: an exchange whose answer is long enough ends as its answer is read.
- `run_openConnection`: a connection has the first device of the daemon's list.
- `answers_inside_iff`: when the two readers of an answer stay inside it.
-/

namespace Ioscpp.Usbmuxd

open Ioscpp.Support
open Ioscpp.Protocol

def kMessageResult : Nat := 1

def kConnect : Nat := 2

def kMessagePlist : Nat := 8

def kPlistVersion : Nat := 1

def kResultOk : Nat := 0

section Transport

variable {τ : Type} [Transport τ]

/-! ## Requests -/

/-- The message of a request: its length, the version, the type, a tag, and the
property list. -/
def plistMessage (request : Plist) : Bytes :=
  leBytes 4 (16 + request.toXml.length) ++ leBytes 4 kPlistVersion ++
    leBytes 4 kMessagePlist ++ leBytes 4 1 ++ request.toXml

/-- Reads the length of the answer and the answer behind it. -/
def readAnswer (ended tooShort : Error) : Action Error τ Bytes := do
  let lengthBytes ← Transport.readExact ended 4
  let length ← Action.lift (readLe lengthBytes 0 4)
  if length < 16 then Action.fail tooShort
  else Transport.readExact ended (length - 4)

/-- What an answer to a request says. -/
def parseAnswer (answer : Bytes) : Result Plist := do
  let messageType ← readLe answer 4 4
  if messageType = kMessageResult then do
    let result ← readLe answer 12 4
    if result ≠ kResultOk then
      .error (.error ⟨.device, ascii "usbmuxd refused the request"⟩)
    else return .null
  else do
    let body ← slice answer 12 (answer.length - 12)
    Plist.parse body

def muxdRequest (request : Plist) : Action Error τ Plist := do
  Transport.write (plistMessage request)
  let answer ← readAnswer (protocolError "the link closed mid-message")
    (protocolError "the usbmuxd answer is too short")
  Action.lift (parseAnswer answer)

/-- The request for the devices that the daemon knows. -/
def listDevices : Plist :=
  .dictionary [(ascii "MessageType", .string (ascii "ListDevices"))]

/-- The id of the first device of a list, cut to 32 bits. -/
def deviceIdOf (answer : Plist) : Result UInt32 :=
  match answer.find (ascii "DeviceList") with
  | some (.array (device :: _)) =>
      match device.find (ascii "DeviceID") with
      | some (.integer id) => .ok id.toUInt64.toUInt32
      | _ => .error (.error
          (protocolError "the usbmuxd device list has no DeviceID"))
  | _ => .error (.error ⟨.transport, ascii "no device is attached to usbmuxd"⟩)

/-- `Connection::open` over a transport that speaks to the daemon: the id of the device
that the streams of the connection are opened on. -/
def openConnection : Action Error τ UInt32 := do
  let answer ← muxdRequest listDevices
  Action.lift (deviceIdOf answer)

/-- The message that connects to a port of a device. -/
def connectMessage (deviceId : UInt32) (port : UInt16) : Bytes :=
  leBytes 4 24 ++ leBytes 4 1 ++ leBytes 4 kConnect ++ leBytes 4 1 ++
    leBytes 4 deviceId.toNat ++ leBytes 2 port.toNat ++ leBytes 2 0

def portRefused : Error := ⟨.device, ascii "usbmuxd refused the port"⟩

/-- Whether the daemon connected; the result is looked at only in an answer of
type `Result`. -/
def checkConnected (answer : Bytes) : Result Unit := do
  let messageType ← readLe answer 4 4
  if messageType ≠ kMessageResult then .error (.error portRefused)
  else do
    let result ← readLe answer 12 4
    if result ≠ kResultOk then .error (.error portRefused) else return ()

/-- The part of `Stream::open` that speaks to the daemon over the transport that
`open_transport_` returned. -/
def openStream (deviceId : UInt32) (port : UInt16) : Action Error τ Unit := do
  Transport.write (connectMessage deviceId port)
  let answer ← readAnswer
    (protocolError "the device closed the port mid-message")
    (protocolError "the usbmuxd connect answer is too short")
  Action.lift (checkConnected answer)

/-! ## Reading inside an answer -/

/-- The message type is not `Result`, or the answer holds the result: the four bytes at
offset 12, behind the version, the type and the tag. -/
def HoldsResult (answer : Bytes) : Prop :=
  leValue ((answer.drop 4).take 4) = kMessageResult → 16 ≤ answer.length

/-- Nothing is read outside a buffer: the call ends in some other way, with a value or
an error. -/
def Inside {α : Type} (result : Result α) : Prop := result ≠ .error .outOfBounds

theorem Inside.of_settled {α : Type} {result : Result α} (h : Settled result) :
    Inside result := by
  intro heq
  rcases h with ⟨a, rfl⟩ | ⟨e, rfl⟩
  · cases heq
  · cases heq

/-- Either form of a property list is read inside its bytes. -/
theorem settled_parsePlist (bytes : Bytes) : Settled (Plist.parse bytes) := by
  unfold Plist.parse
  apply Settled.ite
  · rw [Plist.parseBinary_eq_unfold]
    exact Plist.unfoldBinary_outcome bytes
  · rcases Plist.ends_parseXml bytes with ⟨value, hvalue⟩ | ⟨message, hmessage⟩
    · exact .inl ⟨value, hvalue⟩
    · exact .inr ⟨_, hmessage⟩

variable {answer : Bytes}

theorem inside_parseAnswer_iff (h : 12 ≤ answer.length) :
    Inside (parseAnswer answer) ↔ HoldsResult answer := by
  unfold parseAnswer HoldsResult
  rw [readLe_eq (by omega), ok_bind]
  by_cases hresult : leValue ((answer.drop 4).take 4) = kMessageResult
  · rw [if_pos hresult]
    by_cases hlong : 16 ≤ answer.length
    · rw [readLe_eq (by omega), ok_bind]
      apply iff_of_true
      · apply Inside.of_settled
        exact Settled.ite (settled_error _) (settled_ok _)
      · exact fun _ => hlong
    · rw [readLe_outside (by omega) h]
      exact iff_of_false (fun hinside => hinside rfl) fun hholds =>
        hlong (hholds hresult)
  · rw [if_neg hresult, slice_of_le (by omega), ok_bind]
    apply iff_of_true
    · exact Inside.of_settled (settled_parsePlist _)
    · exact fun heq => absurd heq hresult

theorem inside_checkConnected_iff (h : 12 ≤ answer.length) :
    Inside (checkConnected answer) ↔ HoldsResult answer := by
  unfold checkConnected HoldsResult
  rw [readLe_eq (by omega), ok_bind]
  by_cases hresult : leValue ((answer.drop 4).take 4) = kMessageResult
  · rw [if_neg (not_not.mpr hresult)]
    by_cases hlong : 16 ≤ answer.length
    · rw [readLe_eq (by omega), ok_bind]
      apply iff_of_true
      · apply Inside.of_settled
        exact Settled.ite (settled_error _) (settled_ok _)
      · exact fun _ => hlong
    · rw [readLe_outside (by omega) h]
      exact iff_of_false (fun hinside => hinside rfl) fun hholds =>
        hlong (hholds hresult)
  · rw [if_pos hresult]
    apply iff_of_true
    · exact Inside.of_settled (settled_error _)
    · exact fun heq => absurd heq hresult

/-! ## Over a transport -/

/-- The transport takes the message, and what it answers is of this length with
the length itself. -/
structure Answers (transport : τ) (message : Bytes) (length : Nat)
    (answer : Bytes) : Prop where
  size : answer.length = length - 4
  exchange : ∀ ended, ∃ asked measured last lengthBytes,
    (Transport.write message).run transport = (.ok (), asked) ∧
      (Transport.readExact ended 4).run asked = (.ok lengthBytes, measured) ∧
      (readLe lengthBytes 0 4 : Result Nat) = .ok length ∧
      (Transport.readExact ended (length - 4)).run measured = (.ok answer, last)

/-- An exchange whose answer is long enough ends as its answer is read: both readers of
the daemon's answers are such an exchange. -/
theorem Answers.run {α : Type} {transport : τ} {message : Bytes} {length : Nat}
    (h : Answers transport message length answer) (hlong : 16 ≤ length)
    (ended tooShort : Error) (f : Bytes → Result α) :
    ((do
      Transport.write message
      let answer ← readAnswer ended tooShort
      Action.lift (f answer) : Action Error τ α).run transport).1 = f answer := by
  obtain ⟨asked, measured, last, lengthBytes, hwrite, hprefix, hlength, hread⟩ :=
    h.exchange ended
  have hanswer : (readAnswer ended tooShort).run asked = (.ok answer, last) := by
    unfold readAnswer
    rw [Action.run_bind_ok hprefix, hlength]
    have hlift : (Action.lift (.ok length : Result Nat)).run measured =
        (.ok length, measured) := rfl
    rw [Action.run_bind_ok hlift, if_neg (by omega)]
    exact hread
  rw [Action.run_bind_ok hwrite, Action.run_bind_ok hanswer]
  rfl

/-- A connection over the daemon has the first device of the answer to its request. -/
theorem run_openConnection {transport : τ} {length : Nat}
    (h : Answers transport (plistMessage listDevices) length answer)
    (hlong : 16 ≤ length) :
    ((openConnection : Action Error τ UInt32).run transport).1 =
      parseAnswer answer >>= deviceIdOf := by
  have hrun := h.run hlong (protocolError "the link closed mid-message")
    (protocolError "the usbmuxd answer is too short") parseAnswer
  have hrequest : ((muxdRequest listDevices : Action Error τ Plist).run transport).1 =
      parseAnswer answer := hrun
  unfold openConnection
  rcases hmux : (muxdRequest listDevices : Action Error τ Plist).run transport with
    ⟨result, last⟩
  rw [hmux] at hrequest
  rw [← hrequest]
  cases result with
  | ok value => rw [Action.run_bind_ok hmux]; rfl
  | error fault => rw [Action.run_bind_error hmux]; rfl

/-- For every answer of at least 16 bytes with its length, on its own transport each:
both readers of the answer stay inside it exactly if it is not of type `Result` or it
holds the result, a word behind the length, the version, the type and the tag. -/
theorem answers_inside_iff {first second : τ} {request : Plist}
    {deviceId : UInt32} {port : UInt16} {length : Nat} (hlong : 16 ≤ length)
    (hfirst : Answers first (plistMessage request) length answer)
    (hsecond : Answers second (connectMessage deviceId port) length answer) :
    (Inside ((muxdRequest request).run first).1 ↔ HoldsResult answer) ∧
      (Inside ((openStream deviceId port).run second).1 ↔
        HoldsResult answer) := by
  have hsize : 12 ≤ answer.length := by
    rw [hfirst.size]
    omega
  constructor
  · have hrun : ((muxdRequest request).run first).1 = parseAnswer answer :=
      hfirst.run hlong _ _ _
    rw [hrun]
    exact inside_parseAnswer_iff hsize
  · have hrun : ((openStream deviceId port).run second).1 =
        checkConnected answer := hsecond.run hlong _ _ _
    rw [hrun]
    exact inside_checkConnected_iff hsize

end Transport

/-- A daemon that answers with these bytes after its length. -/
private def answering (answer : Bytes) : ScriptedTransport where
  reads := [.ok (leBytes 4 (4 + answer.length)), .ok answer]

private theorem answers_answering {answer : Bytes} (message : Bytes)
    (hlength : 4 + answer.length < 256 ^ 4) (hne : answer ≠ []) :
    Answers (answering answer) message (4 + answer.length) answer where
  size := by omega
  exchange := by
    intro ended
    have hwrite := ScriptedTransport.run_write_ok message
      (show (answering answer).writes = [] from rfl)
    have hcount : 4 + answer.length - 4 = answer.length := by omega
    have hclean : ScriptedTransport.Clean
        { answering answer with written := [message] } := by
      intro read hmem
      rcases List.mem_pair.mp hmem with rfl | rfl
      · exact ⟨leBytes 4 (4 + answer.length), by simp [leBytes], rfl⟩
      · exact ⟨answer, hne, rfl⟩
    have hremaining : ScriptedTransport.remaining
        { answering answer with written := [message] } =
          leBytes 4 (4 + answer.length) ++ answer := by
      simp [answering, ScriptedTransport.remaining]
    obtain ⟨measured, hprefix, hdelivers⟩ :=
      ScriptedTransport.run_readExact ended hclean (show 4 ≤ _ by
        rw [hremaining]
        simp)
    have htake : (leBytes 4 (4 + answer.length) ++ answer).take 4 =
        leBytes 4 (4 + answer.length) := List.take_left' (length_leBytes 4 _)
    have hrest : measured.remaining = answer := by
      have hsplit := hdelivers.remaining
      rw [hremaining, htake] at hsplit
      exact (List.append_cancel_left hsplit).symm
    obtain ⟨last, hread, -⟩ := ScriptedTransport.run_readExact ended
      (hdelivers.clean hclean) (show answer.length ≤ _ by rw [hrest])
    rw [hremaining, htake] at hprefix
    rw [hrest, List.take_length] at hread
    rw [hcount]
    refine ⟨_, measured, last, _, hwrite, hprefix, ?_, hread⟩
    have hword : (readLe (leBytes 4 (4 + answer.length)) 0 4 : Result Nat) =
        .ok (4 + answer.length) :=
      readLe_word_of_lt [] [] (by simp) rfl hlength
    rw [hword]

/-- The whole header of a `Result` that says that all went well. -/
private def resultAnswer : Bytes :=
  leBytes 4 1 ++ leBytes 4 kMessageResult ++ leBytes 4 1 ++ leBytes 4 kResultOk

theorem answers_inside_iff_resultAnswer :
    (Inside ((muxdRequest .null).run (answering resultAnswer)).1 ↔
        HoldsResult resultAnswer) ∧
      (Inside ((openStream 3 62078).run (answering resultAnswer)).1 ↔
        HoldsResult resultAnswer) :=
  answers_inside_iff (by decide +kernel)
    (answers_answering _ (by decide +kernel) (by decide +kernel))
    (answers_answering _ (by decide +kernel) (by decide +kernel))

/-- A `Result` of 16 bytes with its length has no result, and both read one
behind it. -/
theorem not_answers_inside_shortResult :
    ((muxdRequest .null).run (answering (resultAnswer.take 12))).1 =
        .error .outOfBounds ∧
      ((openStream 3 62078).run (answering (resultAnswer.take 12))).1 =
        .error .outOfBounds := by
  constructor
  · rfl
  · decide +kernel

end Ioscpp.Usbmuxd
