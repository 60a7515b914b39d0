import Ioscpp.PlistService

/-!
# Lockdown

`lockdownd` answers requests on a byte stream, which is a stream of the device or
a TLS session over it.  Request and answer are property lists behind their length;
an answer with an `Error` is an error of the device.

## Main results

- `run_exchange`: the answer to a request is read whole, in any form that the parser
  reads, and what follows it is left.
- `run_request`: what a request returns of an answer without an error.
-/

namespace Ioscpp

open Ioscpp.Support
open Ioscpp.Protocol

/-- A service that was started. -/
structure Service where
  port : UInt16 := 0
  enableSsl : Bool := false
  deriving DecidableEq, Repr

namespace Lockdown

/-- The smallest property list, `<plist/>`, has eight bytes. -/
def kMinPlistLength : Nat := 8

section Stream

variable {σ : Type} [ByteStream σ]

/-- A request with a label; a dictionary that has one keeps it. -/
def labeled : Plist → Plist
  | .dictionary entries =>
      .dictionary (SortedMap.emplace (ascii "Label") (.string (ascii "ioscpp"))
        entries)
  | request => request

/-- What an answer says, or the error in it. -/
def checkAnswer (answer : Plist) : Result Plist :=
  match answer.find (ascii "Error") with
  | some error => .error (.error
      ⟨.device, error.stringOr (ascii "the device refused the request")⟩)
  | none => .ok answer

def request (request : Plist) : Action Error σ Plist := do
  ByteStream.write (PlistService.frame (labeled request))
  let lengthBytes ← ByteStream.readExact 4
  let length := beValue lengthBytes
  if length < kMinPlistLength then
    Action.fail (protocolError "the lockdownd answer is too short")
  else do
    let answer ← ByteStream.readExact length
    let answer ← Action.lift (Plist.parse answer)
    Action.lift (checkAnswer answer)

/-- A request and its answer, before what the answer says is looked at. -/
def exchange (request : Plist) : Action Error σ Plist := do
  ByteStream.write (PlistService.frame (labeled request))
  let lengthBytes ← ByteStream.readExact 4
  let length := beValue lengthBytes
  if length < kMinPlistLength then
    Action.fail (protocolError "the lockdownd answer is too short")
  else do
    let answer ← ByteStream.readExact length
    Action.lift (Plist.parse answer)

theorem request_eq (message : Plist) :
    (request message : Action Error σ Plist) = (do
      let answer ← exchange message
      Action.lift (checkAnswer answer)) := by
  simp only [request, exchange, bind_assoc]
  refine bind_congr fun _ => bind_congr fun _ => ?_
  split
  · funext stream
    rfl
  · simp only [bind_assoc]

/-- The service that an answer names; the cast keeps the low 16 bits of the
port. -/
def serviceOf (answer : Plist) : Result Service :=
  match answer.find (ascii "Port") with
  | some (.integer port) => .ok {
      port := UInt16.ofNat (port.toInt % 2 ^ 16).toNat
      enableSsl :=
        match answer.find (ascii "EnableServiceSSL") with
        | some (.boolean value) => value
        | _ => false }
  | _ => .error (.error (protocolError "the device did not send a service port"))

/-- The request that starts a service. -/
def serviceRequest (name : Bytes) : Plist :=
  .dictionary [(ascii "Request", .string (ascii "StartService")),
    (ascii "Service", .string name)]

def startService (name : Bytes) : Action Error σ Service := do
  let answer ← request (serviceRequest name)
  Action.lift (serviceOf answer)

end Stream

/-- The bytes are a frame of the answer, in any form that the parser reads, and not
too short for a property list. -/
structure Answers (bytes : Bytes) (answer : Plist) : Prop where
  frames : PlistService.Frames bytes answer
  long : 4 + kMinPlistLength ≤ bytes.length

/-- The header of a property list is longer than the shortest answer, so what the
library writes is an answer. -/
theorem answers_frame {answer : Plist} (h : PlistService.Sendable answer) :
    Answers (PlistService.frame answer) answer where
  frames := h.frames
  long := by
    have hheader : kMinPlistLength ≤ Plist.kXmlHeader.length := by decide +kernel
    rw [PlistService.frame, List.length_append, length_beBytes, Plist.length_toXml]
    omega

/-- The answer to a request is read whole, and what follows it is left. -/
theorem run_exchange {bytes : Bytes} {answer : Plist} (h : Answers bytes answer)
    (message : Plist) (written rest : Bytes) :
    (exchange message).run (⟨bytes ++ rest, written⟩ : MemoryByteStream) =
      (.ok answer, ⟨rest, written ++ PlistService.frame (labeled message)⟩) := by
  obtain ⟨@⟨body, answer, -, hlength, hparses⟩, hlong⟩ := h
  rw [List.length_append, length_beBytes] at hlong
  have hvalue : beValue (beBytes 4 body.length) = body.length :=
    beValue_beBytes_of_lt hlength
  have hprefix := MemoryByteStream.run_readExact_append
    (length_beBytes 4 body.length) (body ++ rest)
    (written ++ PlistService.frame (labeled message))
  have hbody := MemoryByteStream.run_readExact_append
    (show body.length = _ from rfl) rest
    (written ++ PlistService.frame (labeled message))
  rw [List.append_assoc, exchange, Action.run_bind_ok (MemoryByteStream.run_write _ _),
    Action.run_bind_ok hprefix, hvalue, if_neg (by omega),
    Action.run_bind_ok hbody, hparses, Action.run_lift]

/-- An answer without an error is what the request returns. The request is written with
the label of the library, and what follows the answer is left. -/
theorem run_request {bytes : Bytes} {answer : Plist} (h : Answers bytes answer)
    (hok : checkAnswer answer = .ok answer) (message : Plist) (written rest : Bytes) :
    (request message).run (⟨bytes ++ rest, written⟩ : MemoryByteStream) =
      (.ok answer, ⟨rest, written ++ PlistService.frame (labeled message)⟩) := by
  rw [request_eq, Action.run_bind_ok (run_exchange h message written rest),
    Action.run_lift, hok]

/-! ## Exchanges -/

/-- A request, its answer, and the bytes that carry the answer. -/
structure Exchange where
  request : Plist
  answer : Plist
  bytes : Bytes

/-- The answer is what its bytes are read as. -/
def Exchange.Answered (exchange : Exchange) : Prop :=
  Answers exchange.bytes exchange.answer

/-- What exchanges put on the wire: the answers, and the requests. -/
def answersOf (exchanges : List Exchange) : Bytes :=
  exchanges.flatMap Exchange.bytes

def requestsOf (exchanges : List Exchange) : Bytes :=
  exchanges.flatMap fun exchange => PlistService.frame (labeled exchange.request)

end Lockdown

end Ioscpp
