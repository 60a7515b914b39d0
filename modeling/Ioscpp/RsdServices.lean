import Ioscpp.ByteStreamTrace
import Ioscpp.Rsd
import Ioscpp.TcpLinkCarries

/-!
# Services of the RSD

A service that the RSD advertises is reached by a link of its own.  A lockdown
service that is shimmed is checked in to first; then the link is the service's, from
the first byte behind the answers to the check-in.

A shim answers nothing before it has the check-in, so the order of the steps matters:
the same steps over a link that keeps a trace write the check-in first, and then read
the answers, each whole, up to the one that is an error.

## Main results

- `run_checkin_traced`: the steps of a check-in, over any stream.
- `startService_connected`: what starting a service comes to over the tunnel, and where
  the link stands.
-/

namespace Ioscpp.Rsd

open Ioscpp.Support
open Ioscpp.Support.Action
open Ioscpp.Protocol

def deviceError (message : Bytes) : Error := ⟨.device, message⟩

/-- The suffix of a lockdown service that is shimmed. -/
def kShimSuffix : Bytes := ascii ".shim.remote"

def isShim (name : Bytes) : Bool := kShimSuffix.isSuffixOf name

def checkinRequest : Plist :=
  .dictionary [
    (ascii "Label", .string (ascii "ioscpp")),
    (ascii "ProtocolVersion", .string (ascii "2")),
    (ascii "Request", .string (ascii "RSDCheckin"))]

/-- A text of an answer. -/
def textOf (key : Bytes) (answer : Plist) : Option Bytes :=
  match answer.find key with
  | some (.string text) => some text
  | _ => none

/-- The check-in is confirmed. -/
def checkCheckin (answer : Plist) : Result Unit :=
  if textOf (ascii "Request") answer ≠ some (ascii "RSDCheckin") then
    .error (.error (protocolError
      "the service's check-in answer is not an RSDCheckin"))
  else .ok ()

/-- The service is started; an empty error is none. -/
def checkStart (answer : Plist) : Result Unit :=
  if textOf (ascii "Request") answer ≠ some (ascii "StartService") then
    .error (.error (protocolError
      "the service's check-in answer has no StartService"))
  else
    match textOf (ascii "Error") answer with
    | some error =>
        if error ≠ [] then .error (.error (deviceError error)) else .ok ()
    | none => .ok ()

/-- Runs a service's check-in. -/
def checkin {σ : Type} [ByteStream σ] : Action Error σ Unit := do
  PlistService.send checkinRequest
  let answer ← PlistService.receive
  Action.lift (checkCheckin answer)
  let start ← PlistService.receive
  Action.lift (checkStart start)

/-- What a tunnel says of its ends. -/
structure TunnelEnds where
  clientAddress : Bytes
  address : Bytes
  mtu : UInt16

section StartService

variable {τ : Type} [Transport τ]

/-- The tunnel, with the counter of source ports. -/
abbrev Shared (τ : Type) := τ × UInt16

/-- A link on the tunnel, as `x` leaves it. -/
def withLink (link : TcpLink) (x : Action Error (τ × TcpLink) Unit) :
    Action Error (Shared τ) TcpLink := fun shared =>
  let outcome := x.run (shared.1, link)
  (outcome.1.map fun _ => outcome.2.2, (outcome.2.1, shared.2))

/-- The check-in over a link. -/
def checkinLink (turns : Nat) : Action Error (τ × TcpLink) Unit :=
  Action.zoom (fun state => ⟨state, turns⟩) (fun _ link => link.state)
    (checkin : Action Error (TunnelLink τ) Unit)

/-- Starts a service: the link to it.  `fuel` and `turns` bound the packets that
connecting and one read take. -/
def startService (ends : TunnelEnds) (fuel turns : Nat) (services : RsdServices)
    (name : Bytes) : Action Error (Shared τ) TcpLink :=
  match SortedMap.find name services with
  | none =>
      Action.fail (deviceError
        (ascii "the device does not advertise the service"))
  | some service => do
      let link ← Action.zoom Prod.snd (fun shared port => (shared.1, port))
        (TcpLink.openLink ends.clientAddress ends.mtu)
      withLink link do
        TcpLink.connect fuel ends.address service.port
        if isShim name then checkinLink turns else return ()

end StartService

/-! ## The check-in -/

section Checkin

variable {σ : Type} [ByteStream σ] {R : σ → MemoryByteStream → Prop}

/-- What the two answers to a check-in come to. -/
def verdict (answer start : Plist) : Result Unit := do
  checkCheckin answer
  checkStart start

/-- The bytes that are read for a check-in: an answer that does not confirm it is the
last. -/
def bytesRead (answer : Plist) (answerBytes startBytes : Bytes) : Bytes :=
  match checkCheckin answer with
  | .ok _ => answerBytes ++ startBytes
  | .error _ => answerBytes

/-- Without the trace it is the check-in. -/
theorem erases_checkin : Action.Erases
    (checkin : Action Error (Traced σ) Unit) checkin := by
  refine (Traced.erases_send _).bind fun _ => Traced.erases_receive.bind fun answer => ?_
  refine (Action.erases_lift _).bind fun _ => ?_
  exact Traced.erases_receive.bind fun start => Action.erases_lift _

/-- A check-in returns what its answers come to.  The request is written before anything
is read, and each answer is read whole; when the service is started, what follows the
answers is the service's. -/
theorem run_checkin_traced (h : CarriesBytes R) {stream : σ} {answer start : Plist}
    {answerBytes startBytes : Bytes} (hanswer : PlistService.Frames answerBytes answer)
    (hstart : PlistService.Frames startBytes start) {written rest : Bytes}
    (hR : R stream ⟨answerBytes ++ (startBytes ++ rest), written⟩) :
    ∃ (next : σ) (reads : List Bytes), checkin.run ((stream, []) : Traced σ) =
        (verdict answer start,
          (next, .wrote (PlistService.frame checkinRequest) :: reads.map .took)) ∧
      reads.flatten = bytesRead answer answerBytes startBytes ∧
      (verdict answer start = .ok () →
        R next ⟨rest, written ++ PlistService.frame checkinRequest⟩) := by
  obtain ⟨sent, hwrite, hsent⟩ := h.write _ hR (PlistService.run_send checkinRequest _)
  have hsend : (PlistService.send checkinRequest).run ((stream, []) : Traced σ) =
      (.ok (), (sent, [.wrote (PlistService.frame checkinRequest)])) :=
    Traced.run_write_ok hwrite []
  obtain ⟨⟨first, trace⟩, hfirst, hfirstR, reads, rfl, hreads⟩ :=
    Traced.run_receive h hanswer
      (@Traced.reads_start σ R (sent, [.wrote (PlistService.frame checkinRequest)])
        _ hsent)
  rw [checkin, run_bind_ok hsend, run_bind_ok hfirst, verdict, bytesRead]
  rcases hcheck : checkCheckin answer with fault | _
  · exact ⟨first, reads, rfl, List.append_cancel_right hreads, fun hok => by cases hok⟩
  · obtain ⟨⟨second, trace⟩, hsecond, hsecondR, reads, rfl, hreads⟩ :=
      @Traced.run_receive σ _ R _ (answerBytes ++ (startBytes ++ rest)) h _ _ _ _ _ hstart
        ⟨hfirstR, reads, rfl, hreads⟩
    rw [run_bind_ok (run_lift _ _), run_bind_ok hsecond, run_lift]
    refine ⟨second, reads, rfl, ?_, fun _ => hsecondR⟩
    rw [← List.append_assoc] at hreads
    exact List.append_cancel_right hreads

end Checkin

/-! ## A service over the tunnel -/

/-- What a service sends first: the answers to a check-in, if it has one. -/
def preamble (name answerBytes startBytes : Bytes) : Bytes :=
  if isShim name then answerBytes ++ startBytes else []

/-- What a service is sent first. -/
def greeting (name : Bytes) : Bytes :=
  if isShim name then PlistService.frame checkinRequest else []

/-- What starting a service comes to, once its link is connected. -/
def started (name : Bytes) (answer start : Plist) : Result Unit :=
  if isShim name then verdict answer start else .ok ()

section Tunnel

variable {ports : Ports} {base : List Bytes} {first : UInt32} {turns : Nat}
  {state : ScriptedTransport × TcpLink} {name : Bytes} {answer start : Plist}
  {answerBytes startBytes : Bytes}

/-- The check-in was done on this link, the request first: it ends in this state, and
what it read are the answers. -/
def CheckedIn (turns : Nat) (answer start : Plist) (answerBytes startBytes : Bytes)
    (opened state : ScriptedTransport × TcpLink) : Prop :=
  ∃ (link : TunnelLink ScriptedTransport) (reads : List Bytes),
    checkin.run ((⟨opened, turns⟩, []) : Traced (TunnelLink ScriptedTransport)) =
      (verdict answer start,
        (link, .wrote (PlistService.frame checkinRequest) :: reads.map .took)) ∧
    link.state = state ∧ reads.flatten = bytesRead answer answerBytes startBytes

/-- The steps behind the connection. -/
theorem run_greet (hanswer : PlistService.Frames answerBytes answer)
    (hstart : PlistService.Frames startBytes start) {rest : Bytes}
    (hcarried : TunnelLink.Carried ports base first ⟨state, turns⟩
      ⟨preamble name answerBytes startBytes ++ rest, []⟩) :
    ∃ next, (if isShim name then checkinLink turns
        else return () : Action Error (ScriptedTransport × TcpLink) Unit).run state =
        (started name answer start, next) ∧
      (isShim name = true →
        CheckedIn turns answer start answerBytes startBytes state next) ∧
      (started name answer start = .ok () →
        TunnelLink.Carried ports base first ⟨next, turns⟩ ⟨rest, greeting name⟩) := by
  rw [preamble] at hcarried
  rw [started, greeting]
  cases hshim : isShim name with
  | false =>
      rw [hshim] at hcarried
      exact ⟨state, rfl, (by cases ·), fun _ => hcarried⟩
  | true =>
      rw [hshim, if_pos rfl, List.append_assoc] at hcarried
      obtain ⟨next, reads, hrun, hreads, hnext⟩ := run_checkin_traced
        (TunnelLink.carries_turns turns) hanswer hstart ⟨rfl, hcarried⟩
      have hplain : checkin.run (⟨state, turns⟩ : TunnelLink ScriptedTransport) =
          (verdict answer start, next) := erases_checkin.of_run hrun
      refine ⟨next.state, ?_, fun _ => ⟨next, reads, hrun, rfl, hreads⟩, fun hok => ?_⟩
      · rw [if_pos rfl, if_pos rfl, checkinLink, run_zoom, hplain]
      · rw [if_pos rfl] at hok
        obtain ⟨rfl, hlast⟩ := hnext hok
        exact hlast

end Tunnel

/-! ### A run -/

private def requestAnswer (text : String) : Plist :=
  .dictionary [(ascii "Request", .string (ascii text))]

private theorem sendable_requestAnswer {text : String}
    (h : (requestAnswer text).toXml.length < 2 ^ 32) :
    PlistService.Sendable (requestAnswer text) :=
  PlistService.sendable_dictionary (List.pairwise_singleton _ _)
    (by rw [List.forall_mem_singleton]; exact PlistService.isText_string _) h

private def shimName : Bytes := ascii "afc.shim.remote"

private def shimPorts : Ports := ⟨49152, 54323⟩

/-- The answers to the check-in, and two bytes of the service. -/
private def shimBytes : Bytes :=
  preamble shimName (PlistService.frame (requestAnswer "RSDCheckin"))
    (PlistService.frame (requestAnswer "StartService")) ++ [7, 8]

/-- The answer to the SYN, two segments that are cut inside the first answer, and
the FIN. -/
private def shimPackets : List Bytes := [
  TcpLink.peerPacket shimPorts (TcpSyn ||| TcpAck) 0 [],
  TcpLink.peerPacket shimPorts TcpAck 1 (shimBytes.take 20),
  TcpLink.peerPacket shimPorts TcpAck 21 (shimBytes.drop 20),
  TcpLink.peerPacket shimPorts (TcpFin ||| TcpAck)
    (21 + UInt32.ofNat (shimBytes.drop 20).length) []]

private def shimTunnel : ScriptedTransport where
  reads := [.ok shimPackets.flatten]

private theorem inOrder_shim : TcpLink.InOrder shimPorts true 1 shimPackets.tail
    ([shimBytes.take 20, shimBytes.drop 20] ++ [[]]) :=
  .data (TcpLink.isSegment_peerPacket _ TcpAck 1 _) (by decide +kernel) (by decide)
    (by decide) rfl
    (.data (TcpLink.isSegment_peerPacket _ TcpAck 21 _) (by decide +kernel)
      (by decide) (by decide) (by decide +kernel)
      (.fin (TcpLink.isSegment_peerPacket _ (TcpFin ||| TcpAck) _ []) rfl (by decide)
        (by decide) (by decide +kernel)))

private theorem answers_shim : TunnelLink.Answers
    (TcpLink.create (ascii "fe80::1") 1280 49152) 54323 1 shimPackets.tail 9
      shimTunnel where
  clean := by
    intro answer hmem
    rw [List.mem_singleton.mp hmem]
    exact ⟨_, by decide +kernel, rfl⟩
  writes := rfl
  stream := by
    refine ⟨[], shimPackets.head (by decide), _, ?_, by decide +kernel, by simp,
      ⟨TcpLink.isSegment_peerPacket _ (TcpSyn ||| TcpAck) 0 [], by decide, by decide⟩,
      by decide, by decide⟩
    intro packet hmem
    simp only [shimPackets, List.head_cons, List.tail_cons, List.nil_append,
      List.mem_cons, List.not_mem_nil, or_false] at hmem
    rcases hmem with rfl | rfl | rfl | rfl <;>
      exact ⟨by decide +kernel, by decide +kernel, by decide +kernel⟩

end Ioscpp.Rsd
