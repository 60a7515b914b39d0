import Ioscpp.Session

/-!
# The connection

A direct link to a device: a mux session whose version was negotiated, and the
counter of the local ports.  The transport stands beside the connection.
-/

namespace Ioscpp

open Ioscpp.Support
open Ioscpp.Protocol

/-- A transport that can be closed. -/
class ClosableTransport (τ : Type) extends Transport τ where
  close : τ → τ

/-- A script answers after the close what it says. -/
instance : ClosableTransport ScriptedTransport where
  close := id

/-- The stale frames that are skipped before the version answer. -/
def kVersionRetryAttempts : Nat := 10

structure Connection where
  session : Session := {}
  nextPort : UInt16 := 1
  closed : Bool := false
  deriving DecidableEq, Repr

namespace Connection

/-- The error of a device that does not answer with its version. -/
def noVersion : Error :=
  protocolError "the device did not answer the version request"

section Transport

variable {τ : Type} [Transport τ]

/-- An operation of the session. -/
def onSession {α : Type} (x : Action Error (τ × Session) α) :
    Action Error (τ × Connection) α :=
  Action.zoom (fun state => (state.1, state.2.session))
    (fun state part => (part.1, { state.2 with session := part.2 })) x

/-- Reads frames until one carries a version. -/
def awaitVersion : Nat → Action Error (τ × Connection) Frame
  | 0 => Action.fail noVersion
  | attempts + 1 => do
      let answer ← onSession Session.receive
      if answer.header.protocol = MuxProtocol.version.id then return answer
      else awaitVersion attempts

/-- The handshake of a direct link, on a connection that is new. -/
def openDirect : Action Error (τ × Connection) Unit := do
  let hostVersion : VersionHeader := {}
  onSession (Session.send .version hostVersion.encode)
  let answer ← awaitVersion kVersionRetryAttempts
  if answer.payload.length < VersionHeader.kSize then Action.fail noVersion
  else do
    let bytes ← Action.lift (slice answer.payload 0 VersionHeader.kSize)
    let deviceVersion ← Action.lift (VersionHeader.decode bytes)
    if deviceVersion.major ≠ 1 ∧ deviceVersion.major ≠ 2 then
      Action.fail (protocolError "the device reported an unknown mux version")
    else do
      modify fun state => (state.1, { state.2 with
        session := { state.2.session with version := deviceVersion.major } })
      if 2 ≤ deviceVersion.major then do
        modify fun state => (state.1, { state.2 with
          session := state.2.session.resetSequences })
        onSession (Session.send .setup [0x07])
      else return ()

/-- Allocates a local port. -/
def allocateLocalPort : Action Error (τ × Connection) UInt16 := do
  let state ← get
  set (state.1, { state.2 with nextPort := state.2.nextPort + 1 })
  return state.2.nextPort

/-- Sends a frame with a TCP header and a payload. -/
def sendTcp (header : TcpHeader) (payload : Bytes) :
    Action Error (τ × Connection) Unit :=
  onSession (Session.send .tcp (header.encode ++ payload))

/-- Reads the next frame. -/
def receive : Action Error (τ × Connection) Frame :=
  onSession Session.receive

end Transport

/-- Closes the link, once. -/
def close {τ : Type} [ClosableTransport τ] :
    Action Error (τ × Connection) Unit := do
  let state ← get
  if state.2.closed then return ()
  else set (ClosableTransport.close state.1, { state.2 with closed := true })

end Connection

end Ioscpp
