import Ioscpp.DtxChannel

/-!
# Process control

The process-control service launches and kills processes over one DTX channel.
A call names its selector and its arguments, and the process identifier comes
back in the archived payload of its reply.
-/

namespace Ioscpp

open Ioscpp.Support
open Ioscpp.Protocol

/-- The channel of the service. -/
def kProcessControlChannel : Bytes :=
  ascii "com.apple.instruments.server.services.processcontrol"

/-- The connection, and the channel that was opened on it. -/
structure ProcessControl (σ : Type) where
  connection : DtxConnection σ
  channel : DtxChannel := {}

namespace ProcessControl

def kLaunchSelector : Bytes := ascii
  "launchSuspendedProcessWithDevicePath:bundleIdentifier:environment:arguments:options:"

def kProcessIdentifierSelector : Bytes := ascii "processIdentifierForBundleIdentifier:"

def kSignalSelector : Bytes := ascii "sendSignal:toPid:"

/-- The path that a launch names. -/
def kDevicePath : Bytes := ascii "/private/"

/-- The only signal that is sent. -/
def kSigkill : Int64 := 9

def deviceError (message : Bytes) : Error := ⟨.device, message⟩

/-- The process identifier in a reply. -/
def replyPid (reply : Dtx) (what : Bytes) : Result UInt64 :=
  if reply.messageType = .error then
    .error (.error (deviceError (what ++ ascii " was refused")))
  else do
    match ← KeyedArchive.unarchive reply.payload with
    | .integer pid => .ok pid.toUInt64
    | _ => .error (.error
        (protocolError "the process-control reply is not a process id"))

/-- Whether a reply accepts a signal. -/
def replyDone (reply : Dtx) : Result Unit :=
  if reply.messageType = .error then
    .error (.error (deviceError (ascii "the signal was refused")))
  else .ok ()

/-- The arguments of a launch. -/
def launchArguments (bundleId : Bytes) (arguments : List Bytes)
    (killExisting startSuspended : Bool) : List Plist := [
  .string kDevicePath,
  .string bundleId,
  .dictionary (SortedMap.ofEntries
    [(ascii "NSUnbufferedIO", .string (ascii "YES"))]),
  .array (arguments.map .string),
  .dictionary (SortedMap.ofEntries
    [(ascii "StartSuspendedKey", .integer (if startSuspended then 1 else 0)),
      (ascii "KillExisting", .integer (if killExisting then 1 else 0))])]

variable {σ : Type} [ByteStream σ]

def onConnection {α : Type} (x : Action Error (DtxConnection σ) α) :
    Action Error (ProcessControl σ) α :=
  Action.zoom (·.connection)
    (fun control connection => { control with connection }) x

/-- Opens the process-control channel. -/
def start (fuel : Nat) : Action Error (ProcessControl σ) Unit := do
  let channel ← onConnection
    (DtxConnection.requestChannel fuel kProcessControlChannel)
  modify fun control => { control with channel }

/-- A method call on the channel. -/
def callMethod (fuel : Nat) (selector : Bytes) (arguments : List Plist) :
    Action Error (ProcessControl σ) Dtx := do
  let control ← get
  onConnection (control.channel.methodCall fuel selector arguments)

/-- Launches an app and returns its process identifier. -/
def launch (fuel : Nat) (bundleId : Bytes) (arguments : List Bytes)
    (killExisting startSuspended : Bool) :
    Action Error (ProcessControl σ) UInt64 := do
  let reply ← callMethod fuel kLaunchSelector
    (launchArguments bundleId arguments killExisting startSuspended)
  Action.lift (replyPid reply (ascii "the launch"))

/-- The process identifier of an app, which is 0 when it does not run. -/
def processIdentifier (fuel : Nat) (bundleId : Bytes) :
    Action Error (ProcessControl σ) UInt64 := do
  let reply ← callMethod fuel kProcessIdentifierSelector [.string bundleId]
  Action.lift (replyPid reply (ascii "the process lookup"))

def isRunning (fuel : Nat) (bundleId : Bytes) :
    Action Error (ProcessControl σ) Bool := do
  let pid ← processIdentifier fuel bundleId
  return pid ≠ 0

/-- Kills a process, and waits until the device has answered. -/
def kill (fuel : Nat) (pid : UInt64) : Action Error (ProcessControl σ) Unit := do
  let reply ← callMethod fuel kSignalSelector
    [.integer kSigkill, .integer pid.toInt64]
  Action.lift (replyDone reply)

end ProcessControl

end Ioscpp
