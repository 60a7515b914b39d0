import Ioscpp.AfcLockStep
import Ioscpp.PlistService

/-!
# Apps

An app is installed from a package that is first pushed to the staging directory of
the device and then named to its installer, and uninstalled by its identifier.  The
installer reports statuses, up to one that says how the command ended.

The services are reached through `lockdownd` or through the RSD; the steps are the
same, and the names of the services differ.
-/

namespace Ioscpp

open Ioscpp.Support
open Ioscpp.Support.Action
open Ioscpp.Protocol

/-- What starts services by their names.  A stream is closed before the next service
is started, and leaves its traces in the host. -/
class ServiceHost (ω : Type) (σ : outParam Type) where
  startService : Bytes → Action Error ω σ
  release : Bytes → σ → ω → ω

/-- A service of the device, for as long as `x` uses it; its stream is closed
however `x` ends. -/
def withService {ω σ α : Type} [ServiceHost ω σ] (name : Bytes)
    (x : Action Error σ α) : Action Error ω α := do
  let link ← ServiceHost.startService name
  fun host =>
    let outcome := x.run link
    (outcome.1, ServiceHost.release name outcome.2 host)

namespace App

/-! ## The installer -/

structure PackageResult where
  success : Bool := false
  output : Bytes := []
  deriving DecidableEq, Repr

section Installer

variable {σ : Type} [ByteStream σ]

/-- Reads statuses up to one that says how the command ended.  The device sends
them, so `fuel` bounds the turns. -/
def installerLoop : Nat → Action Error σ PackageResult
  | 0 => Action.lift (.error .outOfFuel)
  | fuel + 1 => do
      let status ← PlistService.receive
      match status.find (ascii "Error") with
      | some error => return { output := error.stringOr (ascii "installation failed") }
      | none =>
          match status.find (ascii "Status") with
          | some state =>
              if state.stringOr [] = ascii "Complete" then return { success := true }
              else installerLoop fuel
          | none => installerLoop fuel

def runInstaller (fuel : Nat) (command : Plist) : Action Error σ PackageResult := do
  PlistService.send command
  installerLoop fuel

end Installer

/-! ## Commands -/

/-- The staging directory that a package is pushed to. -/
def kStagingDirectory : Bytes := ascii "/PublicStaging"

/-- A local package. -/
structure Package where
  isRegular : Bool := true
  filename : Bytes
  file : Afc.SourceFile

def Package.remote (package : Package) : Bytes :=
  kStagingDirectory ++ ascii "/" ++ package.filename

def installCommand (remote : Bytes) : Plist :=
  .dictionary [
    (ascii "ClientOptions",
      .dictionary [(ascii "PackageType", .string (ascii "Developer"))]),
    (ascii "Command", .string (ascii "Install")),
    (ascii "PackagePath", .string remote)]

def uninstallCommand (bundleId : Bytes) : Plist :=
  .dictionary [
    (ascii "ApplicationIdentifier", .string bundleId),
    (ascii "ClientOptions", .dictionary []),
    (ascii "Command", .string (ascii "Uninstall"))]

/-- How services are reached. -/
inductive Route where
  | device
  | rsd
  deriving DecidableEq, Repr

namespace Route

/-- The name of the file service. -/
def afc : Route → Bytes
  | device => ascii "com.apple.afc"
  | rsd => ascii "com.apple.afc.shim.remote"

/-- The name of the installer. -/
def installationProxy : Route → Bytes
  | device => ascii "com.apple.mobile.installation_proxy"
  | rsd => ascii "com.apple.mobile.installation_proxy.shim.remote"

end Route

section Commands

variable {ω σ : Type} [ByteStream σ]

/-- A new AFC client on a stream. -/
def onFreshClient {α : Type} (x : Action Error (σ × Afc) α) : Action Error σ α :=
  Action.zoom (fun link => (link, {})) (fun _ part => part.1) x

/-- Pushes a package to the staging directory, which may exist. -/
def stage (package : Package) : Action Error (σ × Afc) Unit := do
  let _ ← Action.outcome (Afc.makeDirectory kStagingDirectory)
  Afc.withFile package.file (Afc.push package.remote)

variable [ServiceHost ω σ]

def install (route : Route) (fuel : Nat) (package : Package) :
    Action Error ω PackageResult :=
  if package.isRegular then do
    withService route.afc (onFreshClient (stage package))
    withService route.installationProxy
      (runInstaller fuel (installCommand package.remote))
  else Action.fail ⟨.invalidArgument, ascii "the IPA is not a regular file"⟩

def uninstall (route : Route) (fuel : Nat) (bundleId : Bytes) :
    Action Error ω PackageResult :=
  withService route.installationProxy (runInstaller fuel (uninstallCommand bundleId))

end Commands

end App

end Ioscpp
