import Ioscpp.AfcComplete
import Ioscpp.AfcFileTransfers
import Ioscpp.App
import Ioscpp.ByteStreamSimulation

/-!
# Apps on a device

A device with a file service and an installer: the installer sends statuses for a
command, and they depend on its own state, on the command, and on the files that are
on the device at that time.  Installs and uninstalls in any order return what the
installer says of them, an install names a package that is on the device whole, and
a push that fails is the end of its install.

## Main results

- `run_installerLoop`: the installer's loop returns what the statuses come to, and
  reads them up to the one that decides.
- `run_install`: an install does to the device what it does to its files and apps.
- `runAll_phone`: so do calls of every kind in any order.
-/

namespace Ioscpp.App

open Ioscpp.Support
open Ioscpp.Support.Action
open Ioscpp.Protocol

/-! ## Reading statuses -/

/-- The result that a status decides. -/
def decides (status : Plist) : Option PackageResult :=
  match status.find (ascii "Error") with
  | some error => some { output := error.stringOr (ascii "installation failed") }
  | none =>
      match status.find (ascii "Status") with
      | some state =>
          if state.stringOr [] = ascii "Complete" then some { success := true }
          else none
      | none => none

/-- What statuses come to: the first that decides is the last that counts. -/
def verdict (statuses : List Plist) : Result PackageResult :=
  match statuses.findSome? decides with
  | some result => .ok result
  | none => .error (.error ⟨.io, ascii "the stream ended early"⟩)

/-- The statuses behind the one that decides, which nobody asks for. -/
def behind (statuses : List Plist) : List Plist :=
  (statuses.dropWhile fun status => (decides status).isNone).tail

/-- The installer's stream, and the bytes it has for the client. -/
def Offers (sent : List Bytes) (link : AfcLink) (memory : MemoryByteStream) : Prop :=
  link.sent = sent ∧ link.incoming = memory.incoming

section Reading

variable {sent : List Bytes} {link : AfcLink}

theorem simulates_readExact (count : Nat) :
    Simulates (Offers sent) (ByteStream.readExact count)
      (ByteStream.readExact count) := by
  rintro link memory bytes next ⟨hsent, hincoming⟩ hrun
  obtain ⟨hcount, rfl, rfl⟩ := MemoryByteStream.of_run_readExact hrun
  have hsplit : link.incoming = memory.incoming.take count ++
      memory.incoming.drop count := by
    rw [hincoming, List.take_append_drop]
  have hlength : (memory.incoming.take count).length = count := by
    rw [List.length_take]
    omega
  exact ⟨_, AfcLink.run_readExact_append hsplit hlength, hsent,
    AfcLink.incoming_took hsplit⟩

/-- The next message. -/
theorem run_receive_link {bytes : Bytes} {message : Plist}
    (h : PlistService.Frames bytes message) {rest : Bytes}
    (hincoming : link.incoming = bytes ++ rest) :
    ∃ next, PlistService.receive.run link = (.ok message, next) ∧
      next.sent = link.sent ∧ next.incoming = rest := by
  have hoffers : Offers link.sent link ⟨bytes ++ rest, []⟩ := ⟨rfl, hincoming⟩
  obtain ⟨next, hrun, hnext⟩ :=
    PlistService.simulates_receive simulates_readExact hoffers
      (PlistService.run_receive h [] rest)
  exact ⟨next, hrun, hnext⟩

theorem run_receive_ended (h : link.incoming = []) :
    PlistService.receive.run link =
      (.error (.error ⟨.io, ascii "the stream ended early"⟩), link) := by
  have hread : (ByteStream.readExact 4).run link =
      (.error (.error ⟨.io, ascii "the stream ended early"⟩), link) := by
    change (AfcLink.readExact 4).run link = _
    rw [AfcLink.readExact, run_bind_ok (run_get link), h, if_neg (by decide),
      run_fail]
  rw [PlistService.receive, run_bind_error hread]

theorem verdict_cons_some {status : Plist} {result : PackageResult}
    (h : decides status = some result) (rest : List Plist) :
    verdict (status :: rest) = .ok result := by
  rw [verdict, List.findSome?_cons, h]

theorem verdict_cons_none {status : Plist} (h : decides status = none)
    (rest : List Plist) : verdict (status :: rest) = verdict rest := by
  rw [verdict, verdict, List.findSome?_cons, h]

theorem behind_cons_some {status : Plist} {result : PackageResult}
    (h : decides status = some result) (rest : List Plist) :
    behind (status :: rest) = rest := by
  rw [behind, List.dropWhile_cons_of_neg (by simp [h]), List.tail_cons]

theorem behind_cons_none {status : Plist} (h : decides status = none)
    (rest : List Plist) : behind (status :: rest) = behind rest := by
  rw [behind, behind, List.dropWhile_cons_of_pos (by simp [h])]

/-- A turn of the loop: the status decides, or the loop goes on. -/
theorem installerLoop_step {σ : Type} [ByteStream σ] (fuel : Nat) :
    (installerLoop (fuel + 1) : Action Error σ PackageResult) = (do
      let status ← PlistService.receive
      match decides status with
      | some result => return result
      | none => installerLoop fuel) := by
  rw [installerLoop]
  refine bind_congr fun status => ?_
  rw [decides]
  cases status.find (ascii "Error") with
  | some error => rfl
  | none =>
      cases status.find (ascii "Status") with
      | none => rfl
      | some state =>
          dsimp only
          split
          · rfl
          · rfl

/-- The loop returns what the statuses come to, and has read them up to the one that
decides and no further. -/
theorem run_installerLoop {form : Plist → Bytes} {statuses : List Plist}
    (h : ∀ status ∈ statuses, PlistService.Frames (form status) status)
    (hincoming : link.incoming = statuses.flatMap form) {fuel : Nat}
    (hfuel : statuses.length < fuel) :
    ∃ next, (installerLoop fuel).run link = (verdict statuses, next) ∧
      next.sent = link.sent ∧ next.incoming = (behind statuses).flatMap form := by
  induction statuses generalizing link fuel with
  | nil =>
      obtain ⟨fuel, rfl⟩ := Nat.exists_eq_add_one_of_ne_zero
        (Nat.ne_zero_of_lt hfuel)
      refine ⟨link, ?_, rfl, hincoming⟩
      rw [installerLoop_step, run_bind_error (run_receive_ended hincoming)]
      rfl
  | cons status rest ih =>
      obtain ⟨fuel, rfl⟩ := Nat.exists_eq_add_one_of_ne_zero
        (Nat.ne_zero_of_lt hfuel)
      obtain ⟨hstatus, hrest⟩ := List.forall_mem_cons.mp h
      obtain ⟨next, hrun, hsent, hleft⟩ := run_receive_link hstatus hincoming
      rw [installerLoop_step, run_bind_ok hrun]
      cases hdecides : decides status with
      | some result =>
          rw [verdict_cons_some hdecides, behind_cons_some hdecides]
          exact ⟨next, rfl, hsent, hleft⟩
      | none =>
          rw [verdict_cons_none hdecides, behind_cons_none hdecides]
          obtain ⟨last, hloop, hlast, hbehind⟩ :=
            ih hrest hleft (Nat.lt_of_succ_lt_succ hfuel)
          exact ⟨last, hloop, hlast.trans hsent, hbehind⟩

end Reading

/-! ## The device -/

/-- An installer: the statuses that it sends for a command, its next state, and the
form that a status has on the wire. -/
structure Installer (δ : Type) where
  obey : δ → Afc.Store → Plist → List Plist × δ
  form : Plist → Bytes

/-- A device with a file service and this installer.  `unread` is what each stream of
the installer still had for the client when it was closed. -/
structure Phone {δ : Type} (installer : Installer δ) where
  files : Afc.FileServer
  apps : δ
  unread : List Bytes := []

/-- The command of a packet. -/
def commandOf (packet : Bytes) : Option Plist :=
  match Plist.parse (packet.drop 4) with
  | .ok command => some command
  | .error _ => none

namespace Phone

variable {δ : Type} {installer : Installer δ}

/-- The statuses for the one command of a stream. -/
def respond (phone : Phone installer) : List Bytes → Option Bytes
  | [packet] =>
      some (match commandOf packet with
        | some command => (installer.obey phone.apps phone.files.store command).1.flatMap
            installer.form
        | none => [])
  | _ => none

/-- The installer after a stream. -/
def commanded (phone : Phone installer) : List Bytes → Phone installer
  | [packet] =>
      match commandOf packet with
      | some command =>
          { phone with apps := (installer.obey phone.apps phone.files.store command).2 }
      | none => phone
  | _ => phone

def startService (name : Bytes) : Action Error (Phone installer) AfcLink := do
  let phone ← get
  if name = Route.device.afc ∨ name = Route.rsd.afc then
    return (Afc.connected (Afc.fileDevice.answers phone.files)).1
  else if name = Route.device.installationProxy ∨
      name = Route.rsd.installationProxy then
    return { respond := phone.respond }
  else Action.fail ⟨.device, ascii "the device does not advertise the service"⟩

def release (name : Bytes) (link : AfcLink) (phone : Phone installer) :
    Phone installer :=
  if name = Route.device.afc ∨ name = Route.rsd.afc then
    { phone with
      files := Afc.fileDevice.after phone.files (link.sent.map Afc.parseRequest) }
  else
    { phone.commanded link.sent with unread := phone.unread ++ [link.incoming] }

instance : ServiceHost (Phone installer) AfcLink where
  startService := startService
  release := release

end Phone

/-! ## Apps without a device -/

/-- The files and the apps of a device, and what its commands left unread: for each
command the statuses behind the one that decided, as they stood on its stream. -/
structure Shelf (δ : Type) where
  store : Afc.Store
  apps : δ
  unread : List Bytes := []

namespace Shelf

variable {δ : Type} (installer : Installer δ)

/-- A command has its verdict; the statuses behind the one that decides stay
unread. -/
def command (request : Plist) (shelf : Shelf δ) :
    Result PackageResult × Shelf δ :=
  let outcome := installer.obey shelf.apps shelf.store request
  (verdict outcome.1, {
    shelf with
    apps := outcome.2
    unread := shelf.unread ++ [(behind outcome.1).flatMap installer.form] })

/-- The files with the whole package in the staging directory. -/
def staged (package : Package) (store : Afc.Store) : Result Unit × Afc.Store :=
  let made := (store.makeDirectory kStagingDirectory).2
  if package.file.opens then made.put package.remote package.file.unread
  else (.error (.error ⟨.io, ascii "the local file could not be read"⟩), made)

/-- The installer is told of a package that is on the device. -/
def install (package : Package) (shelf : Shelf δ) : Result PackageResult × Shelf δ :=
  if package.isRegular then
    match staged package shelf.store with
    | (.ok (), store) =>
        command installer (installCommand package.remote) { shelf with store }
    | (.error fault, store) => (.error fault, { shelf with store })
  else (.error (.error ⟨.invalidArgument, ascii "the IPA is not a regular file"⟩),
    shelf)

def uninstall (bundleId : Bytes) (shelf : Shelf δ) :
    Result PackageResult × Shelf δ :=
  command installer (uninstallCommand bundleId) shelf

end Shelf

/-! ## Calls -/

/-- A call, by either route. -/
inductive AppCall where
  | install (route : Route) (package : Package)
  | uninstall (route : Route) (bundleId : Bytes)

namespace AppCall

def perform {ω σ : Type} [ByteStream σ] [ServiceHost ω σ] (fuel : Nat) :
    AppCall → Action Error ω PackageResult
  | install route package => App.install route fuel package
  | uninstall route bundleId => App.uninstall route fuel bundleId

def apply {δ : Type} (installer : Installer δ) :
    AppCall → Shelf δ → Result PackageResult × Shelf δ
  | install _ package => Shelf.install installer package
  | uninstall _ bundleId => Shelf.uninstall installer bundleId

/-- A call whose command has a length that the prefix holds, and whose package has a
path of the C library and is read without an error. -/
def Proper : AppCall → Prop
  | install _ package => Afc.IsPath package.remote ∧
      (installCommand package.remote).toXml.length < 2 ^ 32 ∧ package.file.ReadsWhole
  | uninstall _ bundleId => (uninstallCommand bundleId).toXml.length < 2 ^ 32

end AppCall

/-- The calls in their order, each with its result. -/
def runAll {ω σ : Type} [ByteStream σ] [ServiceHost ω σ] (fuel : Nat) :
    List AppCall → ω → List (Result PackageResult) × ω
  | [], host => ([], host)
  | call :: rest, host =>
      let (result, next) := (call.perform fuel).run host
      let (results, last) := runAll fuel rest next
      (result :: results, last)

def applyAll {δ : Type} (installer : Installer δ) :
    List AppCall → Shelf δ → List (Result PackageResult) × Shelf δ
  | [], shelf => ([], shelf)
  | call :: rest, shelf =>
      let (result, next) := call.apply installer shelf
      let (results, last) := applyAll installer rest next
      (result :: results, last)

/-! ## One service -/

theorem sendable_installCommand {remote : Bytes}
    (h : (installCommand remote).toXml.length < 2 ^ 32) :
    PlistService.Sendable (installCommand remote) := by
  have hoptions : ∀ entry ∈ [(ascii "PackageType", Plist.string (ascii "Developer"))],
      entry.2.WellFormed ∧ entry.2.AllLeaves Plist.IsText := by
    rw [List.forall_mem_singleton]
    exact PlistService.isText_string _
  have hkeys : [ascii "ClientOptions", ascii "Command", ascii "PackagePath"].Pairwise
      (· < ·) := by decide +kernel
  refine PlistService.sendable_dictionary hkeys ?_ h
  simp only [List.forall_mem_cons]
  refine ⟨⟨?_, ?_⟩, PlistService.isText_string _, PlistService.isText_string _, by simp⟩
  · exact Plist.wellFormed_dictionary.mpr
      ⟨List.pairwise_singleton _ _, fun entry hmem => (hoptions entry hmem).1⟩
  · exact Plist.allLeaves_dictionary.mpr
      ⟨fun _ _ => trivial, fun entry hmem => (hoptions entry hmem).2⟩

theorem sendable_uninstallCommand {bundleId : Bytes}
    (h : (uninstallCommand bundleId).toXml.length < 2 ^ 32) :
    PlistService.Sendable (uninstallCommand bundleId) := by
  have hkeys : [ascii "ApplicationIdentifier", ascii "ClientOptions",
      ascii "Command"].Pairwise (· < ·) := by decide +kernel
  refine PlistService.sendable_dictionary hkeys ?_ h
  simp only [List.forall_mem_cons]
  refine ⟨PlistService.isText_string _, ⟨?_, ?_⟩, PlistService.isText_string _, by simp⟩
  · exact Plist.wellFormed_dictionary.mpr ⟨List.Pairwise.nil, by simp⟩
  · exact Plist.allLeaves_dictionary.mpr ⟨by simp, by simp⟩

theorem run_withService {ω σ α : Type} [ServiceHost ω σ] {name : Bytes} {host : ω}
    {link : σ}
    (h : (ServiceHost.startService name).run host = (.ok link, host))
    (x : Action Error σ α) :
    (withService name x).run host =
      ((x.run link).1, ServiceHost.release name (x.run link).2 host) := by
  rw [withService, run_bind_ok h]
  rfl

theorem commandOf_frame {message : Plist} (h : PlistService.Sendable message) :
    commandOf (PlistService.frame message) = some message := by
  have hbody : (PlistService.frame message).drop 4 = message.toXml :=
    List.drop_left' (length_beBytes 4 _)
  rw [commandOf, hbody, h.parse_toXml]

theorem ne_afc (route : Route) : ¬ (route.installationProxy = Route.device.afc ∨
    route.installationProxy = Route.rsd.afc) := by
  cases route <;> decide +kernel

theorem isProxy (route : Route) :
    route.installationProxy = Route.device.installationProxy ∨
      route.installationProxy = Route.rsd.installationProxy := by
  cases route
  · exact .inl rfl
  · exact .inr rfl

theorem isAfc (route : Route) :
    route.afc = Route.device.afc ∨ route.afc = Route.rsd.afc := by
  cases route
  · exact .inl rfl
  · exact .inr rfl

section Phone

variable {δ : Type} {installer : Installer δ} {phone : Phone installer}
  {shelf : Shelf δ}

/-- A device with these files and apps, no file open, and these bytes unread. -/
structure Phone.Holds (phone : Phone installer) (shelf : Shelf δ) : Prop where
  store : phone.files.store = shelf.store
  opened : phone.files.opened = []
  apps : phone.apps = shelf.apps
  unread : phone.unread = shelf.unread

/-- An installer whose statuses the parser reads back from their form. The form is the
installer's: XML or binary, as long as the length prefix holds it. -/
def Installer.Sends (installer : Installer δ) : Prop :=
  ∀ apps store command, ∀ status ∈ (installer.obey apps store command).1,
    PlistService.Frames (installer.form status) status

/-- A command does to the device what it does to the apps. -/
theorem run_command (h : phone.Holds shelf) (hsends : installer.Sends) (route : Route)
    {request : Plist} (hrequest : PlistService.Sendable request) {fuel : Nat}
    (hfuel : (installer.obey shelf.apps shelf.store request).1.length < fuel) :
    ∃ next, (withService route.installationProxy (runInstaller fuel request)).run
        phone = ((shelf.command installer request).1, next) ∧
      next.Holds (shelf.command installer request).2 := by
  obtain ⟨hstore, hopened, happs, hunread⟩ := h
  have hstart : (ServiceHost.startService route.installationProxy).run phone =
      (.ok ({ respond := phone.respond } : AfcLink), phone) := by
    change (Phone.startService route.installationProxy).run phone = _
    rw [Phone.startService, run_bind_ok (run_get phone), if_neg (ne_afc route),
      if_pos (isProxy route), run_pure]
  have hresponse : phone.respond [PlistService.frame request] =
      some ((installer.obey shelf.apps shelf.store request).1.flatMap
        installer.form) := by
    rw [Phone.respond, commandOf_frame hrequest, hstore, happs]
  have hwrite : (PlistService.send request).run
      ({ respond := phone.respond } : AfcLink) = _ :=
    AfcLink.run_write_some hresponse
  obtain ⟨last, hloop, hsent, hbehind⟩ := run_installerLoop
    (hsends shelf.apps shelf.store request)
    (AfcLink.Settled.incoming_asked (⟨rfl, rfl⟩ :
      ({ respond := phone.respond } : AfcLink).Settled) (PlistService.frame request)
      ((installer.obey shelf.apps shelf.store request).1.flatMap installer.form)) hfuel
  have hrun : (runInstaller fuel request).run
      ({ respond := phone.respond } : AfcLink) =
      (verdict (installer.obey shelf.apps shelf.store request).1, last) := by
    rw [runInstaller, run_bind_ok hwrite, hloop]
  have hrelease : ServiceHost.release route.installationProxy last phone = {
      phone with
      apps := (installer.obey shelf.apps shelf.store request).2
      unread := shelf.unread ++
        [(behind (installer.obey shelf.apps shelf.store request).1).flatMap
          installer.form] } := by
    change Phone.release route.installationProxy last phone = _
    have hpackets : last.sent = [PlistService.frame request] := hsent
    rw [Phone.release, if_neg (ne_afc route), hpackets, Phone.commanded,
      commandOf_frame hrequest, hstore, happs, hbehind, hunread]
  refine ⟨ServiceHost.release route.installationProxy last phone, ?_, ?_⟩
  · rw [run_withService hstart, hrun]
    rfl
  · rw [hrelease]
    exact ⟨hstore, hopened, rfl, rfl⟩

/-- What a file client leaves on the device. -/
theorem release_stores {store : Afc.Store} {client : AfcLink × Afc} {route : Route}
    (h : Afc.Stores phone.files store client) (happs : phone.apps = shelf.apps)
    (hunread : phone.unread = shelf.unread) :
    (ServiceHost.release route.afc client.1 phone).Holds { shelf with store } := by
  obtain ⟨handle, requests, hsent, hfits, hafter⟩ := h
  have hrelease : ServiceHost.release route.afc client.1 phone =
      { phone with files := ⟨store, [], handle⟩ } := by
    change Phone.release route.afc client.1 phone = _
    rw [Phone.release, if_pos (isAfc route), hsent.sent,
      Afc.Device.map_parseRequest_wire hfits, hafter]
  rw [hrelease]
  exact ⟨rfl, rfl, happs, hunread⟩

/-- A session of a file client, and what it leaves. -/
theorem run_files (h : phone.Holds shelf) (route : Route)
    {x : Action Error (AfcLink × Afc) Unit} {outcome : Result Unit × Afc.Store}
    (hx : ∀ client, Afc.Stores phone.files shelf.store client →
      ∃ next, x.run client = (outcome.1, next) ∧
        Afc.Stores phone.files outcome.2 next) :
    ∃ next, (withService route.afc (onFreshClient x)).run phone =
        (outcome.1, next) ∧ next.Holds { shelf with store := outcome.2 } := by
  obtain ⟨hstore, hopened, happs, hunread⟩ := h
  have hstart : (ServiceHost.startService route.afc).run phone =
      (.ok (Afc.connected (Afc.fileDevice.answers phone.files)).1, phone) := by
    change (Phone.startService route.afc).run phone = _
    rw [Phone.startService, run_bind_ok (run_get phone), if_pos (isAfc route),
      run_pure]
  have hfiles : phone.files = ⟨shelf.store, [], phone.files.nextHandle⟩ := by
    rw [← hstore, ← hopened]
  obtain ⟨client, hrun, hclient⟩ := hx _ ⟨phone.files.nextHandle, by
    rw [← hfiles]
    exact Afc.serves_connected _ _⟩
  refine ⟨_, ?_,
    @release_stores _ _ phone shelf outcome.2 client route hclient happs hunread⟩
  rw [run_withService hstart]
  exact congrArg (fun run => (run.1, ServiceHost.release route.afc run.2.1 phone)) hrun

/-- Making a directory is answered, and the answer ignored. -/
theorem run_outcome_makeDirectory {start : Afc.FileServer} {store : Afc.Store}
    {client : AfcLink × Afc} (h : Afc.Stores start store client) {path : Bytes}
    (hpath : Afc.IsPath path) :
    ∃ result next, (Action.outcome (Afc.makeDirectory path)).run client =
        (.ok result, next) ∧
      Afc.Stores start (store.makeDirectory path).2 next := by
  obtain ⟨next, hrun, hnext⟩ := Afc.run_makeDirectory h hpath
  rcases hresult : (store.makeDirectory path).1 with fault | _
  · obtain ⟨e, rfl⟩ : ∃ e, fault = .error e := by
      rw [Afc.Store.makeDirectory] at hresult
      split at hresult
      · cases hresult
      · cases hresult
      · exact ⟨_, (Except.error.inj hresult).symm⟩
    rw [hresult] at hrun
    exact ⟨_, next, run_outcome_error hrun, hnext⟩
  · rw [hresult] at hrun
    exact ⟨_, next, run_outcome_ok hrun, hnext⟩

theorem run_stage {start : Afc.FileServer} {store : Afc.Store}
    {client : AfcLink × Afc} (h : Afc.Stores start store client) {package : Package}
    (hpath : Afc.IsPath package.remote) (hreads : package.file.ReadsWhole) :
    ∃ next, (stage package).run client = ((Shelf.staged package store).1, next) ∧
      Afc.Stores start (Shelf.staged package store).2 next := by
  have hstaging : Afc.IsPath kStagingDirectory :=
    ⟨by decide +kernel, by decide +kernel⟩
  have hwhole : package.file.content = package.file.unread :=
    (Afc.SourceFile.flatten_chunks_iff (Nat.lt_succ_self _)).mpr hreads
  obtain ⟨_, made, hmake, hmade⟩ := run_outcome_makeDirectory h hstaging
  rw [stage, run_bind_ok hmake, Shelf.staged]
  cases hfile : package.file.opens with
  | false => exact ⟨made, Afc.run_push_unopened hfile _, hmade⟩
  | true =>
      rw [if_pos rfl, ← hwhole]
      exact Afc.run_push hmade hpath hfile

/-- An install does to the device what it does to its files and apps: the package is
staged, the command obeyed, and the statuses read up to the one that decides. -/
theorem run_install (h : phone.Holds shelf) (hsends : installer.Sends) (route : Route)
    {package : Package} (hpath : Afc.IsPath package.remote)
    (hcommand : PlistService.Sendable (installCommand package.remote))
    (hreads : package.file.ReadsWhole) {fuel : Nat}
    (hfuel : (installer.obey shelf.apps (Shelf.staged package shelf.store).2
      (installCommand package.remote)).1.length < fuel) :
    ∃ next, (install route fuel package).run phone =
        ((shelf.install installer package).1, next) ∧
      next.Holds (shelf.install installer package).2 := by
  rw [install, Shelf.install]
  cases package.isRegular with
  | false => exact ⟨phone, rfl, h⟩
  | true =>
      obtain ⟨next, hrun, hnext⟩ := run_files h route
        fun client hclient => run_stage hclient hpath hreads
      rcases hstaged : Shelf.staged package shelf.store with ⟨fault | _, store⟩
      · rw [hstaged] at hrun hnext
        exact ⟨next, run_bind_error hrun, hnext⟩
      · rw [hstaged] at hrun hnext hfuel
        rw [if_pos rfl, run_bind_ok hrun]
        exact run_command hnext hsends route hcommand hfuel

theorem run_perform (hsends : installer.Sends) {call : AppCall}
    (hcall : call.Proper) (shelf : Shelf δ) :
    ∃ bound, ∀ fuel, bound ≤ fuel → ∀ phone : Phone installer, phone.Holds shelf →
      ∃ next, (call.perform fuel).run phone = ((call.apply installer shelf).1, next) ∧
        next.Holds (call.apply installer shelf).2 := by
  cases call with
  | install route package =>
      exact ⟨_, fun fuel hfuel phone h =>
        run_install h hsends route hcall.1 (sendable_installCommand hcall.2.1)
          hcall.2.2 hfuel⟩
  | uninstall route bundleId =>
      exact ⟨_, fun fuel hfuel phone h =>
        run_command h hsends route (sendable_uninstallCommand hcall) hfuel⟩

/-- Calls in any order, from a device with any files and apps, return what they return
on those and leave the device with what they leave there, when the statuses of each
command have their turns. Of what the installer sends to a command the call reads the
statuses up to the one that decides, and the rest stays unread. -/
theorem runAll_phone (hsends : installer.Sends) {calls : List AppCall}
    (hproper : ∀ call ∈ calls, call.Proper) (shelf : Shelf δ) :
    ∃ bound, ∀ fuel, bound ≤ fuel → ∀ phone : Phone installer, phone.Holds shelf →
      ∃ last, runAll fuel calls phone = ((applyAll installer calls shelf).1, last) ∧
        last.Holds (applyAll installer calls shelf).2 := by
  induction calls generalizing shelf with
  | nil => exact ⟨0, fun _ _ phone h => ⟨phone, rfl, h⟩⟩
  | cons call rest ih =>
      obtain ⟨hcall, hrest⟩ := List.forall_mem_cons.mp hproper
      obtain ⟨first, hfirst⟩ := run_perform hsends hcall shelf
      obtain ⟨bound, hbound⟩ := ih hrest (call.apply installer shelf).2
      refine ⟨max first bound, fun fuel hfuel phone h => ?_⟩
      obtain ⟨next, hrun, hnext⟩ :=
        hfirst fuel ((Nat.le_max_left _ _).trans hfuel) phone h
      obtain ⟨last, hloop, hlast⟩ :=
        hbound fuel ((Nat.le_max_right _ _).trans hfuel) next hnext
      refine ⟨last, ?_, hlast⟩
      rw [runAll, hrun]
      dsimp only
      rw [hloop]
      rfl

end Phone

/-! ### A run -/

/-- A status of one text. -/
def textStatus (key text : String) : Plist :=
  .dictionary [(ascii key, .string (ascii text))]

/-- An installer that looks for the package, and keeps the paths of what it
installed.  It sends a status too many. -/
def looking : Installer (List Bytes) where
  obey apps store command :=
    match command.find (ascii "PackagePath") with
    | some (.string path) =>
        match store path with
        | some (.file _) => ([textStatus "Status" "Installing",
            textStatus "Status" "Complete", textStatus "Status" "Installing"],
            path :: apps)
        | _ => ([textStatus "Error" "no package"], apps)
    | _ => ([textStatus "Status" "Complete"], [])
  form := PlistService.frame

theorem sendable_textStatus {key text : String}
    (h : (textStatus key text).toXml.length < 2 ^ 32) :
    PlistService.Sendable (textStatus key text) :=
  PlistService.sendable_dictionary (List.pairwise_singleton _ _)
    (by rw [List.forall_mem_singleton]; exact PlistService.isText_string _) h

theorem sends_looking : looking.Sends := by
  have hcomplete := (@sendable_textStatus "Status" "Complete" (by decide +kernel)).frames
  have hinstalling :=
    (@sendable_textStatus "Status" "Installing" (by decide +kernel)).frames
  have herror := (@sendable_textStatus "Error" "no package" (by decide +kernel)).frames
  intro apps store command
  rw [looking]
  dsimp only
  split
  · split
    · simp only [List.forall_mem_cons]
      exact ⟨hinstalling, hcomplete, hinstalling, by simp⟩
    · rw [List.forall_mem_singleton]
      exact herror
  · rw [List.forall_mem_singleton]
    exact hcomplete

/-- A package is installed by one route, and an app uninstalled by the other; there
is no file for the last package. -/
def installing : List AppCall := [
  .install .device { filename := ascii "a.ipa", file := {
    unread := ascii "hi", reads := fun _ => 1 } },
  .uninstall .rsd (ascii "app"),
  .install .rsd { filename := ascii "b.ipa", file := {
    opens := false, unread := [], reads := fun _ => 1 } }]

theorem proper_installing : ∀ call ∈ installing, call.Proper := by
  simp only [installing, List.forall_mem_cons]
  have huninstall : (uninstallCommand (ascii "app")).toXml.length < 2 ^ 32 := by
    decide +kernel
  have hreads : ∀ file : Afc.SourceFile, (∀ call, file.reads call = 1) →
      file.ReadsWhole := by
    intro file hone call hzero
    rw [hone] at hzero
    cases hzero
  refine ⟨⟨⟨by decide +kernel, by decide +kernel⟩, by decide +kernel,
      hreads _ fun _ => rfl⟩, huninstall,
    ⟨⟨by decide +kernel, by decide +kernel⟩, by decide +kernel,
      hreads _ fun _ => rfl⟩, by simp⟩

theorem runAll_phone_installing :
    ∃ fuel last, runAll fuel installing
        (⟨⟨fun _ => none, [], 1⟩, [], []⟩ : Phone looking) =
      ([.ok { success := true }, .ok { success := true },
        .error (.error ⟨.io, ascii "the local file could not be read"⟩)], last) ∧
      last.unread = [PlistService.frame (textStatus "Status" "Installing"), []] := by
  obtain ⟨bound, hbound⟩ := runAll_phone sends_looking proper_installing
    ⟨fun _ => none, [], []⟩
  obtain ⟨last, hrun, hlast⟩ := hbound bound (Nat.le_refl _)
    ⟨⟨fun _ => none, [], 1⟩, [], []⟩ ⟨rfl, rfl, rfl, rfl⟩
  have hresults : (applyAll looking installing ⟨fun _ => none, [], []⟩).1 =
      [.ok { success := true }, .ok { success := true },
        .error (.error ⟨.io, ascii "the local file could not be read"⟩)] := by
    decide +kernel
  have hunread : (applyAll looking installing ⟨fun _ => none, [], []⟩).2.unread =
      [PlistService.frame (textStatus "Status" "Installing"), []] := by
    decide +kernel
  exact ⟨bound, last, by rw [hrun, hresults], hlast.unread.trans hunread⟩

end Ioscpp.App
