import Ioscpp.AfcAgreement
import Ioscpp.AppDevice

/-!
# House arrest

House arrest serves the files of one app: the client names the app in a vend command,
and when the command is not refused the same stream becomes that of a file service
whose root is the container of the app.

A device may keep its containers in any way, also one inside another.  Over any
sessions each gives what its calls give on the files that were vended to it, and leaves
the device as if these files were changed in place (`runAll_sandboxes`).

## Main results

- `run_vend`: the vend command and its answer, and the stream behind them.
- `run_perform`: a session does to the device what it does to the files that are
  vended.
- `runAll_sandboxes`: so do sessions in any order, by either route.
-/

namespace Ioscpp.HouseArrest

open Ioscpp.Support
open Ioscpp.Support.Action
open Ioscpp.Protocol
open Ioscpp.Afc (FileCall FileAnswer Store fileDevice)

/-! ## The client -/

def kHouseArrestService : Bytes := ascii "com.apple.mobile.house_arrest"
def kHouseArrestShim : Bytes := ascii "com.apple.mobile.house_arrest.shim.remote"

def kVendContainer : Bytes := ascii "VendContainer"
def kVendDocuments : Bytes := ascii "VendDocuments"

/-- The name of the service. -/
def service : App.Route → Bytes
  | .device => kHouseArrestService
  | .rsd => kHouseArrestShim

def vendCommand (bundleId : Bytes) (documentsOnly : Bool) : Plist :=
  .dictionary [
    (ascii "Command", .string (if documentsOnly then kVendDocuments else kVendContainer)),
    (ascii "Identifier", .string bundleId)]

/-- What an answer to a vend command says. -/
def checkVend (answer : Plist) : Result Unit :=
  match answer.find (ascii "Error") with
  | some error => .error (.error ⟨.device,
      error.stringOr (ascii "the device refused the vend command")⟩)
  | none => .ok ()

section Client

variable {σ α : Type} [ByteStream σ]

/-- Sends the vend command and checks the answer. -/
def vend (bundleId : Bytes) (documentsOnly : Bool) : Action Error σ Unit := do
  PlistService.send (vendCommand bundleId documentsOnly)
  let answer ← PlistService.receive
  Action.lift (checkVend answer)

/-- An exchange, and what its answer says. -/
theorem vend_eq (bundleId : Bytes) (documentsOnly : Bool) :
    (vend bundleId documentsOnly : Action Error σ Unit) = (do
      let answer ← (do
        PlistService.send (vendCommand bundleId documentsOnly)
        PlistService.receive)
      Action.lift (checkVend answer)) := by
  rw [bind_assoc]
  rfl

/-- `HouseArrest::start` on a stream: its file client. -/
def start (bundleId : Bytes) (documentsOnly : Bool) : Action Error σ Afc := do
  vend bundleId documentsOnly
  return {}

/-- What is done with the file client of a stream. -/
def onStarted (bundleId : Bytes) (documentsOnly : Bool)
    (x : Action Error (σ × Afc) α) : Action Error σ α := do
  let afc ← start bundleId documentsOnly
  Action.zoom (fun stream => (stream, afc)) (fun _ part => part.1) x

end Client

/-- `HouseArrest::start` by a route, and what is done with its file client. -/
def withFiles {ω σ α : Type} [ByteStream σ] [ServiceHost ω σ] (route : App.Route)
    (bundleId : Bytes) (documentsOnly : Bool) (x : Action Error (σ × Afc) α) :
    Action Error ω α :=
  withService (service route) (onStarted bundleId documentsOnly x)

/-! ## The stream behind the answer -/

/-- The stream of a file service, behind a packet and its answer. -/
structure Behind (packet answer : Bytes) (link files : AfcLink) : Prop where
  respond : ∀ history, history ≠ [] →
    link.respond (packet :: history) = files.respond history
  sent : link.sent = packet :: files.sent
  replies : link.replies = answer :: files.replies
  received : link.received.flatten = answer ++ files.received.flatten

section Behind

variable {packet answer : Bytes} {link files : AfcLink}

theorem Behind.incoming (h : Behind packet answer link files) :
    link.incoming = files.incoming := by
  rw [AfcLink.incoming, AfcLink.incoming, h.replies, h.received, List.flatten_cons,
    List.length_append, List.drop_append]
  simp

/-- The vend command and its answer are not seen by what comes behind them. -/
theorem agreesBytes_behind (packet answer : Bytes) :
    AgreesBytes (Behind packet answer) where
  readExact count := by
    refine .get_bind fun link files h => ?_
    rw [h.incoming]
    refine .ite ?_ (.fail _)
    refine Agrees.bind (.set ⟨h.respond, h.sent, h.replies, ?_⟩) fun _ => .pure _
    rw [List.flatten_append, h.received, List.flatten_append, List.append_assoc]
  write data := by
    refine .get_bind fun link files h => ?_
    rw [h.sent, List.cons_append, h.respond _ (by simp)]
    cases files.respond (files.sent ++ [data]) with
    | none => exact .fail _
    | some reply =>
        refine .set ⟨h.respond, rfl, ?_, h.received⟩
        rw [h.replies, List.cons_append]

/-- A stream whose first answer was read, and a new one of the file service. -/
theorem behind_connected {respond : List Bytes → Option Bytes} {received : List Bytes}
    {replies : List Bytes → Afc.Reply} (hreceived : received.flatten = answer)
    (h : ∀ history, history ≠ [] →
      respond (packet :: history) = Afc.answering replies history) :
    Behind packet answer { respond, sent := [packet], replies := [answer], received }
      (Afc.connected replies).1 :=
  ⟨h, rfl, rfl, by rw [hreceived, Afc.connected, List.flatten_nil, List.append_nil]⟩

/-- The stream on which a message is read, and the bytes it has for the reader. -/
def Reading (start link : AfcLink) (memory : MemoryByteStream) : Prop :=
  link = { start with received := link.received } ∧
    link.received.flatten ++ memory.incoming = start.replies.flatten

theorem Reading.incoming {start : AfcLink} {memory : MemoryByteStream}
    (h : Reading start link memory) : link.incoming = memory.incoming := by
  rw [AfcLink.incoming, h.1, ← h.2]
  exact List.drop_left

theorem simulates_reading (start : AfcLink) (count : Nat) :
    Simulates (Reading start) (ByteStream.readExact count)
      (ByteStream.readExact count) := by
  rintro link memory bytes next h hrun
  obtain ⟨hcount, rfl, rfl⟩ := MemoryByteStream.of_run_readExact hrun
  have hsplit : link.incoming = memory.incoming.take count ++
      memory.incoming.drop count := by
    rw [h.incoming, List.take_append_drop]
  have hlength : (memory.incoming.take count).length = count := by
    rw [List.length_take]
    omega
  refine ⟨_, AfcLink.run_readExact_append hsplit hlength, ?_, ?_⟩
  · rw [AfcLink.took, h.1]
  · rw [AfcLink.took, List.flatten_append, List.flatten_singleton, List.append_assoc,
      List.take_append_drop]
    exact h.2

/-- A message is answered with one, in any form, and the answer read whole. -/
theorem run_asked {respond : List Bytes → Option Bytes} {message : Plist}
    {bytes : Bytes} {answer : Plist} (hanswer : PlistService.Frames bytes answer)
    (hresponse : respond [PlistService.frame message] = some bytes) :
    ∃ received, received.flatten = bytes ∧
      (do
        PlistService.send message
        PlistService.receive : Action Error AfcLink Plist).run { respond } =
        (.ok answer, {
          respond
          sent := [PlistService.frame message]
          replies := [bytes]
          received }) := by
  have hwrite : (PlistService.send message).run ({ respond } : AfcLink) = _ :=
    AfcLink.run_write_some hresponse
  have hstart : Reading
      (({ respond } : AfcLink).asked (PlistService.frame message) bytes)
      (({ respond } : AfcLink).asked (PlistService.frame message) bytes)
      ⟨bytes ++ [], []⟩ := by
    refine ⟨rfl, ?_⟩
    simp [AfcLink.asked]
  obtain ⟨link, hreceive, hlink, hreceived⟩ :=
    PlistService.simulates_receive (simulates_reading _) hstart
      (PlistService.run_receive hanswer [] [])
  refine ⟨link.received, ?_, ?_⟩
  · simpa [AfcLink.asked] using hreceived
  · rw [run_bind_ok hwrite, hreceive, hlink]
    rfl

end Behind

/-! ## Devices -/

/-- How a device keeps its containers: what it answers to a command, the files that it
gives, what it is after they were changed, and the form that its answers have on the
wire. -/
structure Sandboxes (δ : Type) where
  vend : δ → Plist → Plist × Store
  save : δ → Plist → Store → δ
  form : Plist → Bytes

/-- A device with these containers. -/
structure Host {δ : Type} (sandboxes : Sandboxes δ) where
  state : δ

namespace Host

variable {δ : Type} {sandboxes : Sandboxes δ}

/-- One command, and then the requests of a file client. -/
def respond (host : Host sandboxes) : List Bytes → Option Bytes
  | [] => none
  | packet :: history =>
      (App.commandOf packet).bind fun command =>
        let (answer, store) := sandboxes.vend host.state command
        if history = [] then some (sandboxes.form answer)
        else Afc.answering (fileDevice.answers { store }) history

/-- The device after a stream. -/
def after (host : Host sandboxes) : List Bytes → δ
  | [] => host.state
  | packet :: history =>
      match App.commandOf packet with
      | none => host.state
      | some command =>
          let (answer, store) := sandboxes.vend host.state command
          match checkVend answer with
          | .error _ => host.state
          | .ok _ => sandboxes.save host.state command
              (fileDevice.after { store } (history.map Afc.parseRequest)).store

def startService (name : Bytes) : Action Error (Host sandboxes) AfcLink := do
  let host ← get
  if name = service .device ∨ name = service .rsd then
    return { respond := host.respond }
  else Action.fail ⟨.device, ascii "the device does not advertise the service"⟩

instance : ServiceHost (Host sandboxes) AfcLink where
  startService := startService
  release _ link host := ⟨host.after link.sent⟩

end Host

/-! ## Sessions -/

/-- The app whose files are asked for, the route and the root by which they are, and the
calls on them. -/
structure Session where
  route : App.Route
  bundleId : Bytes
  documentsOnly : Bool
  calls : List FileCall

namespace Session

def command (session : Session) : Plist :=
  vendCommand session.bundleId session.documentsOnly

/-- The calls in their order, each with its result. -/
def callAll {σ : Type} [ByteStream σ] (turns : Nat) (calls : List FileCall) :
    Action Error (σ × Afc) (List (Result FileAnswer)) := fun client =>
  let (results, last) := Afc.runAll turns calls client
  (.ok results, last)

theorem run_callAll {σ : Type} [ByteStream σ] (turns : Nat) (calls : List FileCall)
    (client : σ × Afc) :
    (callAll turns calls).run client =
      (.ok (Afc.runAll turns calls client).1, (Afc.runAll turns calls client).2) := rfl

def perform {ω σ : Type} [ByteStream σ] [ServiceHost ω σ] (turns : Nat)
    (session : Session) : Action Error ω (List (Result FileAnswer)) :=
  withFiles session.route session.bundleId session.documentsOnly
    (callAll turns session.calls)

/-- The session without a stream. -/
def apply {δ : Type} (sandboxes : Sandboxes δ) (session : Session) (state : δ) :
    Result (List (Result FileAnswer)) × δ :=
  let (answer, store) := sandboxes.vend state session.command
  match checkVend answer with
  | .error fault => (.error fault, state)
  | .ok _ =>
      let (results, next) := Afc.applyAll session.calls store
      (.ok results, sandboxes.save state session.command next)

/-- A session whose command has a length that the prefix holds, with calls that the C
library can make. -/
structure Proper (session : Session) : Prop where
  command : session.command.toXml.length < 2 ^ 32
  calls : ∀ call ∈ session.calls, call.Proper

end Session

/-- The sessions in their order, each with its result. -/
def runAll {ω σ : Type} [ByteStream σ] [ServiceHost ω σ] (turns : Nat) :
    List Session → ω → List (Result (List (Result FileAnswer))) × ω
  | [], host => ([], host)
  | session :: rest, host =>
      let (result, next) := (session.perform turns).run host
      let (results, last) := runAll turns rest next
      (result :: results, last)

def applyAll {δ : Type} (sandboxes : Sandboxes δ) :
    List Session → δ → List (Result (List (Result FileAnswer))) × δ
  | [], state => ([], state)
  | session :: rest, state =>
      let (result, next) := session.apply sandboxes state
      let (results, last) := applyAll sandboxes rest next
      (result :: results, last)

theorem sendable_vendCommand {bundleId : Bytes} {documentsOnly : Bool}
    (h : (vendCommand bundleId documentsOnly).toXml.length < 2 ^ 32) :
    PlistService.Sendable (vendCommand bundleId documentsOnly) := by
  have hkeys : [ascii "Command", ascii "Identifier"].Pairwise (· < ·) := by
    decide +kernel
  refine PlistService.sendable_dictionary hkeys ?_ h
  simp only [List.forall_mem_cons]
  exact ⟨PlistService.isText_string _, PlistService.isText_string _, by simp⟩

/-- The device reads the command. -/
theorem Session.Proper.commandOf {session : Session} (h : session.Proper) :
    App.commandOf (PlistService.frame session.command) = some session.command :=
  App.commandOf_frame (sendable_vendCommand h.command)

section Sessions

variable {δ : Type} {sandboxes : Sandboxes δ} {session : Session}

/-- The parser reads every answer back from its form, which is the device's own: XML or
binary, as long as the length prefix holds it. -/
def Sandboxes.Sends (sandboxes : Sandboxes δ) : Prop :=
  ∀ state command, PlistService.Frames
    (sandboxes.form (sandboxes.vend state command).1) (sandboxes.vend state command).1

/-- The vend command has the verdict on the device's answer, and the stream behind the
answer is one of the file service on the store that the command names. -/
theorem run_vend (hsends : sandboxes.Sends) (hproper : session.Proper)
    (host : Host sandboxes) :
    ∃ link, (vend session.bundleId session.documentsOnly).run
        ({ respond := host.respond } : AfcLink) =
          (checkVend (sandboxes.vend host.state session.command).1, link) ∧
      Behind (PlistService.frame session.command)
        (sandboxes.form (sandboxes.vend host.state session.command).1) link
        (Afc.connected (fileDevice.answers
          { store := (sandboxes.vend host.state session.command).2 })).1 := by
  have hcommand := hproper.commandOf
  have hresponse : host.respond [PlistService.frame session.command] =
      some (sandboxes.form (sandboxes.vend host.state session.command).1) := by
    rw [Host.respond, hcommand]
    rfl
  generalize hvend : sandboxes.vend host.state session.command = vended at hresponse ⊢
  have hbehind : ∀ history, history ≠ [] →
      host.respond (PlistService.frame session.command :: history) =
        Afc.answering (fileDevice.answers { store := vended.2 }) history := by
    intro history hhistory
    rw [Host.respond, hcommand, Option.bind_some, hvend]
    exact if_neg hhistory
  obtain ⟨received, hreceived, hrun⟩ :=
    run_asked (hvend ▸ hsends host.state session.command) hresponse
  refine ⟨{
    respond := host.respond
    sent := [PlistService.frame session.command]
    replies := [sandboxes.form vended.1]
    received := received }, ?_, ?_⟩
  · rw [vend_eq, ← Session.command, run_bind_ok hrun, run_lift]
  · exact behind_connected hreceived hbehind

theorem isService (route : App.Route) :
    service route = service .device ∨ service route = service .rsd := by
  cases route
  · exact .inl rfl
  · exact .inr rfl

theorem Host.run_startService (host : Host sandboxes) (route : App.Route) :
    (ServiceHost.startService (service route)).run host =
      (.ok ({ respond := host.respond } : AfcLink), host) := by
  change (Host.startService (service route)).run host = _
  rw [Host.startService, run_bind_ok (run_get host), if_pos (isService route), run_pure]

/-- The device after a command that it knows. -/
theorem Host.after_vended {host : Host sandboxes} {packet : Bytes} {command : Plist}
    (hcommand : App.commandOf packet = some command) (history : List Bytes)
    (hok : checkVend (sandboxes.vend host.state command).1 = .ok ()) :
    host.after (packet :: history) = sandboxes.save host.state command
      (fileDevice.after { store := (sandboxes.vend host.state command).2 }
        (history.map Afc.parseRequest)).store := by
  rw [Host.after, hcommand]
  dsimp only
  rw [hok]

theorem Host.after_refused {host : Host sandboxes} {packet : Bytes} {command : Plist}
    (hcommand : App.commandOf packet = some command) (history : List Bytes)
    {fault : Fault Error}
    (herror : checkVend (sandboxes.vend host.state command).1 = .error fault) :
    host.after (packet :: history) = host.state := by
  rw [Host.after, hcommand]
  dsimp only
  rw [herror]

/-- A session does to the device what it does to the files that are vended, with turns
enough for the files there are. -/
theorem run_perform (hsends : sandboxes.Sends) (hproper : session.Proper) (state : δ) :
    ∃ bound, ∀ turns, bound ≤ turns →
      (session.perform turns).run (⟨state⟩ : Host sandboxes) =
        ((session.apply sandboxes state).1, ⟨(session.apply sandboxes state).2⟩) := by
  obtain ⟨bound, hbound⟩ :=
    @Afc.runAll_stores { store := (sandboxes.vend state session.command).2 } session.calls
      hproper.calls (sandboxes.vend state session.command).2
  refine ⟨bound, fun turns hturns => ?_⟩
  generalize hhost : (⟨state⟩ : Host sandboxes) = host
  obtain rfl : host.state = state := by rw [← hhost]
  have hcommand := hproper.commandOf
  obtain ⟨link, hvend, hbehind⟩ := run_vend hsends hproper host
  have hperform : (session.perform turns).run host =
      (((onStarted session.bundleId session.documentsOnly
          (Session.callAll turns session.calls)).run
          ({ respond := host.respond } : AfcLink)).1,
        ⟨host.after ((onStarted session.bundleId session.documentsOnly
          (Session.callAll turns session.calls)).run
          ({ respond := host.respond } : AfcLink)).2.sent⟩) :=
    App.run_withService (host.run_startService session.route) _
  rw [hperform, onStarted, start]
  cases hcheck : checkVend (sandboxes.vend host.state session.command).1 with
  | error fault =>
      rw [hcheck] at hvend
      rw [run_bind_error (run_bind_error hvend), hbehind.sent,
        Host.after_refused hcommand _ hcheck, Session.apply]
      dsimp only
      rw [hcheck]
  | ok _ =>
      rw [hcheck] at hvend
      obtain ⟨hresults, hlast⟩ := Afc.runAll_agrees (agreesBytes_behind _ _) turns
        session.calls
        (show Afc.Beside _ (link, {}) (Afc.connected _) from ⟨hbehind, rfl⟩)
      obtain ⟨last, hrun, handle, requests, hsent, hfits, hafter⟩ :=
        hbound turns hturns _ ⟨1, Afc.serves_connected _ _⟩
      rw [hrun] at hresults hlast
      have hstarted : (vend session.bundleId session.documentsOnly >>= fun _ =>
          (pure {} : Action Error AfcLink Afc)).run { respond := host.respond } =
          (.ok {}, link) := by
        rw [run_bind_ok hvend, run_pure]
      rw [run_bind_ok hstarted, run_zoom, Session.run_callAll, hresults, hlast.1.sent,
        Host.after_vended hcommand _ hcheck, hsent.sent,
        Afc.Device.map_parseRequest_wire hfits, hafter, Session.apply]
      dsimp only
      rw [hcheck]

/-- Sessions in any order, by either route, give what they give on the containers
themselves, and leave the device with what they leave there. A session whose command the
device refuses has its error, and the sessions behind it go on. -/
theorem runAll_sandboxes (hsends : sandboxes.Sends) {sessions : List Session}
    (hproper : ∀ session ∈ sessions, session.Proper) (state : δ) :
    ∃ bound, ∀ turns, bound ≤ turns →
      runAll turns sessions (⟨state⟩ : Host sandboxes) =
        ((applyAll sandboxes sessions state).1,
          ⟨(applyAll sandboxes sessions state).2⟩) := by
  induction sessions generalizing state with
  | nil => exact ⟨0, fun _ _ => rfl⟩
  | cons session rest ih =>
      obtain ⟨hsession, hrest⟩ := List.forall_mem_cons.mp hproper
      obtain ⟨first, hfirst⟩ := run_perform hsends hsession state
      obtain ⟨bound, hbound⟩ := ih hrest (session.apply sandboxes state).2
      refine ⟨max first bound, fun turns hturns => ?_⟩
      rw [runAll, hfirst turns ((Nat.le_max_left _ _).trans hturns)]
      dsimp only
      rw [hbound turns ((Nat.le_max_right _ _).trans hturns)]
      rfl

end Sessions

/-! ### A run -/

/-- Each app has files of its own, and one app is not there. -/
def perApp : Sandboxes (Bytes → Store) where
  vend state command :=
    match command.find (ascii "Identifier") with
    | some (.string bundleId) =>
        if bundleId = ascii "gone" then
          (App.textStatus "Error" "ApplicationLookupFailed", fun _ => none)
        else (App.textStatus "Status" "Complete", state bundleId)
    | _ => (App.textStatus "Error" "InvalidCommand", fun _ => none)
  save state command store :=
    match command.find (ascii "Identifier") with
    | some (.string bundleId) => Function.update state bundleId store
    | _ => state
  form := PlistService.frame

/-- A file of one app is not one of another, and it stays. -/
def fourSessions : List Session :=
  [⟨.device, ascii "one", false,
      [.push { unread := ascii "hi", reads := fun _ => 1 } (ascii "/a")]⟩,
    ⟨.rsd, ascii "two", false, [.stat (ascii "/a")]⟩,
    ⟨.device, ascii "gone", true, [.stat (ascii "/a")]⟩,
    ⟨.rsd, ascii "one", false, [.pull (ascii "/a") { writes := fun _ => 8 }]⟩]

theorem runAll_sandboxes_fourSessions :
    ∃ turns last, runAll turns fourSessions
        (⟨fun _ _ => none⟩ : Host perApp) =
      ([.ok [.ok .done], .ok [.ok (.metadata none)],
        .error (.error ⟨.device, ascii "ApplicationLookupFailed"⟩),
        .ok [.ok (.content (ascii "hi"))]], last) := by
  have hsends : perApp.Sends := by
    intro state command
    rw [perApp]
    dsimp only
    split
    · split
      · exact (App.sendable_textStatus (by decide +kernel)).frames
      · exact (App.sendable_textStatus (by decide +kernel)).frames
    · exact (App.sendable_textStatus (by decide +kernel)).frames
  have hpath : Afc.IsPath (ascii "/a") := ⟨by decide +kernel, by decide +kernel⟩
  have hproper : ∀ session ∈ fourSessions, session.Proper := by
    simp only [fourSessions, List.forall_mem_cons]
    refine ⟨⟨by decide +kernel, ?_⟩, ⟨by decide +kernel, ?_⟩, ⟨by decide +kernel, ?_⟩,
      ⟨by decide +kernel, ?_⟩, by simp⟩
    · exact List.forall_mem_singleton.mpr hpath
    · exact List.forall_mem_singleton.mpr hpath
    · exact List.forall_mem_singleton.mpr hpath
    · exact List.forall_mem_singleton.mpr ⟨hpath, rfl⟩
  obtain ⟨bound, hbound⟩ := runAll_sandboxes hsends hproper fun _ _ => none
  have hresults : (applyAll perApp fourSessions fun _ _ => none).1 =
      [.ok [.ok .done], .ok [.ok (.metadata none)],
        .error (.error ⟨.device, ascii "ApplicationLookupFailed"⟩),
        .ok [.ok (.content (ascii "hi"))]] := by
    decide +kernel
  exact ⟨bound, _, by rw [hbound bound (Nat.le_refl _), hresults]⟩

end Ioscpp.HouseArrest
