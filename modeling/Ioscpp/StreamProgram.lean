import Ioscpp.StreamResets

/-!
# Programs over the streams of a connection

A program opens, uses, moves, closes and destroys stream objects of one
connection, and may close the connection.  An object is a variable of the
program, numbered here; a stream is what an accepted handshake made, and has the
number of the call of `open` that made it, whichever object holds it.

The trace of a program records what happened to its streams.  What was sent, and
what a read took, is read off from the calls that the transport got and from what
it answered to them.

## Main results

- `World.effect_use`, `World.effect_read`, `World.effect_closeNow`,
  `World.effect_openDirect`, `World.effect_close`: what the kinds of statements do
  to a world.
- `World.Invariant.performAll`: what each kind of statement keeps is kept by whole
  programs.
-/

namespace Ioscpp.Stream

open Ioscpp.Support
open Ioscpp.Protocol

/-! ## Events -/

/-- What happens to the streams of a connection. -/
inductive Event where
  /-- The handshake of a stream was accepted. -/
  | opened (id : Nat)
  /-- A read for the stream took a frame that is the device's reset of it. -/
  | resetSeen (id : Nat)
  /-- The object that holds the stream was closed, assigned to or destroyed. -/
  | ended (id : Nat)
  /-- A reset frame was handed to the transport, for this stream or for none. -/
  | resetSent (id : Option Nat)
  /-- The transport was closed. -/
  | transportClosed
  deriving DecidableEq, Repr

/-- The event of a call that was made for a stream. -/
def observe (version : UInt32) (id : Option Nat) : TransportCall → List Event
  | .read _ => []
  | .write data _ =>
      if (sentFlags version data).any fun flags => flags &&& TcpRst ≠ 0 then
        [.resetSent id]
      else []
  | .close => [.transportClosed]

/-- The call acknowledges: it sends a frame that is `ACK` alone. -/
def acknowledges (version : UInt32) : TransportCall → Bool
  | .write data _ => sentFlags version data = some TcpAck
  | _ => false

section Observe

variable {version : UInt32} {calls : List TransportCall}

theorem observe_sends (id : Option Nat)
    (h : ∀ call ∈ calls, Sends NoReset version call) :
    calls.flatMap (observe version id) = [] := by
  rw [List.flatMap_eq_nil_iff]
  intro call hmem
  have hcall := h call hmem
  cases call with
  | read => rfl
  | close => exact hcall.elim
  | write data result =>
      rw [observe, if_neg]
      rw [Option.any_eq_true]
      rintro ⟨flags, hsent, hreset⟩
      have hquiet : flags &&& TcpRst = 0 := hcall flags hsent
      rw [hquiet] at hreset
      simp at hreset

theorem acknowledges_sends
    (h : ∀ call ∈ calls, Sends (· = TcpSyn) version call) :
    calls.any (acknowledges version) = false := by
  rw [List.any_eq_false]
  intro call hmem
  have hcall := h call hmem
  cases call with
  | read => simp [acknowledges]
  | close => simp [acknowledges]
  | write data result =>
      intro hack
      have hsyn := hcall TcpAck (of_decide_eq_true hack)
      cases hsyn

end Observe

/-! ## Programs -/

/-- An object: its fields, and the number of the stream that it holds.  An object
that was moved from holds none. -/
structure Held where
  stream : Stream
  id : Option Nat
  deriving DecidableEq, Repr

/-- The state of a program. -/
structure World (τ : Type) where
  link : Recorded τ
  connection : Connection
  objects : Nat → Option Held := fun _ => none
  /-- The calls of `open` so far. -/
  opens : Nat := 0
  trace : List Event := []

/-- A statement of a program.  One that makes no sense for the objects there are
does nothing. -/
inductive Op where
  | openNew (target : Nat) (port : UInt16) (fuel : Nat)
  | write (target : Nat) (data : Bytes)
  | readExact (target count turns : Nat)
  | readAll (target turns fuel : Nat)
  | close (target : Nat)
  | moveConstruct (target source : Nat)
  | moveAssign (target source : Nat)
  | destroy (target : Nat)
  | closeConnection

namespace World

variable {τ : Type}

/-- The state that an operation works on. -/
def state (world : World τ) (stream : Stream) :
    (Recorded τ × Connection) × Stream :=
  ((world.link, world.connection), stream)

/-- The calls that were made since. -/
def callsSince (world : World τ) (link : Recorded τ × Connection) :
    List TransportCall :=
  link.1.calls.drop world.link.calls.length

/-- The world after an operation for a stream that left this link.  The events
of the operation come before those that are observed. -/
def advance (world : World τ) (id : Option Nat) (events : List Event)
    (link : Recorded τ × Connection) : World τ :=
  { world with
    link := link.1
    connection := link.2
    trace := world.trace ++ (events ++ (world.callsSince link).flatMap
      (observe world.connection.session.version id)) }

/-- Changes an object. -/
def put (world : World τ) (target : Nat) (held : Option Held) : World τ :=
  { world with objects := Function.update world.objects target held }

@[simp] theorem objects_put (world : World τ) (target : Nat)
    (held : Option Held) : (world.put target held).objects target = held := by
  simp [put]

theorem objects_put_of_ne (world : World τ) {target other : Nat}
    (held : Option Held) (h : other ≠ target) :
    (world.put target held).objects other = world.objects other := by
  simp [put, Function.update_of_ne h]

theorem put_put (world : World τ) (target : Nat) (held held' : Option Held) :
    (world.put target held).put target held' = world.put target held' := by
  simp [put]

/-- The calls that a read made for an object took the device's reset of its
ports. -/
def sawReset (world : World τ) (held : Held) (link : Recorded τ × Connection) :
    Bool :=
  tookReset world.connection.session.version held.stream.localPort
    held.stream.remotePort (Recorded.bytesRead (world.callsSince link))

/-- The event of a read that took a reset, or none. -/
def resetEvents (id : Option Nat) (seen : Bool) : List Event :=
  if seen then id.toList.map .resetSeen else []

variable [ClosableTransport τ]

/-- The end of what an object holds. -/
def endHeld (world : World τ) (held : Held) : World τ × Stream :=
  let result := (closeNow.run (world.state held.stream)).2
  (world.advance held.id (held.id.toList.map .ended) result.1, result.2)

/-- Performs a statement. -/
def perform (op : Op) (world : World τ) : World τ :=
  match op with
  | .openNew target port fuel =>
      if (world.objects target).isSome then world
      else
        match (openDirect fuel port).run (world.link, world.connection) with
        | (.ok stream, link) =>
            { (world.advance (some world.opens) [.opened world.opens] link).put
                target (some ⟨stream, some world.opens⟩) with
              opens := world.opens + 1 }
        | (.error _, link) =>
            -- a stream whose handshake could not be finished is destroyed
            { world.advance (some world.opens)
                (if (world.callsSince link).any
                    (acknowledges world.connection.session.version) then
                  [.opened world.opens, .ended world.opens] else []) link with
              opens := world.opens + 1 }
  | .write target data =>
      match world.objects target with
      | none => world
      | some held =>
          let result := ((write data).run (world.state held.stream)).2
          (world.advance held.id [] result.1).put target
            (some { held with stream := result.2 })
  | .readExact target count turns =>
      match world.objects target with
      | none => world
      | some held =>
          let result := ((readExact count turns).run (world.state held.stream)).2
          (world.advance held.id
            (resetEvents held.id (world.sawReset held result.1))
            result.1).put target (some { held with stream := result.2 })
  | .readAll target turns fuel =>
      match world.objects target with
      | none => world
      | some held =>
          let result := ((readAll turns fuel).run (world.state held.stream)).2
          (world.advance held.id
            (resetEvents held.id (world.sawReset held result.1))
            result.1).put target (some { held with stream := result.2 })
  | .close target =>
      match world.objects target with
      | none => world
      | some held =>
          let result := world.endHeld held
          result.1.put target (some { held with stream := result.2 })
  | .moveConstruct target source =>
      match world.objects target, world.objects source with
      | none, some held =>
          (world.put target (some held)).put source
            (some ⟨held.stream.movedFrom, none⟩)
      | _, _ => world
  | .moveAssign target source =>
      if target = source then world
      else
        match world.objects target, world.objects source with
        | some old, some held =>
            ((world.endHeld old).1.put target (some held)).put source
              (some ⟨held.stream.movedFrom, none⟩)
        | _, _ => world
  | .destroy target =>
      match world.objects target with
      | none => world
      | some held => (world.endHeld held).1.put target none
  | .closeConnection =>
      world.advance none []
        ((Connection.close.run (world.link, world.connection)).2)

/-- Performs a program. -/
def performAll (program : List Op) (world : World τ) : World τ :=
  program.foldl (fun world op => world.perform op) world

/-- A program starts on a connection that was opened, without objects. -/
def start (link : Recorded τ × Connection) : World τ where
  link := link.1
  connection := link.2

/-- A link whose device accepts the first stream. -/
def acceptingLink : Recorded ScriptedTransport × Connection :=
  ({ transport := {
      reads := [.ok (deviceFrame 62078 (TcpSyn ||| TcpAck) 500 [])] } },
    { session := { version := 1 } })

/-- Each statement of the program has the property in the world before it. -/
def Always (P : World τ → Op → Prop) : List Op → World τ → Prop
  | [], _ => True
  | op :: program, world => P world op ∧ Always P program (world.perform op)

theorem always_append {P : World τ → Op → Prop} {first second : List Op}
    {world : World τ} : Always P (first ++ second) world ↔
      Always P first world ∧ Always P second (world.performAll first) := by
  induction first generalizing world with
  | nil => exact ⟨fun h => ⟨trivial, h⟩, fun h => h.2⟩
  | cons op first ih => rw [List.cons_append, Always, Always, ih, and_assoc]; rfl

/-! ## What the operations do to a world -/

section Effects

variable (world : World τ) (stream : Stream) (id : Option Nat)

omit [ClosableTransport τ] in
/-- The calls that were appended are those since. -/
theorem callsSince_append {link : Recorded τ × Connection}
    {more : List TransportCall} (h : link.1.calls = world.link.calls ++ more) :
    world.callsSince link = more := by
  rw [callsSince, h, List.drop_left]

/-- What a link keeps while nothing is opened or closed. -/
structure Kept (link : Recorded τ × Connection) : Prop where
  version : link.2.session.version = world.connection.session.version
  nextPort : link.2.nextPort = world.connection.nextPort
  closed : link.2.closed = world.connection.closed

omit [ClosableTransport τ] in
/-- Reading and writing. -/
theorem effect_use {α : Type}
    {x : Action Error ((Recorded τ × Connection) × Stream) α}
    (hx : ∀ base nextPort, Action.Keeps (Tame base nextPort stream) x) :
    world.Kept (x.run (world.state stream)).2.1 ∧
      Kin stream (x.run (world.state stream)).2.2 ∧
      (world.callsSince (x.run (world.state stream)).2.1).flatMap
        (observe world.connection.session.version id) = [] := by
  obtain ⟨hcalm, hkin⟩ := (hx (world.link, world.connection)
    world.connection.nextPort).state
    (⟨Calm.refl _, Kin.refl stream⟩ : Tame _ _ stream (world.state stream))
  obtain ⟨more, hcalls, hmore⟩ := hcalm.calls
  refine ⟨⟨hcalm.version, hcalm.nextPort, hcalm.closed⟩, hkin, ?_⟩
  rw [world.callsSince_append hcalls]
  exact observe_sends id hmore

omit [ClosableTransport τ] in
/-- A read closes a stream exactly when it takes the device's reset of it. -/
theorem effect_read {α : Type}
    {x : Action Error ((Recorded τ × Connection) × Stream) α}
    (hx : ∀ calls version before, Action.Triple (Unseen calls version before) x
      (fun _ => Noticed calls version before)
      (fun _ => Noticed calls version before)) (held : Held) :
    (x.run (world.state held.stream)).2.2.closed =
      (held.stream.closed ||
        world.sawReset held (x.run (world.state held.stream)).2.1) := by
  have hnoticed := hx _ _ _ (world.state held.stream)
    (unseen_refl (world.link, world.connection) held.stream)
  have hstate : Noticed world.link.calls world.connection.session.version
      held.stream (x.run (world.state held.stream)).2 := by
    rcases hrun : x.run (world.state held.stream) with ⟨_ | _, next⟩ <;>
      (rw [hrun] at hnoticed; exact hnoticed)
  obtain ⟨seen, ⟨more, hcalls, hseen⟩, hclosed⟩ := hstate
  rw [hclosed, sawReset, world.callsSince_append hcalls, hseen]

/-- Closing an object: an open stream sends a reset while the link is up. -/
theorem effect_closeNow :
    world.Kept (closeNow.run (world.state stream)).2.1 ∧
      (closeNow.run (world.state stream)).2.2 = { stream with
        closed := stream.closed || stream.attached } ∧
      (world.callsSince (closeNow.run (world.state stream)).2.1).flatMap
        (observe world.connection.session.version id) =
        if stream.closed = false ∧ stream.attached = true ∧
          world.connection.closed = false then [.resetSent id] else [] := by
  have hnone : world.callsSince (world.link, world.connection) = [] :=
    world.callsSince_append (List.append_nil _).symm
  by_cases hdone : stream.closed = true ∨ stream.attached = false
  · rw [state, run_closeNow_done hdone, hnone, if_neg (by
      rintro ⟨hopen, hattached, -⟩
      rcases hdone with h | h
      · rw [h] at hopen
        cases hopen
      · rw [h] at hattached
        cases hattached)]
    have hflag : (stream.closed || stream.attached) = stream.closed := by
      rcases hdone with h | h
      · rw [h, Bool.true_or]
      · rw [h, Bool.or_false]
    exact ⟨⟨rfl, rfl, rfl⟩, by rw [hflag], rfl⟩
  · obtain ⟨hopen, hattached⟩ := not_or.mp hdone
    rw [Bool.not_eq_true] at hopen
    rw [Bool.not_eq_false] at hattached
    have hflag : (stream.closed || stream.attached) = true := by
      rw [hattached, Bool.or_true]
    rw [hflag]
    cases hlink : world.connection.closed with
    | true =>
        rw [state, run_closeNow_down hopen hattached hlink, hnone, if_neg (by simp)]
        exact ⟨⟨rfl, rfl, rfl⟩, rfl, rfl⟩
    | false =>
        obtain ⟨transport, result, hrun⟩ := @run_closeNow_up τ _
          (world.link, world.connection) stream hopen hattached hlink
        have hsent : (sentFlags world.connection.session.version
            (world.connection.session.frameBytes .tcp
              ((stream.header TcpRst).encode ++ []))) = some TcpRst :=
          sentFlags_frameBytes _ [] (by decide : (5 : UInt8) < 16)
        have hreset : (some TcpRst).any (fun flags => flags &&& TcpRst ≠ 0) :=
          by decide
        rw [state, hrun, world.callsSince_append rfl, List.flatMap_singleton,
          observe, hsent, if_pos hreset, if_pos ⟨hopen, hattached, rfl⟩]
        exact ⟨⟨rfl, rfl, rfl⟩, rfl, rfl⟩

/-- What an opening that failed leaves: the port is used up, and a handshake that
was acknowledged is reset, while the link is up. -/
structure OpeningFailed (link : Recorded τ × Connection) : Prop where
  nextPort : link.2.nextPort = world.connection.nextPort + 1
  version : link.2.session.version = world.connection.session.version
  closed : link.2.closed = world.connection.closed
  sent : (world.callsSince link).flatMap
      (observe world.connection.session.version id) =
    if (world.callsSince link).any
      (acknowledges world.connection.session.version) ∧
      world.connection.closed = false then [.resetSent id] else []

omit [ClosableTransport τ] in
/-- Until the handshake is accepted, only the SYN is sent. -/
private theorem openingFailed_of_calm {link : Recorded τ × Connection}
    (h : Calm (· = TcpSyn) (world.link, world.connection)
      (world.connection.nextPort + 1) link) : world.OpeningFailed id link := by
  obtain ⟨more, hcalls, hmore⟩ := h.calls
  have hquiet : more.flatMap (observe world.connection.session.version id) = [] :=
    observe_sends id fun call hmem => (hmore call hmem).mono noReset_of_syn
  refine ⟨h.nextPort, h.version, h.closed, ?_⟩
  rw [world.callsSince_append hcalls, hquiet, acknowledges_sends hmore,
    if_neg (by simp)]

omit [ClosableTransport τ] in
private theorem calm_allocateLocalPort :
    Action.Triple (fun link => link = (world.link, world.connection))
      (Connection.allocateLocalPort : Action Error (Recorded τ × Connection) _)
      (fun port link => port = world.connection.nextPort ∧
        Calm (· = TcpSyn) (world.link, world.connection)
          (world.connection.nextPort + 1) link)
      (fun _ => world.OpeningFailed id) := by
  rintro link rfl
  exact ⟨rfl, ⟨[], (List.append_nil _).symm, by simp⟩, rfl, rfl, rfl⟩

omit [ClosableTransport τ] in
/-- A call that keeps the link calm fails before the handshake is accepted. -/
private theorem calm_opening {α : Type}
    {x : Action Error (Recorded τ × Connection) α}
    (hx : Action.Keeps (Calm (· = TcpSyn) (world.link, world.connection)
      (world.connection.nextPort + 1)) x) :
    Action.Triple (Calm (· = TcpSyn) (world.link, world.connection)
        (world.connection.nextPort + 1)) x
      (fun _ => Calm (· = TcpSyn) (world.link, world.connection)
        (world.connection.nextPort + 1))
      (fun _ => world.OpeningFailed id) :=
  hx.imp_post (fun _ _ h => h) fun _ _ h => world.openingFailed_of_calm id h

/-- The acknowledgement of the handshake was handed to the transport, and no
reset. -/
private structure Acknowledged (link : Recorded τ × Connection) : Prop where
  calls : ∃ more, link.1.calls = world.link.calls ++ more ∧
    more.flatMap (observe world.connection.session.version id) = [] ∧
    more.any (acknowledges world.connection.session.version) = true
  nextPort : link.2.nextPort = world.connection.nextPort + 1
  version : link.2.session.version = world.connection.session.version
  closed : link.2.closed = world.connection.closed

/-- The acknowledgement is one call, whether it is accepted or not. -/
private theorem run_acknowledge {link : Recorded τ × Connection}
    (h : Calm (· = TcpSyn) (world.link, world.connection)
      (world.connection.nextPort + 1) link) (opened : Stream) :
    ∃ result next, (Connection.sendTcp (opened.header TcpAck) []).run link =
        (result, next) ∧ world.Acknowledged id next := by
  obtain ⟨more, hcalls, hmore⟩ := h.calls
  obtain ⟨transport, result, hrun⟩ := @run_sendTcp τ _ link
    (opened.header TcpAck) [] (fits_header _ _)
  have hsent : sentFlags world.connection.session.version
      (link.2.session.frameBytes .tcp ((opened.header TcpAck).encode ++ [])) =
      some TcpAck := by
    rw [← h.version]
    exact sentFlags_frameBytes _ [] (by decide : (5 : UInt8) < 16)
  have hack : ¬ (some TcpAck).any (fun flags => flags &&& TcpRst ≠ 0) := by
    decide
  have hquiet : more.flatMap (observe world.connection.session.version id) = [] :=
    observe_sends id fun call hmem => (hmore call hmem).mono noReset_of_syn
  refine ⟨result, _, hrun, ⟨more ++ [.write (link.2.session.frameBytes .tcp
    ((opened.header TcpAck).encode ++ [])) result], ?_, ?_, ?_⟩, h.nextPort,
    h.version, h.closed⟩
  · rw [hcalls, List.append_assoc]
  · rw [List.flatMap_append, hquiet, List.flatMap_singleton, observe, hsent,
      if_neg hack, List.nil_append]
  · rw [List.any_append, List.any_cons, acknowledges, hsent]
    simp

/-- A stream whose acknowledgement could not be sent is closed. -/
private theorem effect_abandon {opened : Stream} (fault : Fault Error)
    (hopen : opened.closed = false) (hattached : opened.attached = true)
    {link : Recorded τ × Connection} (h : world.Acknowledged id link)
    {Q : Stream → Recorded τ × Connection → Prop} :
    Action.Triple (fun s => s = link)
      (do
        Action.zoom (fun state => (state, opened)) (fun _ part => part.1) closeNow
        Action.lift (.error fault))
      Q (fun _ => world.OpeningFailed id) := by
  obtain ⟨more, hcalls, hquiet, hack⟩ := h.calls
  cases hlink : link.2.closed with
  | true =>
      have hrun := run_closeNow_down hopen hattached hlink
      refine Action.Triple.bind_of_run
        (by rw [Action.run_zoom, hrun]) ?_
      refine Action.Triple.lift (fun _ h => by cases h) ?_
      rintro _ _ _ rfl
      refine ⟨h.nextPort, h.version, h.closed, ?_⟩
      rw [world.callsSince_append hcalls, hquiet, ← h.closed, hlink,
        if_neg (by simp)]
  | false =>
      obtain ⟨transport, result, hrun⟩ := run_closeNow_up hopen hattached hlink
      have hsent : sentFlags world.connection.session.version
          (link.2.session.frameBytes .tcp
            ((opened.header TcpRst).encode ++ [])) = some TcpRst := by
        rw [← h.version]
        exact sentFlags_frameBytes _ [] (by decide : (5 : UInt8) < 16)
      have hreset : (some TcpRst).any (fun flags => flags &&& TcpRst ≠ 0) := by
        decide
      refine Action.Triple.bind_of_run
        (by rw [Action.run_zoom, hrun]) ?_
      refine Action.Triple.lift (fun _ h => by cases h) ?_
      rintro _ _ _ rfl
      refine ⟨h.nextPort, h.version, h.closed, ?_⟩
      have hlink' := h.closed ▸ hlink
      rw [world.callsSince_append (by rw [hcalls, List.append_assoc]),
        List.flatMap_append, hquiet, List.any_append, hack,
        List.flatMap_singleton, observe, hsent, if_pos hreset,
        if_pos ⟨Bool.true_or _, hlink'⟩, List.nil_append]

/-- Opening: the port that was next is used up.  A handshake that cannot be
finished is reset, while the link is up. -/
theorem effect_openDirect (fuel : Nat) (port : UInt16) :
    Action.Triple (fun link => link = (world.link, world.connection))
      (openDirect fuel port)
      (fun stream link =>
        stream = {
          localPort := world.connection.nextPort
          remotePort := port
          txAck := stream.txAck } ∧
        link.2.nextPort = world.connection.nextPort + 1 ∧
        link.2.session.version = world.connection.session.version ∧
        link.2.closed = world.connection.closed ∧
        (world.callsSince link).flatMap
          (observe world.connection.session.version id) = [])
      (fun _ => world.OpeningFailed id) := by
  refine (world.calm_allocateLocalPort id).bind
    fun localPort => Action.Triple.of_state ?_
  rintro first ⟨rfl, hfirst⟩
  have hsyn : Action.Keeps (Calm (· = TcpSyn) (world.link, world.connection)
      (world.connection.nextPort + 1)) (Connection.sendTcp {
        sourcePort := world.connection.nextPort
        destinationPort := port
        flags := TcpSyn
        window := kTcpWindow } [] :
          Action Error (Recorded τ × Connection) Unit) :=
    keeps_sendTcp [] rfl (by decide : (5 : UInt8) < 16)
  refine ((world.calm_opening id hsyn).imp_pre
    fun link (h : link = first) => h ▸ hfirst).bind fun _ => ?_
  refine (world.calm_opening id (keeps_receiveTcp keeps_receive _ port fuel)).bind fun answer => ?_
  have hrefused (link : Recorded τ × Connection) (h : Calm (· = TcpSyn)
      (world.link, world.connection) (world.connection.nextPort + 1) link) :
      world.OpeningFailed id link :=
    world.openingFailed_of_calm id h
  refine Action.Triple.ite (fun _ => Action.Triple.fail hrefused) fun _ => ?_
  refine Action.Triple.ite (fun _ => Action.Triple.fail hrefused) fun _ => ?_
  -- the handshake is accepted: what is left is the acknowledgement
  refine Action.Triple.of_state fun link hcalm => ?_
  obtain ⟨opened, hopened⟩ : ∃ opened : Stream, {
      localPort := world.connection.nextPort
      remotePort := port
      txSeq := 1
      txAck := answer.1.sequence + 1 } = opened := ⟨_, rfl⟩
  dsimp only
  rw [hopened]
  obtain ⟨result, next, hrun, hnext⟩ := world.run_acknowledge id hcalm opened
  refine Action.Triple.bind_of_run (by rw [Action.run_attempt, hrun]) ?_
  cases result with
  | ok =>
      refine Action.Triple.pure ?_
      rintro _ rfl
      obtain ⟨more, hcalls, hquiet, -⟩ := hnext.calls
      refine ⟨by rw [← hopened], hnext.nextPort, hnext.version, hnext.closed, ?_⟩
      rw [world.callsSince_append hcalls, hquiet]
  | error fault =>
      have hopen : opened.closed = false := by rw [← hopened]
      have hattached : opened.attached = true := by rw [← hopened]
      exact world.effect_abandon id fault hopen hattached hnext

/-- Closing the connection closes the transport, when this was not done. -/
theorem effect_close :
    (Connection.close.run (world.link, world.connection)).2.2 =
        { world.connection with closed := true } ∧
      (world.callsSince
        (Connection.close.run (world.link, world.connection)).2).flatMap
        (observe world.connection.session.version id) =
        if world.connection.closed then [] else [.transportClosed] := by
  rw [Connection.close, Action.run_bind_ok (Action.run_get _)]
  cases hclosed : world.connection.closed with
  | true =>
      rw [if_pos rfl, Action.run_pure,
        world.callsSince_append (List.append_nil _).symm]
      exact ⟨by rw [← hclosed], rfl⟩
  | false =>
      rw [if_neg (by simp), Action.run_set, world.callsSince_append rfl]
      exact ⟨rfl, rfl⟩

end Effects

/-! ## Invariants of programs -/

section Invariant

variable {I : World τ → Prop} {world : World τ} {target source : Nat}
  {held : Held}

/-- A property of worlds that the kinds of steps keep. -/
structure Invariant (I : World τ → Prop) : Prop where
  openNew : ∀ {world : World τ} {target : Nat} (port : UInt16) (fuel : Nat),
    I world → world.objects target = none →
      I (world.perform (.openNew target port fuel))
  /-- Reading and writing; `seen` says that a read took the device's reset. -/
  use : ∀ {world : World τ} {target : Nat} {held : Held}
    {link : Recorded τ × Connection} {after : Stream} (seen : Bool), I world →
    world.objects target = some held → world.Kept link →
    Kin held.stream after →
    (world.callsSince link).flatMap
      (observe world.connection.session.version held.id) = [] →
    (Recorded.Bounded τ → after.closed = (held.stream.closed || seen)) →
      I ((world.advance held.id (resetEvents held.id seen) link).put
        target (some { held with stream := after }))
  /-- The end of what an object holds; the object may be destroyed. -/
  endHeld : ∀ {world : World τ} {target : Nat} {held : Held}
    {left : Option Held}, I world → world.objects target = some held →
    (∀ held', left = some held' →
      held' = { held with stream := (world.endHeld held).2 }) →
      I ((world.endHeld held).1.put target left)
  move : ∀ {world : World τ} {target source : Nat} {held : Held}, I world →
    world.objects target = none → world.objects source = some held →
      I ((world.put target (some held)).put source
        (some ⟨held.stream.movedFrom, none⟩))
  closeConnection : ∀ {world : World τ}, I world →
    I (world.perform .closeConnection)

/-- A write does not end its stream. -/
private theorem closed_write (closed : Bool) (data : Bytes) :
    Action.Keeps (fun state : (Recorded τ × Connection) × Stream =>
      state.2.closed = closed) (write data) := by
  rw [write]
  generalize data.length = fuel
  induction fuel generalizing data with
  | zero => exact Action.keeps_ite (Action.keeps_pure _) (Action.keeps_lift _)
  | succ fuel ih =>
      refine Action.keeps_ite (Action.keeps_pure _)
        (Action.Keeps.get_bind fun state => ?_)
      refine Action.Keeps.bind ?_ fun _ => ?_
      · exact Action.Keeps.get_bind fun state => Action.keeps_ite
          (Action.keeps_zoom fun _ _ h => h) (Action.keeps_lift _)
      · exact Action.Keeps.bind (Action.keeps_modify fun _ h => h) fun _ => ih _

/-- Every statement keeps an invariant. -/
theorem Invariant.perform (h : Invariant I) (hI : I world) (op : Op) :
    I (world.perform op) := by
  cases op with
  | openNew target port fuel =>
      cases htarget : world.objects target with
      | none => exact h.openNew port fuel hI htarget
      | some held =>
          rw [World.perform, if_pos (by simp [htarget])]
          exact hI
  | write target data =>
      rw [World.perform]
      split
      · exact hI
      · rename_i held hheld
        obtain ⟨hkept, hkin, hquiet⟩ := world.effect_use held.stream held.id
          fun base nextPort => tame_write data
        have hclosed := (closed_write held.stream.closed data).state
          (rfl : (world.state held.stream).2.closed = held.stream.closed)
        exact h.use false hI hheld hkept hkin hquiet fun _ => by
          rw [hclosed, Bool.or_false]
  | readExact target count turns =>
      rw [World.perform]
      split
      · exact hI
      · rename_i held hheld
        obtain ⟨hkept, hkin, hquiet⟩ := world.effect_use held.stream held.id
          fun base nextPort => tame_readExact count turns
        exact h.use _ hI hheld hkept hkin hquiet fun hbounded =>
          world.effect_read (fun _ _ _ => unseen_readExact hbounded count turns) held
  | readAll target turns fuel =>
      rw [World.perform]
      split
      · exact hI
      · rename_i held hheld
        obtain ⟨hkept, hkin, hquiet⟩ := world.effect_use held.stream held.id
          fun base nextPort => tame_readAll turns fuel
        exact h.use _ hI hheld hkept hkin hquiet fun hbounded =>
          world.effect_read (fun _ _ _ => unseen_readAll hbounded turns fuel) held
  | close target =>
      rw [World.perform]
      split
      · exact hI
      · refine h.endHeld hI ‹_› fun held' heq => ?_
        cases heq
        rfl
  | moveConstruct target source =>
      rw [World.perform]
      split
      · exact h.move hI ‹_› ‹_›
      · exact hI
  | moveAssign target source =>
      rw [World.perform]
      split
      · exact hI
      · rename_i hne
        split
        · rename_i old held htarget hsource
          -- the target is ended, and is then a place that has no object
          have hdropped : I ((world.endHeld old).1.put target none) :=
            h.endHeld hI htarget fun _ heq => by cases heq
          have hsource' : ((world.endHeld old).1.put target none).objects source =
              some held := by
            rw [objects_put_of_ne _ _ (Ne.symm hne)]
            exact hsource
          have hmoved := h.move hdropped (objects_put _ _ _) hsource'
          rwa [put_put] at hmoved
        · exact hI
  | destroy target =>
      rw [World.perform]
      split
      · exact hI
      · exact h.endHeld hI ‹_› fun _ heq => by cases heq
  | closeConnection => exact h.closeConnection hI

theorem Invariant.performAll (h : Invariant I) (hI : I world)
    (program : List Op) : I (world.performAll program) := by
  induction program generalizing world with
  | nil => exact hI
  | cons op program ih => exact ih (h.perform hI op)

/-- Two properties that agree under an invariant agree over whole programs. -/
theorem Invariant.always_congr (h : Invariant I) {P Q : World τ → Op → Prop}
    (hiff : ∀ world op, I world → (P world op ↔ Q world op)) (hI : I world)
    (program : List Op) : Always P program world ↔ Always Q program world := by
  induction program generalizing world with
  | nil => exact Iff.rfl
  | cons op program ih =>
      rw [Always, Always, hiff world op hI, ih (h.perform hI op)]

end Invariant

end World

end Ioscpp.Stream
