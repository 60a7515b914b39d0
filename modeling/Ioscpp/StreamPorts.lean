import Ioscpp.StreamProgram

/-!
# The local ports of streams

A connection counts its local ports with 16 bits and never looks at the ports
that are in use.  The stream of call `n` of `open`, counted from 0, has the port
`n + 1` modulo 65536; so ports are unique and not zero exactly as long as the
calls keep their distance.

## Main results

- `ported_invariant`: every statement keeps the ports.
- `uniquePorts_iff_spaced`: over every program, when the ports of streams are unique.
-/

namespace Ioscpp.Stream

open Ioscpp.Support
open Ioscpp.Protocol

namespace World

variable {τ : Type} {world : World τ}

/-- The port of the stream that a call of `open` makes. -/
def portOf (id : Nat) : UInt16 := UInt16.ofNat (id + 1)

/-- Ports go by the number of the call. -/
structure Ported (world : World τ) : Prop where
  next : world.connection.nextPort = portOf world.opens
  held : ∀ target held id, world.objects target = some held →
    held.id = some id → held.stream.localPort = portOf id

theorem portOf_succ (id : Nat) : portOf (id + 1) = portOf id + 1 :=
  UInt16.ofNat_add (id + 1) 1

theorem portOf_eq_zero_iff (id : Nat) : portOf id = 0 ↔ (id + 1) % 65536 = 0 := by
  rw [portOf, ← UInt16.toNat_inj, UInt16.toNat_ofNat', UInt16.toNat_zero]

theorem portOf_inj_iff (id other : Nat) :
    portOf id = portOf other ↔ id % 65536 = other % 65536 := by
  rw [portOf, portOf, ← UInt16.toNat_inj, UInt16.toNat_ofNat',
    UInt16.toNat_ofNat']
  omega

section Steps

variable {target : Nat} {held : Held} {link : Recorded τ × Connection}

/-- An operation of an object that leaves its port alone. -/
private theorem Ported.put_advance (h : world.Ported)
    (hheld : world.objects target = some held) (hkept : world.Kept link)
    (events : List Event) {left : Option Held}
    (hleft : ∀ held', left = some held' → held'.id = held.id ∧
      held'.stream.localPort = held.stream.localPort) :
    ((world.advance held.id events link).put target left).Ported := by
  refine ⟨hkept.nextPort.trans h.next, fun other held' id hother hid => ?_⟩
  by_cases htarget : other = target
  · rw [htarget, objects_put] at hother
    obtain ⟨hsame, hport⟩ := hleft held' hother
    rw [hport]
    exact h.held target held id hheld (hsame ▸ hid)
  · rw [objects_put_of_ne _ _ htarget] at hother
    exact h.held other held' id hother hid

private theorem Ported.use (h : world.Ported)
    (hheld : world.objects target = some held) (hkept : world.Kept link)
    {after : Stream} (hkin : Kin held.stream after) (events : List Event) :
    ((world.advance held.id events link).put target
      (some { held with stream := after })).Ported := by
  refine h.put_advance hheld hkept events ?_
  rintro _ ⟨⟩
  exact ⟨rfl, hkin.localPort⟩

/-- An object is moved. -/
private theorem Ported.move {source : Nat} (h : world.Ported)
    (hsource : world.objects source = some held) :
    ((world.put target (some held)).put source
      (some ⟨held.stream.movedFrom, none⟩)).Ported := by
  refine ⟨h.next, fun other held' id hother hid => ?_⟩
  by_cases hwhere : other = source
  · rw [hwhere, objects_put] at hother
    cases hother
    cases hid
  · rw [objects_put_of_ne _ _ hwhere] at hother
    by_cases htarget : other = target
    · rw [htarget, objects_put] at hother
      cases hother
      exact h.held source held id hsource hid
    · rw [objects_put_of_ne _ _ htarget] at hother
      exact h.held other held' id hother hid

variable [ClosableTransport τ]

private theorem Ported.endHeld (h : world.Ported)
    (hheld : world.objects target = some held) {left : Option Held}
    (hleft : ∀ held', left = some held' →
      held' = { held with stream := (world.endHeld held).2 }) :
    ((world.endHeld held).1.put target left).Ported := by
  obtain ⟨hkept, hstream, -⟩ := world.effect_closeNow held.stream held.id
  have hport : (world.endHeld held).2.localPort = held.stream.localPort := by
    rw [World.endHeld, hstream]
  refine h.put_advance hheld hkept _ fun held' heq => ?_
  rw [hleft held' heq]
  exact ⟨rfl, hport⟩

/-- A call of `open` uses up a port, and its stream has it. -/
private theorem Ported.openNew (h : world.Ported)
    (htarget : world.objects target = none) (port : UInt16) (fuel : Nat) :
    (world.perform (.openNew target port fuel)).Ported := by
  have hopen := world.effect_openDirect (some world.opens) fuel port
    (world.link, world.connection) rfl
  rw [perform, if_neg (by simp [htarget])]
  rcases hrun : (openDirect fuel port).run (world.link, world.connection) with
    ⟨result, link⟩
  rw [hrun] at hopen
  have hnext (hport : link.2.nextPort = world.connection.nextPort + 1) :
      link.2.nextPort = portOf (world.opens + 1) := by
    rw [hport, h.next, portOf_succ]
  cases result with
  | ok stream =>
      obtain ⟨hstream, hport, -⟩ := hopen
      refine ⟨hnext hport, fun other held id hother hid => ?_⟩
      by_cases hwhere : other = target
      · rw [hwhere] at hother
        have hnew := (objects_put _ target _).symm.trans hother
        cases hnew
        cases hid
        rw [hstream]
        exact h.next
      · exact h.held other held id
          ((objects_put_of_ne _ _ hwhere).symm.trans hother) hid
  | error fault => exact ⟨hnext hopen.1, h.held⟩

/-- Every statement keeps the ports. -/
theorem ported_invariant : Invariant (@Ported τ) where
  openNew port fuel h htarget := h.openNew htarget port fuel
  use seen h hheld hkept hkin _ _ := h.use hheld hkept hkin _
  endHeld h hheld hleft := h.endHeld hheld hleft
  move h _ hsource := h.move hsource
  closeConnection {world} h := by
    obtain ⟨hclose, -⟩ := world.effect_close none
    exact ⟨(congrArg Connection.nextPort hclose).trans h.next, h.held⟩

end Steps

/-! ## Unique ports -/

section Unique

variable [ClosableTransport τ]

/-- The statement opens a stream: its target has no object yet, and the handshake with
the device is accepted. -/
def Opens (world : World τ) (op : Op) (stream : Stream) : Prop :=
  ∃ target port fuel link, op = .openNew target port fuel ∧
    world.objects target = none ∧
    (openDirect fuel port).run (world.link, world.connection) =
      (.ok stream, link)

/-- The port of a new stream is not zero, and no stream that is open has it. A statement
that opens none keeps the law. -/
def UniquePort (world : World τ) (op : Op) : Prop :=
  ∀ stream, world.Opens op stream → stream.localPort ≠ 0 ∧
    ∀ target held id, world.objects target = some held → held.id = some id →
      held.stream.closed = false → held.stream.localPort ≠ stream.localPort

/-- The calls of `open` so far, and this one, are not a multiple of 65536; and no
stream that is open was made a multiple of 65536 calls before. -/
def Spaced (world : World τ) (op : Op) : Prop :=
  ∀ stream, world.Opens op stream → (world.opens + 1) % 65536 ≠ 0 ∧
    ∀ target held id, world.objects target = some held → held.id = some id →
      held.stream.closed = false → id % 65536 ≠ world.opens % 65536

/-- A new stream has the port of its call. -/
private theorem Ported.opens (h : world.Ported) {op : Op} {stream : Stream}
    (hopens : world.Opens op stream) : stream.localPort = portOf world.opens := by
  obtain ⟨target, port, fuel, link, -, -, hrun⟩ := hopens
  have hopen := (world.effect_openDirect none fuel port).of_ok rfl hrun
  rw [hopen.1]
  exact h.next

private theorem Ported.uniquePort_iff (h : world.Ported) (op : Op) :
    world.UniquePort op ↔ world.Spaced op := by
  refine forall_congr' fun stream => imp_congr_right fun hopens => ?_
  have hport := h.opens hopens
  refine and_congr ?_ ?_
  · rw [hport, Ne, portOf_eq_zero_iff]
  · refine forall_congr' fun target => forall_congr' fun held =>
      forall_congr' fun id => imp_congr_right fun hheld =>
        imp_congr_right fun hid => imp_congr_right fun _ => ?_
    rw [h.held target held id hheld hid, hport, Ne, portOf_inj_iff]

end Unique

/-- Over every program on a new connection, the port of a new stream is not zero and
none of an open stream exactly as long as the calls of `open` keep their distance: no
call is the 65536th or a multiple of it, and no stream that is open was made a multiple
of 65536 calls before. -/
theorem uniquePorts_iff_spaced [ClosableTransport τ] (program : List Op)
    (link : Recorded τ × Connection) (hnew : link.2.nextPort = 1) :
    Always UniquePort program (start link) ↔
      Always Spaced program (start link) := by
  have hstart : (start link).Ported :=
    ⟨hnew, fun _ _ _ hnone => by cases hnone⟩
  exact ported_invariant.always_congr (fun _ op h => h.uniquePort_iff op) hstart
    program

/-- A link whose device accepts two streams. -/
private def acceptingTwice : Recorded ScriptedTransport × Connection :=
  ({ transport := {
      reads := [.ok (deviceFrame 62078 (TcpSyn ||| TcpAck) 500 []),
        .ok (Session.frameBytes { version := 1 } .tcp ({
          sourcePort := 62078
          destinationPort := 2
          sequence := 700
          flags := TcpSyn ||| TcpAck } : TcpHeader).encode)] } },
    { session := { version := 1 } })

/-- Two opens that are accepted, an open that meets the end of the link, and another
behind a close and a move. -/
private def fourOpens : List Op :=
  [.openNew 0 62078 9, .openNew 1 62078 9, .openNew 2 62079 9, .close 0,
    .moveAssign 0 1, .openNew 1 62078 9]

theorem uniquePorts_iff_spaced_fourOpens :
    Always UniquePort fourOpens (start acceptingTwice) ↔
      Always Spaced fourOpens (start acceptingTwice) :=
  uniquePorts_iff_spaced fourOpens acceptingTwice rfl

/-! ### The port 0 -/

/-- The frame with which a device accepts port 0. -/
private def portZeroFrame : Bytes :=
  Session.frameBytes { version := 1 } .tcp ({
    sourcePort := 62078
    destinationPort := 0
    sequence := 500
    flags := TcpSyn ||| TcpAck } : TcpHeader).encode

/-- The opens that fail before one that is accepted. -/
private def failedOpens : Nat := 65535

/-- A link that fails as many reads, and then accepts port 0. -/
private def failingLink : Recorded ScriptedTransport × Connection :=
  ({ transport := {
      reads := List.replicate failedOpens (.error ⟨.transport, []⟩) ++
        [.ok portZeroFrame] } },
    { session := { version := 1 } })

/-- The parts of a link on which the outcome of a handshake depends. -/
private structure Answers (reads : List (Except Error Bytes)) (port : UInt16)
    (link : Recorded ScriptedTransport × Connection) : Prop where
  reads : link.1.transport.reads = reads
  writes : link.1.transport.writes = []
  version : link.2.session.version = 1
  nextPort : link.2.nextPort = port

/-- A read that fails makes the handshake fail. -/
private theorem failed_openDirect {reads : List (Except Error Bytes)}
    {port : UInt16} {link : Recorded ScriptedTransport × Connection}
    (h : Answers (.error ⟨.transport, []⟩ :: reads) port link) :
    ∃ fault next, (openDirect 2 62078).run link = (.error fault, next) ∧
      Answers reads (port + 1) next := by
  obtain ⟨⟨⟨_, _, written⟩, calls⟩, ⟨⟨_, txSeq, rxSeq⟩, _, closed⟩⟩ := link
  obtain ⟨rfl, rfl, rfl, rfl⟩ := h
  refine ⟨.error ⟨.transport, []⟩, _, Prod.ext ?_ rfl, ?_⟩
  · with_unfolding_all rfl
  · constructor <;> with_unfolding_all rfl

/-- The frame makes it succeed, at port 0. -/
private theorem accepted_openDirect
    {link : Recorded ScriptedTransport × Connection}
    (h : Answers [.ok portZeroFrame] 0 link) :
    ((openDirect 2 62078).run link).1 =
      .ok { localPort := 0, remotePort := 62078, txAck := 501 } := by
  obtain ⟨⟨⟨_, _, written⟩, calls⟩, ⟨⟨_, txSeq, rxSeq⟩, _, closed⟩⟩ := link
  obtain ⟨rfl, rfl, rfl, rfl⟩ := h
  with_unfolding_all rfl

private theorem answers_replicate {count : Nat} {port : UInt16}
    {rest : List (Except Error Bytes)} {world : World ScriptedTransport}
    (hnone : world.objects 0 = none)
    (h : Answers (List.replicate count (.error ⟨.transport, []⟩) ++ rest) port
      (world.link, world.connection)) :
    ∃ next, world.performAll (List.replicate count (.openNew 0 62078 2)) = next ∧
      next.objects 0 = none ∧
      Answers rest (port + UInt16.ofNat count) (next.link, next.connection) := by
  induction count generalizing world port with
  | zero => exact ⟨world, rfl, hnone, by simpa using h⟩
  | succ count ih =>
      obtain ⟨fault, link, hrun, hanswers⟩ := failed_openDirect h
      have hstep : (world.perform (.openNew 0 62078 2)).objects 0 = none ∧
          ((world.perform (.openNew 0 62078 2)).link,
            (world.perform (.openNew 0 62078 2)).connection) = link := by
        rw [perform, if_neg (by simp [hnone]), hrun]
        exact ⟨hnone, rfl⟩
      rw [← hstep.2] at hanswers
      obtain ⟨next, hnext, hobject, hrest⟩ := ih hstep.1 hanswers
      refine ⟨next, hnext, hobject, ?_⟩
      have hsum : port + UInt16.ofNat (count + 1) =
          port + 1 + UInt16.ofNat count := by
        rw [UInt16.ofNat_add, UInt16.add_comm (UInt16.ofNat count),
          ← UInt16.add_assoc]
        rfl
      rwa [hsum]

/-- After 65535 calls of `open` that failed, the next stream has port 0. -/
theorem not_uniquePort_failingLink :
    ¬ Always UniquePort (List.replicate failedOpens (.openNew 0 62078 2) ++
      [.openNew 0 62078 2]) (start failingLink) := by
  intro hall
  obtain ⟨next, hnext, hobject, hanswers⟩ :=
    @answers_replicate failedOpens 1 [.ok portZeroFrame] (start failingLink) rfl
      ⟨rfl, rfl, rfl, rfl⟩
  have hlast : next.UniquePort (.openNew 0 62078 2) :=
    hnext ▸ (always_append.mp hall).2.1
  have hopens : next.Opens (.openNew 0 62078 2)
      { localPort := 0, remotePort := 62078, txAck := 501 } :=
    ⟨0, 62078, 2, _, rfl, hobject,
      Prod.ext (accepted_openDirect hanswers) rfl⟩
  exact (hlast _ hopens).1 rfl

end World

end Ioscpp.Stream
