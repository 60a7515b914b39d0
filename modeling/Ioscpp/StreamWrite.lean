import Ioscpp.Stream
import Ioscpp.Support.Pieces
import Ioscpp.TransportCalls

/-!
# Writing in frames

A stream cuts its data into frames.  The longest payload leaves room for the
headers of both versions, so the session takes every frame, and the stream's
number counts what was written also when a frame could not be sent.

## Main results

- `carriesFrame_frameBytes`: the frame of a piece carries it.
- `write_sent_frames`: what a write sends over any transport.
-/

namespace Ioscpp.Stream

open Ioscpp.Support
open Ioscpp.Protocol

/-- A mux frame that carries a piece of data from one port to the other, with
this number. -/
structure CarriesFrame (version : UInt32) (localPort remotePort : UInt16)
    (number : UInt32) (piece bytes : Bytes) : Prop where
  fits : bytes.length ≤ kMaxFrameSize
  frame : ∃ frame tcp, Session.IsFrame version frame bytes ∧
    frame.header.protocol = MuxProtocol.tcp.id ∧
    TcpHeader.decode (frame.payload.take kTcpHeaderSize) = .ok tcp ∧
    tcp.sourcePort = localPort ∧ tcp.destinationPort = remotePort ∧
    tcp.sequence = number ∧ tcp.flags = TcpAck ∧
    frame.payload.drop kTcpHeaderSize = piece

/-- The chunk bound of the stream is within the frame limit of the session. -/
theorem fits_piece (version : UInt32) (header : TcpHeader) {piece : Bytes}
    (h : piece.length ≤ kMaxPayload) :
    Session.Fits version (header.encode ++ piece) := by
  have hwire := MuxHeader.wireSize_le version
  have hbound : kMaxPayload = 49116 := rfl
  rw [Session.Fits, List.length_append, header.length_encode, kMaxFrameSize]
  omega

/-- The frame of a piece. -/
theorem carriesFrame_frameBytes (session : Session) {stream : Stream}
    {piece : Bytes} (h : piece.length ≤ kMaxPayload) :
    CarriesFrame session.version stream.localPort stream.remotePort stream.txSeq
      piece
      (session.frameBytes .tcp ((stream.header TcpAck).encode ++ piece)) := by
  have hframe := @Session.isFrame_frameBytes session .tcp _
    (fits_piece session.version (stream.header TcpAck) h)
  constructor
  · exact hframe.upper
  · refine ⟨_, stream.header TcpAck, hframe, ?_, ?_, rfl, rfl, rfl, rfl, ?_⟩
    · rw [MuxHeader.visible]
      split <;> rfl
    · show TcpHeader.decode (((stream.header TcpAck).encode ++ piece).take 20) = _
      rw [List.take_left' (TcpHeader.length_encode _)]
      have hoffset : (stream.header TcpAck).dataOffset = 5 := rfl
      exact TcpHeader.decode_encode (by rw [hoffset]; decide)
    · show ((stream.header TcpAck).encode ++ piece).drop 20 = piece
      exact List.drop_left' (TcpHeader.length_encode _)

section Write

variable {τ : Type} [Transport τ]

/-- A turn of the writing loop. -/
def sendPiece (piece : Bytes) :
    Action Error ((τ × Connection) × Stream) Unit := do
  let state ← get
  onConnection (Connection.sendTcp (state.2.header TcpAck) piece)
  update fun stream =>
    { stream with txSeq := stream.txSeq + UInt32.ofNat piece.length }

theorem run_writeLoop (fuel : Nat) (data : Bytes)
    (state : (τ × Connection) × Stream) :
    (writeLoop fuel data).run state =
      (sendPieces (fun _ => kMaxPayload) sendPiece fuel data).run state := by
  induction fuel generalizing data state with
  | zero => rfl
  | succ fuel ih =>
      rw [writeLoop, sendPieces]
      by_cases hdata : data = []
      · rw [if_pos hdata, if_pos hdata]
      · rw [if_neg hdata, if_neg hdata]
        have hchunk : (data.take (min kMaxPayload data.length)).length =
            min kMaxPayload data.length := by
          rw [List.length_take]
          omega
        rw [Action.run_bind_ok (Action.run_get _),
          Action.run_bind_ok (Action.run_get _)]
        dsimp only
        rw [sendPiece, hchunk, bind_assoc, Action.run_bind_ok (Action.run_get _),
          bind_assoc, Action.run_bind, Action.run_bind]
        cases (onConnection (Connection.sendTcp (state.2.header TcpAck)
          (data.take (min kMaxPayload data.length)))).run state with
        | mk result next =>
            cases result with
            | error fault => rfl
            | ok done => exact ih _ _

/-- A piece is one call of the transport; the stream's number moves on when it
succeeds. -/
theorem run_sendPiece_recorded {piece : Bytes} (h : piece.length ≤ kMaxPayload)
    (transport : Recorded τ) (connection : Connection) {stream : Stream}
    (hattached : stream.attached = true) :
    ((sendPiece piece).run ((transport, connection), stream)).2.1.1.calls =
        transport.calls ++ [.write
          (connection.session.frameBytes .tcp
            ((stream.header TcpAck).encode ++ piece))
          ((sendPiece piece).run ((transport, connection), stream)).1] ∧
      ((sendPiece piece).run ((transport, connection), stream)).2.1.2 =
        { connection with session :=
          { connection.session with txSeq := connection.session.txSeq + 1 } } ∧
      ((sendPiece piece).run ((transport, connection), stream)).2.2 =
        match ((sendPiece piece).run ((transport, connection), stream)).1 with
        | .ok _ =>
            { stream with txSeq := stream.txSeq + UInt32.ofNat piece.length }
        | .error _ => stream := by
  have hsend := @Session.run_send (Recorded τ) _ .tcp _ transport
    connection.session
    (fits_piece connection.session.version (stream.header TcpAck) h)
  rw [Recorded.run_write] at hsend
  generalize hframe : connection.session.frameBytes .tcp
    ((stream.header TcpAck).encode ++ piece) = frame at *
  have hrun : (onConnection (Connection.sendTcp (stream.header TcpAck) piece)).run
      ((transport, connection), stream) =
        (((Transport.write frame).run transport.transport).1,
          (({ transport := ((Transport.write frame).run transport.transport).2
              calls := transport.calls ++ [.write frame
                ((Transport.write frame).run transport.transport).1] },
            { connection with session :=
              { connection.session with txSeq := connection.session.txSeq + 1 } }),
            stream)) := by
    rw [onConnection, Action.run_bind_ok (Action.run_get _), if_pos hattached,
      Action.run_zoom, Connection.sendTcp, Connection.onSession, Action.run_zoom,
      hsend]
  rw [sendPiece, Action.run_bind_ok (Action.run_get _), Action.run_bind, hrun]
  cases ((Transport.write frame).run transport.transport).1 with
  | ok => exact ⟨rfl, rfl, rfl⟩
  | error fault => exact ⟨rfl, rfl, rfl⟩

theorem sendsPieces_sendPiece (version : UInt32) (localPort remotePort : UInt16) :
    SendsPieces
      (fun state : (Recorded τ × Connection) × Stream =>
        state.2.attached = true ∧ state.1.2.session.version = version ∧
          state.2.localPort = localPort ∧ state.2.remotePort = remotePort)
      (fun _ => kMaxPayload) sendPiece
      (fun state => state.1.1.calls) (fun state => state.2.txSeq)
      (CarriesFrame version localPort remotePort) .write := by
  constructor
  · intro state _
    show 0 < 49116
    decide
  · intro state piece hstate _ hlength
    obtain ⟨hattached, rfl, rfl, rfl⟩ := hstate
    have hframe := @carriesFrame_frameBytes state.1.2.session state.2 piece hlength
    have hcalls :=
      (run_sendPiece_recorded hlength state.1.1 state.1.2 hattached).1
    exact ⟨_, hframe, hcalls⟩
  · intro state piece next hstate hlength hrun
    obtain ⟨hattached, hversion, hlocal, hremote⟩ := hstate
    obtain ⟨-, hconnection, hstream⟩ :=
      run_sendPiece_recorded hlength state.1.1 state.1.2 hattached
    rw [hrun] at hconnection hstream
    have hstream : next.2 = { state.2 with
        txSeq := state.2.txSeq + UInt32.ofNat piece.length } := hstream
    rw [hconnection, hstream]
    exact ⟨⟨hattached, hversion, hlocal, hremote⟩, rfl⟩
  · intro state piece next fault hstate hlength hrun
    have hstream :=
      (run_sendPiece_recorded hlength state.1.1 state.1.2 hstate.1).2.2
    rw [hrun] at hstream
    rw [hstream]

/-- What a write sends over any transport: frames that the session takes and that carry
the data, in numbered order. When the transport takes them all the data is sent whole,
and otherwise the frames before the one that failed; the number at the end counts what
was sent. -/
theorem write_sent_frames {stream : Stream} (hattached : stream.attached = true)
    (connection : Connection) (transport : Recorded τ) (data : Bytes) :
    Sent (CarriesFrame connection.session.version stream.localPort
        stream.remotePort) TransportCall.write data
      transport.calls stream.txSeq
      ((write data).run ((transport, connection), stream)).1
      ((write data).run ((transport, connection), stream)).2.1.1.calls
      ((write data).run ((transport, connection), stream)).2.2.txSeq := by
  have hsent := (@sendsPieces_sendPiece τ _ connection.session.version
    stream.localPort stream.remotePort).sent data.length data
    ((transport, connection), stream) ⟨hattached, rfl, rfl, rfl⟩ (Nat.le_refl _)
  rw [write, run_writeLoop]
  exact hsent

end Write

/-- A new stream of a link at version 2, over a transport that was not called
yet. -/
private def newTransport : Recorded ScriptedTransport := ⟨{}, []⟩

private def newConnection : Connection := { session := { version := 2 } }

private def newStream : Stream := { localPort := 1, remotePort := 62078 }

/-- A hundred thousand bytes, which are more than two frames carry. -/
private def longData : Bytes := List.replicate 100000 7

theorem write_sent_frames_newStream :
    2 * kMaxPayload < longData.length ∧
      Sent (CarriesFrame newConnection.session.version newStream.localPort
          newStream.remotePort) TransportCall.write longData
        newTransport.calls newStream.txSeq
        ((write longData).run ((newTransport, newConnection), newStream)).1
        ((write longData).run ((newTransport, newConnection), newStream)).2.1.1.calls
        ((write longData).run ((newTransport, newConnection), newStream)).2.2.txSeq := by
  have hlength : 2 * kMaxPayload < longData.length := by
    rw [longData, List.length_replicate]
    decide +kernel
  have hattached : newStream.attached = true := rfl
  exact ⟨hlength, write_sent_frames hattached newConnection newTransport longData⟩

end Ioscpp.Stream
