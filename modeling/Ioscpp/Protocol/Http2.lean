import Ioscpp.Support.Text
import Ioscpp.Transport

/-!
# HTTP/2

A blocking HTTP/2 connection over a `Transport`: `connect` sends the preface and
waits for the peer's SETTINGS, `open` sends an empty HEADERS frame, `write` sends
a payload in DATA frames as the peer's windows allow, and `read` returns the next
DATA frame.  Frames from the peer are read and handled by `readFrame`, which all
but `open` call.

The windows are 32-bit signed counters.  `trace` is proof-only: it records what
the windows answer for, in order, and no function reads it.
-/

namespace Ioscpp.Protocol

open Ioscpp.Support

/-! ## Frames -/

def kData : UInt8 := 0x0
def kHeaders : UInt8 := 0x1
def kRstStream : UInt8 := 0x3
def kSettings : UInt8 := 0x4
def kPing : UInt8 := 0x6
def kGoAway : UInt8 := 0x7
def kWindowUpdate : UInt8 := 0x8

def kAck : UInt8 := 0x1
def kEndHeaders : UInt8 := 0x4

def kSettingsMaxConcurrentStreams : Nat := 0x3
def kSettingsInitialWindowSize : Nat := 0x4

/-- The stream limit that `connect` advertises. -/
def kMaxConcurrentStreams : Nat := 100

/-- The window a peer starts with. -/
def kDefaultWindowSize : Int := 65535

/-- The largest frame that is sent. -/
def kMaxFrameSize : Nat := 16384

/-- What every client sends before its first frame. -/
def kHttp2Preface : Bytes := ascii "PRI * HTTP/2.0\r\n\r\nSM\r\n\r\n"

def kHttp2ControlStream : UInt32 := 1
def kHttp2ReplyStream : UInt32 := 3
def kHttp2WindowSize : Nat := 16 * 1024 * 1024
def kHttp2WindowIncrement : Nat := kHttp2WindowSize - 65535

/-- One DATA frame: its stream and its payload. -/
structure Http2Message where
  stream : UInt32
  payload : Bytes
  deriving DecidableEq, Repr

/-- A frame: its type, its flags, its stream and its payload. -/
structure Http2Frame where
  type : UInt8
  flags : UInt8
  stream : UInt32
  payload : Bytes
  deriving DecidableEq, Repr

/-- Appends a frame: the 3-byte length, the type, the flags, the stream, whose
top bit is reserved, and the payload. -/
def appendFrame (out : Bytes) (type flags : UInt8) (stream : UInt32)
    (payload : Bytes) : Bytes :=
  out ++ beBytes 3 payload.length ++ [type] ++ [flags] ++
    beBytes 4 (stream.toNat % 2 ^ 31) ++ payload

/-- Appends a SETTINGS entry: the 16-bit id and the 32-bit value. -/
def appendSetting (out : Bytes) (id value : Nat) : Bytes :=
  out ++ beBytes 2 id ++ beBytes 4 value

def settingsFrame (ack : Bool) : Bytes :=
  appendFrame [] kSettings (if ack then kAck else 0) 0 []

def windowUpdateFrame (stream : UInt32) (increment : Nat) : Bytes :=
  appendFrame [] kWindowUpdate 0 stream (beBytes 4 (increment % 2 ^ 31))

/-- An empty HEADERS frame that opens a stream. -/
def headersFrame (stream : UInt32) : Bytes :=
  appendFrame [] kHeaders kEndHeaders stream []

def dataFrame (stream : UInt32) (payload : Bytes) : Bytes :=
  appendFrame [] kData 0 stream payload

def pingAckFrame : Bytes :=
  appendFrame [] kPing kAck 0 (List.replicate 8 0)

/-- The value of a signed 32-bit counter after its low 32 bits are kept. -/
def toInt32 (value : Int) : Int := (value + 2 ^ 31) % 2 ^ 32 - 2 ^ 31

/-- What the windows answer for. -/
inductive Http2Event where
  /-- A DATA frame was sent on a stream. -/
  | sent (stream size : Nat)
  /-- A WINDOW_UPDATE was processed; stream 0 is the connection. -/
  | granted (stream increment : Nat)
  /-- A SETTINGS entry for the initial window size was processed. -/
  | initialWindow (value : Nat)
  deriving DecidableEq, Repr

/-- An HTTP/2 connection over a transport `τ`. -/
structure Http2 (τ : Type) where
  transport : τ
  /-- The bytes read that are not yet a whole frame. -/
  buffer : Bytes := []
  /-- The DATA frames received, in order. -/
  received : List Http2Message := []
  /-- The peer's window for the connection. -/
  connectionWindow : Int := kDefaultWindowSize
  /-- The peer's window for the stream being written. -/
  streamWindow : Int := kDefaultWindowSize
  settingsSeen : Bool := false
  /-- The error of a connection that has failed. -/
  failed : Option Error := none
  /-- Proof-only. -/
  trace : List Http2Event := []

namespace Http2

variable {τ : Type} [Transport τ]

/-! ## Reading frames -/

/-- An operation of the transport. -/
def onTransport {α : Type} (x : Action Error τ α) : Action Error (Http2 τ) α :=
  Action.zoom (·.transport) (fun http2 transport => { http2 with transport }) x

/-- Reads from the transport until the buffer holds `count` bytes. -/
def fill (count : Nat) : Action Error (Http2 τ) Unit :=
  Action.zoom (fun http2 => (http2.transport, http2.buffer))
    (fun http2 state => { http2 with transport := state.1, buffer := state.2 })
    (Buffered.fill (protocolError "the HTTP/2 connection ended") kMaxFrameSize
      count)

/-- The entries of a SETTINGS payload; a trailing partial entry is ignored. -/
def settingsEntries : Bytes → List (Nat × Nat)
  | a :: b :: c :: d :: e :: f :: rest =>
      (beValue [a, b], beValue [c, d, e, f]) :: settingsEntries rest
  | _ => []

/-- Applies a SETTINGS entry. -/
def applySetting (http2 : Http2 τ) (entry : Nat × Nat) : Http2 τ :=
  if entry.1 = kSettingsInitialWindowSize then
    { http2 with
      streamWindow := toInt32 entry.2
      trace := http2.trace ++ [.initialWindow entry.2] }
  else http2

/-- Applies the peer's window size, then acknowledges. -/
def handleSettings (frame : Http2Frame) : Action Error (Http2 τ) Unit :=
  if frame.flags &&& kAck = 0 then do
    modify fun http2 =>
      (settingsEntries frame.payload).foldl applySetting http2
    modify fun http2 => { http2 with settingsSeen := true }
    onTransport (Transport.write (settingsFrame true))
  else return ()

def handleWindowUpdate (frame : Http2Frame) : Action Error (Http2 τ) Unit := do
  let increment ← Action.lift (readBe frame.payload 0 4)
  modify fun http2 =>
    if frame.stream = 0 then
      { http2 with
        connectionWindow := toInt32 (http2.connectionWindow + toInt32 increment)
        trace := http2.trace ++ [.granted frame.stream.toNat increment] }
    else
      { http2 with
        streamWindow := toInt32 (http2.streamWindow + toInt32 increment)
        trace := http2.trace ++ [.granted frame.stream.toNat increment] }

def handlePing (frame : Http2Frame) : Action Error (Http2 τ) Unit :=
  if frame.flags &&& kAck = 0 then onTransport (Transport.write pingAckFrame)
  else return ()

/-- The error of a GOAWAY: its first 32-bit field is the last stream id, and its
second the error code. -/
def goAwayError (payload : Bytes) : Result Error :=
  if 8 ≤ payload.length then do
    let code ← readBe payload 4 4
    let last ← readBe payload 0 4
    return ⟨.protocol, ascii "the peer sent GOAWAY (code " ++ decimal code ++
      ascii ", last stream " ++ decimal last ++ ascii ")"⟩
  else return protocolError "the peer sent GOAWAY"

/-- The error of a RST_STREAM. -/
def resetError (stream : UInt32) (payload : Bytes) : Result Error :=
  if 4 ≤ payload.length then do
    let code ← readBe payload 0 4
    return ⟨.protocol, ascii "the peer reset stream " ++
      decimal stream.toNat ++ ascii " (code " ++ decimal code ++ ascii ")"⟩
  else return protocolError "the peer reset a stream"

/-- Fails the connection. -/
def handleFailure (error : Result Error) : Action Error (Http2 τ) Unit := do
  let error ← Action.lift error
  modify fun http2 => { http2 with failed := some error }

/-- Handles one frame. -/
def handleFrame (frame : Http2Frame) : Action Error (Http2 τ) Unit :=
  if frame.type = kData then
    -- an empty DATA frame carries nothing, so it is ignored
    if frame.payload = [] then return ()
    else modify fun http2 => { http2 with
      received := http2.received ++ [⟨frame.stream, frame.payload⟩] }
  else if frame.type = kSettings then handleSettings frame
  else if frame.type = kWindowUpdate then handleWindowUpdate frame
  else if frame.type = kPing then handlePing frame
  else if frame.type = kGoAway then handleFailure (goAwayError frame.payload)
  else if frame.type = kRstStream then
    handleFailure (resetError frame.stream frame.payload)
  else return ()

/-- Reads the 9-byte header of a frame: the length of its payload, its type, its
flags and its stream. -/
def frameHeader (buffer : Bytes) : Result (Nat × UInt8 × UInt8 × UInt32) := do
  let length ← readBe buffer 0 3
  let type ← byteAt buffer 3
  let flags ← byteAt buffer 4
  let stream ← readBe buffer 5 4
  return (length, type, flags, UInt32.ofNat stream)

/-- Reads and handles exactly one frame. -/
def readFrame : Action Error (Http2 τ) Unit := do
  fill 9
  let http2 ← get
  let (length, type, flags, stream) ← Action.lift (frameHeader http2.buffer)
  fill (9 + length)
  let http2 ← get
  let payload ← Action.lift (slice http2.buffer 9 length)
  handleFrame ⟨type, flags, stream, payload⟩
  modify fun http2 => { http2 with buffer := http2.buffer.drop (9 + length) }

/-! ## The calls -/

/-- The loop that reads frames until the peer's SETTINGS arrives. -/
def awaitSettings : Nat → Action Error (Http2 τ) Unit
  | 0 => Action.lift (.error .outOfFuel)
  | fuel + 1 => do
      let http2 ← get
      if http2.settingsSeen then return ()
      else
        match http2.failed with
        | some error => Action.fail error
        | none => do
            readFrame
            awaitSettings fuel

/-- Opens the connection: the preface, the client's SETTINGS and connection
WINDOW_UPDATE, and then the peer's SETTINGS. -/
def connect (fuel : Nat) : Action Error (Http2 τ) Unit := do
  onTransport (Transport.write kHttp2Preface)
  let payload := appendSetting [] kSettingsMaxConcurrentStreams
    kMaxConcurrentStreams
  let payload := appendSetting payload kSettingsInitialWindowSize
    kHttp2WindowSize
  onTransport (Transport.write (appendFrame [] kSettings 0 0 payload))
  onTransport (Transport.write (windowUpdateFrame 0 kHttp2WindowIncrement))
  awaitSettings fuel

/-- Sends an empty HEADERS frame that opens `stream`. -/
def openStream (stream : UInt32) : Action Error (Http2 τ) Unit :=
  onTransport (Transport.write (headersFrame stream))

/-- What may be sent in one frame. -/
def budget (http2 : Http2 τ) : Int :=
  min (min http2.connectionWindow http2.streamWindow) kMaxFrameSize

/-- Takes a DATA frame of `count` bytes off the windows. -/
def spend (stream : UInt32) (count : Nat) (http2 : Http2 τ) : Http2 τ :=
  { http2 with
    connectionWindow := toInt32 (http2.connectionWindow - count)
    streamWindow := toInt32 (http2.streamWindow - count)
    trace := http2.trace ++ [.sent (stream.toNat % 2 ^ 31) count] }

/-- Sends what is left of a payload, split across frames by the windows.  A turn
sends a frame, or waits for one while a window is exhausted. -/
def write (stream : UInt32) : Nat → Bytes → Action Error (Http2 τ) Unit
  | 0, payload =>
      if payload = [] then return () else Action.lift (.error .outOfFuel)
  | fuel + 1, payload =>
      if payload = [] then return ()
      else do
        let http2 ← get
        if http2.budget ≤ 0 then do
          readFrame
          write stream fuel payload
        else do
          let count := min http2.budget.toNat payload.length
          onTransport (Transport.write (dataFrame stream (payload.take count)))
          modify (spend stream count)
          write stream fuel (payload.drop count)

/-- Reads until a whole DATA frame arrives. -/
def read : Nat → Action Error (Http2 τ) Http2Message
  | 0 => Action.lift (.error .outOfFuel)
  | fuel + 1 => do
      let http2 ← get
      match http2.received with
      | message :: rest => do
          set { http2 with received := rest }
          return message
      | [] =>
          match http2.failed with
          | some error => Action.fail error
          | none => do
              readFrame
              read fuel

/-! ## Runs -/

/-- A call of the connection's user. -/
inductive Call where
  | openStream (stream : UInt32)
  | write (stream : UInt32) (payload : Bytes)
  | read

/-- Performs a call of at most `fuel` turns: what it returns, when it is a `read`
that succeeds, and the connection it leaves. -/
def perform (call : Nat × Call) (http2 : Http2 τ) :
    List Http2Message × Http2 τ :=
  match call.2 with
  | .openStream stream => ([], ((openStream stream).run http2).2)
  | .write stream payload => ([], ((write stream call.1 payload).run http2).2)
  | .read =>
      match (read call.1).run http2 with
      | (.ok message, next) => ([message], next)
      | (.error _, next) => ([], next)

/-- Performs calls one after the other, whether or not they succeed. -/
def performAll : List (Nat × Call) → Http2 τ → List Http2Message × Http2 τ
  | [], http2 => ([], http2)
  | call :: rest, http2 =>
      let first := perform call http2
      let others := performAll rest first.2
      (first.1 ++ others.1, others.2)

/-- A connection that `connect` opens over a transport, and the calls made on
it. -/
def session (transport : τ) (fuel : Nat) (calls : List (Nat × Call)) :
    List Http2Message × Http2 τ :=
  performAll calls ((connect fuel).run { transport }).2

end Http2

end Ioscpp.Protocol
