import Ioscpp.Protocol.Ipv6
import Ioscpp.Protocol.Usbmux
import Ioscpp.Support.Text

/-!
# TCP over the tunnel

A `TcpLink` is one TCP connection over the tunnel.  It frames the tunnel's byte
stream into IPv6 packets, takes the TCP segments of its two ports out of them,
and moves the connection's bytes.  The mux below the tunnel is reliable, so a
segment is taken as it comes and is acknowledged when it is read.

The tunnel stands beside the link, since several links can use one.
-/

namespace Ioscpp

open Ioscpp.Support
open Ioscpp.Protocol

/-- The next-header value of TCP. -/
def kNextTcp : UInt8 := 6

def kHopLimit : UInt8 := 64

/-- The receive window that every segment advertises. -/
def kTcpWindow : UInt16 := 0xffff

/-! ## Addresses -/

/-- The value of a hexadecimal digit. -/
def hexDigit (c : UInt8) : Option UInt16 :=
  if 0x30 ≤ c && c ≤ 0x39 then some (c - 0x30).toUInt16
  else if 0x61 ≤ c && c ≤ 0x66 then some (c - 0x61 + 10).toUInt16
  else if 0x41 ≤ c && c ≤ 0x46 then some (c - 0x41 + 10).toUInt16
  else none

/-- Parses a group of one to four hexadecimal digits. -/
def parseGroup (group : Bytes) : Option UInt16 :=
  if group = [] ∨ 4 < group.length then none
  else
    group.foldlM (fun value c =>
      (hexDigit c).map fun digit => (value <<< 4) ||| digit) 0

/-- Parses one side of an address: groups with a colon between them, or
nothing. -/
def parseGroups (text : Bytes) : Option (List UInt16) :=
  if text = [] then some [] else (text.splitOn 0x3a).mapM parseGroup

/-- The bytes of groups, most significant first. -/
def groupBytes (groups : List UInt16) : Bytes :=
  groups.flatMap fun group => beBytes 2 group.toNat

theorem length_groupBytes (groups : List UInt16) :
    (groupBytes groups).length = 2 * groups.length := by
  induction groups with
  | nil => rfl
  | cons group rest ih =>
      rw [groupBytes] at ih ⊢
      rw [List.flatMap_cons, List.length_append, ih, length_beBytes,
        List.length_cons]
      omega

/-- The address with the groups of its two sides, and zeros between them. -/
def groupsAddress (left right : List UInt16)
    (h : left.length + right.length ≤ 8) : Ipv6Address where
  bytes := groupBytes left ++
    (List.replicate (16 - 2 * (left.length + right.length)) 0 ++
      groupBytes right)
  size := by
    simp only [List.length_append, length_groupBytes, List.length_replicate]
    omega

/-- The error of a text that is no address. -/
def notIpv6 : Error := protocolError "the tunnel address is not IPv6"

/-- Parses an IPv6 address. -/
def parseIpv6 (text : Bytes) : Result Ipv6Address :=
  let gap := cutAt [0x3a, 0x3a] text
  let (left, right) := gap.getD (text, [])
  match parseGroups left, parseGroups right with
  | some leftGroups, some rightGroups =>
      if gap = none ∧ leftGroups.length ≠ 8 then .error (.error notIpv6)
      else if h : leftGroups.length + rightGroups.length ≤ 8 then
        .ok (groupsAddress leftGroups rightGroups h)
      else .error (.error notIpv6)
  | _, _ => .error (.error notIpv6)

/-! ## The checksum -/

/-- Adds the 16-bit words of bytes to a running sum. -/
def addWords (sum : UInt32) : Bytes → UInt32
  | first :: second :: rest =>
      addWords (sum + ((first.toUInt32 <<< 8) ||| second.toUInt32)) rest
  | [last] => sum + (last.toUInt32 <<< 8)
  | [] => sum

/-- Adds the carries of a sum to its low half. -/
def foldCarries (sum : UInt32) : UInt32 :=
  (sum &&& (0xffff : UInt32)) + (sum >>> 16)

/-- The loop that folds the carries while there are any. -/
def foldLoop : Nat → UInt32 → UInt32
  | 0, sum => sum
  | fuel + 1, sum =>
      if sum >>> 16 = 0 then sum else foldLoop fuel (foldCarries sum)

theorem toNat_foldCarries (sum : UInt32) :
    (foldCarries sum).toNat = sum.toNat % 2 ^ 16 + sum.toNat / 2 ^ 16 := by
  have hlt := sum.toNat_lt
  have hlow : (sum &&& (0xffff : UInt32)).toNat = sum.toNat % 2 ^ 16 := by
    rw [UInt32.toNat_and]
    exact Nat.and_two_pow_sub_one_eq_mod _ 16
  have hhigh : (sum >>> 16).toNat = sum.toNat / 2 ^ 16 := by
    rw [UInt32.toNat_shiftRight]
    exact Nat.shiftRight_eq_div_pow _ 16
  rw [foldCarries, UInt32.toNat_add, hlow, hhigh, Nat.mod_eq_of_lt (by omega)]

theorem shiftRight_eq_zero_iff (sum : UInt32) :
    sum >>> 16 = 0 ↔ sum.toNat < 2 ^ 16 := by
  rw [← UInt32.toNat_inj, UInt32.toNat_shiftRight]
  change sum.toNat >>> 16 = 0 ↔ _
  rw [Nat.shiftRight_eq_div_pow, Nat.div_eq_zero_iff_lt (by decide)]

/-- Two turns of the loop leave no carry. -/
theorem foldLoop_two (sum : UInt32) : foldLoop 2 sum >>> 16 = 0 := by
  have hlt := sum.toNat_lt
  have hfirst := toNat_foldCarries sum
  have hsecond := toNat_foldCarries (foldCarries sum)
  simp only [foldLoop]
  split
  · assumption
  · split
    · assumption
    · rw [shiftRight_eq_zero_iff]
      omega

def finishChecksum (sum : UInt32) : UInt16 := ~~~ (foldLoop 2 sum).toUInt16

/-- The IPv6 pseudo-header of a segment. -/
def pseudoHeader (source destination : Ipv6Address) (length : UInt32) : Bytes :=
  source.bytes ++ destination.bytes ++ beBytes 4 length.toNat ++
    [0, 0, 0, kNextTcp]

/-- The checksum of a segment, over its pseudo-header and its bytes. -/
def tcpChecksum (source destination : Ipv6Address) (segment : Bytes) : UInt16 :=
  let length := UInt32.ofNat segment.length
  finishChecksum
    (addWords (addWords 0 (pseudoHeader source destination length)) segment)

/-! ## The link -/

/-- A segment received from the device. -/
structure Segment where
  flags : UInt8
  sequence : UInt32
  payload : Bytes
  deriving DecidableEq, Repr

/-- The two ports of a connection: this side's and the peer's. -/
structure Ports where
  source : UInt16
  peer : UInt16
  deriving DecidableEq, Repr

structure TcpLink where
  framer : Ipv6Framer := {}
  mtu : UInt16
  /-- The longest payload of a segment. -/
  mss : Nat
  sourceValid : Bool
  source : Ipv6Address := .zero
  destination : Ipv6Address := .zero
  sourcePort : UInt16
  peerPort : UInt16 := 0
  sendSeq : UInt32 := 0
  recvSeq : UInt32 := 0
  established : Bool := false
  closed : Bool := false
  /-- The payload of the last segment that was read. -/
  incoming : Bytes := []
  /-- The bytes of it that were returned. -/
  incomingOffset : Nat := 0
  deriving Repr

namespace TcpLink

/-- The link over a tunnel with this local address and MTU.  The subtraction is
of unsigned numbers; `openLink` refuses an MTU for which it would wrap. -/
def create (clientAddress : Bytes) (maxTransfer nextSourcePort : UInt16) :
    TcpLink where
  mtu := maxTransfer
  mss := maxTransfer.toNat - kIpv6HeaderSize - kTcpHeaderSize
  sourceValid := (parseIpv6 clientAddress).isOk
  source := ((parseIpv6 clientAddress).toOption).getD .zero
  sourcePort := nextSourcePort

/-- Opens a link.  The state is the counter of source ports. -/
def openLink (clientAddress : Bytes) (mtu : UInt16) :
    Action Error UInt16 TcpLink := do
  if mtu.toNat ≤ kIpv6HeaderSize + kTcpHeaderSize then
    Action.fail ⟨.invalidArgument,
      ascii "the tunnel MTU leaves no room for a segment"⟩
  else if !(parseIpv6 clientAddress).isOk then
    Action.fail ⟨.invalidArgument,
      ascii "the tunnel-local address is not IPv6"⟩
  else do
    let nextSourcePort ← get
    set (nextSourcePort + 1)
    return create clientAddress mtu nextSourcePort

/-! ### Segments -/

/-- The packet of a segment. -/
def segmentPacket (link : TcpLink) (flags : UInt8) (payload : Bytes) : Bytes :=
  let tcp : TcpHeader := {
    sourcePort := link.sourcePort
    destinationPort := link.peerPort
    sequence := link.sendSeq
    acknowledgement := link.recvSeq
    flags
    window := kTcpWindow }
  let checksum :=
    tcpChecksum link.source link.destination (tcp.encode ++ payload)
  let segment := { tcp with checksum }.encode ++ payload
  let ipv6 : Ipv6Header := {
    payloadLength := UInt16.ofNat segment.length
    nextHeader := kNextTcp
    hopLimit := kHopLimit
    source := link.source
    destination := link.destination }
  ipv6.encode ++ segment

/-- The ports of the link. -/
def ports (link : TcpLink) : Ports := ⟨link.sourcePort, link.peerPort⟩

/-- What a segment takes of the sequence numbers: its payload, and one for a SYN
or a FIN. -/
def sequenceLength (flags : UInt8) (payload : Bytes) : UInt32 :=
  UInt32.ofNat payload.length +
    if flags &&& TcpSyn ≠ 0 ∨ flags &&& TcpFin ≠ 0 then 1 else 0

/-- The segment of a packet, when it has one for these ports. -/
def acceptSegment (ports : Ports) (packet : Bytes) : Result (Option Segment) :=
  if packet.length < kIpv6HeaderSize + kTcpHeaderSize then return none
  else do
    let ipv6 ← Ipv6Header.decode (← slice packet 0 kIpv6HeaderSize)
    if ipv6.nextHeader ≠ kNextTcp then return none
    else do
      let tcp ← TcpHeader.decode (← slice packet kIpv6HeaderSize kTcpHeaderSize)
      if tcp.destinationPort ≠ ports.source ∨ tcp.sourcePort ≠ ports.peer then
        return none
      else
        return some {
          flags := tcp.flags
          sequence := tcp.sequence
          payload := packet.drop (kIpv6HeaderSize + kTcpHeaderSize) }

variable {τ : Type} [Transport τ]

/-- An operation of the link's framer. -/
def onFramer {α : Type} (x : Action Error (τ × Ipv6Framer) α) :
    Action Error (τ × TcpLink) α :=
  Action.zoom (fun state => (state.1, state.2.framer))
    (fun state part => (part.1, { state.2 with framer := part.2 })) x

/-- Changes the link. -/
def update (f : TcpLink → TcpLink) : Action Error (τ × TcpLink) PUnit :=
  modify fun state => (state.1, f state.2)

def sendSegment (flags : UInt8) (payload : Bytes) :
    Action Error (τ × TcpLink) Unit := do
  let state ← get
  onFramer (Ipv6Framer.writePacket (state.2.segmentPacket flags payload))
  update fun link =>
    { link with sendSeq := link.sendSeq + sequenceLength flags payload }

/-- Reads packets until one has a segment for this link. -/
def receiveSegment : Nat → Action Error (τ × TcpLink) Segment
  | 0 => Action.lift (.error .outOfFuel)
  | fuel + 1 => do
      let packet ← onFramer Ipv6Framer.readPacket
      let state ← get
      match ← Action.lift (acceptSegment state.2.ports packet) with
      | none => receiveSegment fuel
      | some segment => return segment

/-! ### The connection -/

/-- The loop that waits for the SYN|ACK and ignores what else arrives. -/
def awaitSynAck : Nat → Action Error (τ × TcpLink) Unit
  | 0 => Action.lift (.error .outOfFuel)
  | fuel + 1 => do
      let segment ← receiveSegment (fuel + 1)
      if segment.flags &&& TcpRst ≠ 0 then
        Action.fail ⟨.device, ascii "the RSD refused the connection"⟩
      else if segment.flags &&& (TcpSyn ||| TcpAck) = TcpSyn ||| TcpAck then do
        update fun link => { link with recvSeq := segment.sequence + 1 }
        sendSegment TcpAck []
        update fun link => { link with established := true }
      else awaitSynAck fuel

/-- Connects to a port of an address. -/
def connect (fuel : Nat) (address : Bytes) (port : UInt16) :
    Action Error (τ × TcpLink) Unit := do
  let state ← get
  if !state.2.sourceValid then
    Action.fail (protocolError "the tunnel-local address is not IPv6")
  else do
    let destination ← Action.lift (parseIpv6 address)
    update fun link =>
      { link with destination, peerPort := port, sendSeq := 0, recvSeq := 0 }
    sendSegment TcpSyn []
    awaitSynAck fuel

/-- What the reading loop does with a segment; `again` is its next turn.  A
segment that has bytes is acknowledged here. -/
def handleSegment (segment : Segment) (again : Action Error (τ × TcpLink) Bool) :
    Action Error (τ × TcpLink) Bool :=
  if segment.flags &&& TcpRst ≠ 0 then do
    update fun link => { link with closed := true }
    Action.fail ⟨.device, ascii "the device reset the connection"⟩
  else if segment.flags &&& TcpFin ≠ 0 then do
    update fun link => { link with
      recvSeq := segment.sequence + UInt32.ofNat segment.payload.length + 1 }
    -- the link ends here also when the FIN cannot be sent
    let _ ← Action.attempt (sendSegment (TcpAck ||| TcpFin) [])
    update fun link => { link with closed := true }
    if segment.payload = [] then return false
    else do
      update fun link => { link with incoming := segment.payload }
      again
  else if segment.payload ≠ [] then do
    update fun link => { link with
      recvSeq := segment.sequence + UInt32.ofNat segment.payload.length }
    sendSegment TcpAck []
    update fun link => { link with incoming := segment.payload }
    again
  else again

/-- The loop that receives segments until one brings bytes; false is the end of
the connection. -/
def awaitIncoming : Nat → Action Error (τ × TcpLink) Bool
  | 0 => do
      let state ← get
      if state.2.incomingOffset ≠ state.2.incoming.length then return true
      else Action.lift (.error .outOfFuel)
  | fuel + 1 => do
      let state ← get
      if state.2.incomingOffset ≠ state.2.incoming.length then return true
      else do
        update fun link => { link with incoming := [], incomingOffset := 0 }
        if state.2.closed then return false
        else do
          let segment ← receiveSegment (fuel + 1)
          handleSegment segment (awaitIncoming fuel)

/-- Takes up to `count` bytes of the last payload. -/
def takeIncoming (count : Nat) : Action Error (τ × TcpLink) Bytes := do
  let state ← get
  let data := (state.2.incoming.drop state.2.incomingOffset).take count
  update fun link =>
    { link with incomingOffset := link.incomingOffset + data.length }
  return data

/-- Reads up to `count` bytes; none is the end of the connection. -/
def read (count fuel : Nat) : Action Error (τ × TcpLink) Bytes := do
  if ← awaitIncoming fuel then takeIncoming count else return []

/-- The loop that reads what is missing. -/
def readExactLoop (count turns : Nat) : Nat → Bytes →
    Action Error (τ × TcpLink) Bytes
  | 0, data =>
      if count ≤ data.length then return data
      else Action.lift (.error .outOfFuel)
  | fuel + 1, data =>
      if count ≤ data.length then return data
      else do
        let more ← read (count - data.length) turns
        if more = [] then
          Action.fail (protocolError "the connection ended mid-message")
        else readExactLoop count turns fuel (data ++ more)

/-- Reads exactly `count` bytes. -/
def readExact (count turns : Nat) : Action Error (τ × TcpLink) Bytes :=
  readExactLoop count turns count []

/-- The loop that sends the data in segments.  A segment has a byte at least, so
`fuel` is the length of the data. -/
def writeLoop : Nat → Bytes → Action Error (τ × TcpLink) Unit
  | 0, data =>
      if data = [] then return () else Action.lift (.error .outOfFuel)
  | fuel + 1, data =>
      if data = [] then return ()
      else do
        let state ← get
        let chunk := min state.2.mss data.length
        sendSegment TcpAck (data.take chunk)
        writeLoop fuel (data.drop chunk)

/-- Writes the whole of `data`. -/
def write (data : Bytes) : Action Error (τ × TcpLink) Unit :=
  writeLoop data.length data

/-- Closes the link, with a FIN when it was connected. -/
def close : Action Error (τ × TcpLink) Unit := do
  let state ← get
  if state.2.closed then return ()
  else do
    update fun link => { link with closed := true }
    if state.2.established then do
      let _ ← Action.attempt (sendSegment (TcpFin ||| TcpAck) [])
      return ()
    else return ()

/-! ### What is opened -/

/-- What a link that was opened is: a new one for its address, which is valid, on a
tunnel whose packets have room for a segment. -/
theorem openLink_eq_ok {link : TcpLink} {clientAddress : Bytes}
    {mtu nextSourcePort next : UInt16}
    (h : (openLink clientAddress mtu).run nextSourcePort = (.ok link, next)) :
    kIpv6HeaderSize + kTcpHeaderSize < mtu.toNat ∧
      (parseIpv6 clientAddress).isOk = true ∧
        link = create clientAddress mtu nextSourcePort := by
  rw [openLink] at h
  split at h
  · cases h
  · rename_i hmtu
    split at h
    · cases h
    · rename_i hvalid
      have hlink : create clientAddress mtu nextSourcePort = link :=
        Except.ok.inj (congrArg Prod.fst h)
      refine ⟨Nat.lt_of_not_le hmtu, ?_, hlink.symm⟩
      exact Bool.eq_true_of_not_eq_false fun hfalse => hvalid (by
        rw [hfalse]
        rfl)

end TcpLink

end Ioscpp
