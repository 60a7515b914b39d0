import Ioscpp.Ports
import Ioscpp.Protocol.Ipv6Framing
import Ioscpp.Protocol.JsonRoundTrip
import Ioscpp.SecureLink

/-!
# Opening the tunnel

A tunnel is opened by one JSON request and one JSON answer, each behind a magic and
its length; the packets follow at once.  The answer is read whole and no byte more,
over a stream and over TLS, so the first packet starts where the framer starts.

The device may write its answer in any way that JSON allows.

## Main results

- `CdtunnelResponse.SaidBy.parse`: an answer is read as what it says.
- `Tunnel.run_openOn`: the handshake on a stream, and over TLS.
- `Tunnel.performAll_opened`: a tunnel over TLS, from its first byte to its packets.
-/

namespace Ioscpp

open Ioscpp.Support
open Ioscpp.Support.Action
open Ioscpp.Protocol

/-! ## The handshake -/

namespace Protocol

def kCdtunnelDefaultMtu : UInt16 := 1280

/-- A number of 16 bits as the double that JSON has of it. -/
def jsonUInt16 (value : UInt16) : Json :=
  .number (Binary64.ofInt64 (Int64.ofNat value.toNat))

/-- `CdtunnelRequest::to_json`. -/
def cdtunnelRequest (mtu : UInt16) : Bytes :=
  Json.toString (.object [
    (ascii "mtu", jsonUInt16 mtu),
    (ascii "type", .string (ascii "clientHandshakeRequest"))])

/-- A frame: the magic, the low 16 bits of the length, and the body. -/
def cdtunnelEncode (body : Bytes) : Bytes :=
  kCdtunnelMagic ++ beBytes 2 body.length ++ body

end Protocol

namespace Tunnel

/-- A tunnel that ends within a message. -/
def closedMidMessage : Error := protocolError "the tunnel closed mid-message"

/-- The link of a tunnel. -/
abbrev Link (σ κ : Type) := SecureLink closedMidMessage σ κ

namespace Link

variable {σ κ : Type} [ByteStream σ] [Transport κ]

/-- A stream read is exact, so a success fills the buffer. -/
def read (count : Nat) : Action Error (Link σ κ) Bytes
  | .plain stream =>
      let outcome := (ByteStream.readExact count).run stream
      (outcome.1, .plain outcome.2)
  | .tls session =>
      let outcome := (Transport.read count).run session
      (outcome.1, .tls outcome.2)

instance : Transport (Link σ κ) where
  read := read
  write := SecureLink.write

end Link

section Open

variable {τ : Type} [Transport τ]

/-- Sends the request and reads the answer.  `undefined` is what the cast makes of a
double out of range. -/
def handshake (undefined : UInt64 → UInt16) : Action Error τ CdtunnelResponse := do
  Transport.write (cdtunnelEncode (cdtunnelRequest kCdtunnelDefaultMtu))
  let header ← Transport.readExact closedMidMessage kCdtunnelHeaderSize
  let length ← Action.lift (cdtunnelHeaderLength header)
  let body ← Transport.readExact closedMidMessage length.toNat
  Action.lift (CdtunnelResponse.parse undefined body)

/-- Opens the tunnel on its stream, over TLS when the service says so: what the
device answered. -/
def openOn (undefined : UInt64 → UInt16) (startTls : Action Error τ Unit)
    (enableSsl : Bool) : Action Error τ CdtunnelResponse := do
  (if enableSsl then startTls else Pure.pure ())
  handshake undefined

end Open

end Tunnel

/-! ## Answers -/

namespace Protocol

/-- A zero of either sign is cast to zero. -/
theorem castUInt16_zero (undefined : UInt64 → UInt16) {bits : UInt64}
    (h : bits.toNat % 2 ^ 63 = 0) : castUInt16 undefined bits = 0 := by
  have hzero : truncate 0 = 0 := by decide +kernel
  have hnegative : truncate (UInt64.ofNat (2 ^ 63)) = 0 := by decide +kernel
  have hlt := bits.toNat_lt
  have hbits : bits = 0 ∨ bits = UInt64.ofNat (2 ^ 63) := by
    rw [← UInt64.toNat_inj, ← UInt64.toNat_inj, UInt64.toNat_ofNat', UInt64.toNat_zero]
    omega
  rcases hbits with rfl | rfl
  · rw [castUInt16, hzero]
    rfl
  · rw [castUInt16, hnegative]
    rfl

theorem castUInt16_ofInt64 (undefined : UInt64 → UInt16) (value : UInt16) :
    castUInt16 undefined (Binary64.ofInt64 (Int64.ofNat value.toNat)) = value := by
  have hlt := value.toNat_lt
  have hint : (Int64.ofNat value.toNat).toInt = value.toNat :=
    Int64.toInt_ofNat_of_lt (by omega)
  have htruncate : truncate (Binary64.ofInt64 (Int64.ofNat value.toNat)) =
      value.toNat := by
    rw [Binary64.ofInt64, hint]
    refine truncate_ofRatio Nat.one_pos hlt (by simp) fun h => ?_
    exact absurd (of_decide_eq_true h) (by omega)
  rw [castUInt16, htruncate, if_pos (by omega), Int.toNat_natCast, UInt16.ofNat_toNat]

/-- The same number is read as the same 16 bits. -/
theorem castUInt16_same (undefined : UInt64 → UInt16) {bits : UInt64} {value : UInt16}
    (h : Json.SameNumber bits (Binary64.ofInt64 (Int64.ofNat value.toNat))) :
    castUInt16 undefined bits = value := by
  rcases h with rfl | ⟨hbits, hzero⟩
  · exact castUInt16_ofInt64 undefined value
  · rw [castUInt16_zero undefined hbits, ← castUInt16_zero undefined hzero,
      castUInt16_ofInt64]

/-- A tree in which something is found is an object. -/
theorem Json.asObject_of_find {value found : Json} {key : Bytes}
    (h : value.find key = some found) : value.asObject.isSome := by
  rw [Json.find, Option.bind_eq_some_iff] at h
  obtain ⟨entries, hentries, -⟩ := h
  rw [hentries]
  rfl

/-- The tree has this text under the key. -/
def Json.HasText (value : Json) (key text : Bytes) : Prop :=
  (value.find key).bind Json.asString = some text

instance (value : Json) (key text : Bytes) : Decidable (value.HasText key text) :=
  inferInstanceAs (Decidable (_ = _))

/-- The tree has this number under the key; JSON has two ways to write zero. -/
def Json.HasUInt16 (value : Json) (key : Bytes) (number : UInt16) : Prop :=
  ∃ bits, (value.find key).bind Json.asNumber = some bits ∧
    Json.SameNumber bits (Binary64.ofInt64 (Int64.ofNat number.toNat))

/-- An answer that says these four things, whatever else it says and however it is
written. -/
def CdtunnelResponse.SaidBy (response : CdtunnelResponse) (body : Bytes) : Prop :=
  ∃ reply client, Json.parse body = .ok reply ∧
    reply.find (ascii "clientParameters") = some client ∧
    client.HasText (ascii "address") response.clientAddress ∧
    client.HasUInt16 (ascii "mtu") response.clientMtu ∧
    reply.HasText (ascii "serverAddress") response.serverAddress ∧
    reply.HasUInt16 (ascii "serverRSDPort") response.serverRsdPort

/-- Such an answer is read as what it says, whatever else it says and however its text
is written. -/
theorem CdtunnelResponse.SaidBy.parse {response : CdtunnelResponse} {body : Bytes}
    (h : response.SaidBy body) (undefined : UInt64 → UInt16) :
    CdtunnelResponse.parse undefined body = .ok response := by
  obtain ⟨reply, client, hparse, hclient, haddress, ⟨mtu, hmtu, hsameMtu⟩, hserver,
    port, hport, hsamePort⟩ := h
  obtain ⟨address, hfound, -⟩ := Option.bind_eq_some_iff.mp haddress
  have hobject : (reply.find (ascii "clientParameters")).filter
      (·.asObject.isSome) = some client := by
    rw [hclient]
    exact if_pos (Json.asObject_of_find hfound)
  rw [Json.HasText] at haddress hserver
  calc CdtunnelResponse.parse undefined body
      = CdtunnelResponse.ofJson undefined reply := by
        rw [CdtunnelResponse.parse, hparse]
        rfl
    _ = .ok {
          clientAddress := response.clientAddress
          clientMtu := castUInt16 undefined mtu
          serverAddress := response.serverAddress
          serverRsdPort := castUInt16 undefined port } := by
        simp only [CdtunnelResponse.ofJson, CdtunnelResponse.required, hobject,
          hserver, hport, ok_bind, haddress, hmtu]
        rfl
    _ = .ok response := by
        rw [castUInt16_same undefined hsameMtu, castUInt16_same undefined hsamePort]

end Protocol

/-! ## The handshake on a link -/

namespace Protocol

theorem kCdtunnelMagic_length : kCdtunnelMagic.length = 8 := by decide

/-- The header of a frame says how long its body is. -/
theorem cdtunnelHeaderLength_encode {body : Bytes} (h : body.length < 2 ^ 16) :
    ∃ length, cdtunnelHeaderLength (kCdtunnelMagic ++ beBytes 2 body.length) =
      .ok length ∧ length.toNat = body.length := by
  have hmagic := kCdtunnelMagic_length
  have hread : (readBe (kCdtunnelMagic ++ beBytes 2 body.length) 8 2 : Result Nat) =
      .ok body.length :=
    readBe_word kCdtunnelMagic [] (by rw [List.append_nil]) hmagic h
      (h.trans (by decide))
  refine ⟨UInt16.ofNat body.length, ?_, UInt16.toNat_ofNat_of_lt' h⟩
  rw [cdtunnelHeaderLength, List.take_left' hmagic, if_neg (not_not_intro rfl), hread]
  rfl

end Protocol

namespace Tunnel

section Handshake

variable {τ : Type} [Transport τ] {R : τ → MemoryByteStream → Prop}

/-- The answer is read, to its last byte, and the request is written. -/
theorem run_handshake
    (hread : ∀ count, Simulates R (Transport.readExact closedMidMessage count)
      (ByteStream.readExact count))
    (hwrite : ∀ data, Simulates R (Transport.write data) (ByteStream.write data))
    {response : CdtunnelResponse} {body : Bytes} (hreply : response.SaidBy body)
    (hlength : body.length < 2 ^ 16) (undefined : UInt64 → UInt16)
    {transport : τ} {rest written : Bytes}
    (hR : R transport ⟨cdtunnelEncode body ++ rest, written⟩) :
    ∃ next, (handshake undefined).run transport = (.ok response, next) ∧
      R next ⟨rest, written ++
        cdtunnelEncode (cdtunnelRequest kCdtunnelDefaultMtu)⟩ := by
  obtain ⟨length, hheader, hbody⟩ := cdtunnelHeaderLength_encode hlength
  have hsize : (kCdtunnelMagic ++ beBytes 2 body.length).length =
      kCdtunnelHeaderSize := by
    rw [List.length_append, kCdtunnelMagic_length, length_beBytes]
    rfl
  rw [cdtunnelEncode, List.append_assoc] at hR
  obtain ⟨first, hfirst, hfirstR⟩ :=
    hwrite (cdtunnelEncode (cdtunnelRequest kCdtunnelDefaultMtu)) hR
      (MemoryByteStream.run_write _ _)
  obtain ⟨second, hsecond, hsecondR⟩ := hread _ hfirstR
    (MemoryByteStream.run_readExact_append hsize _ _)
  obtain ⟨third, hthird, hthirdR⟩ := hread _ hsecondR
    (MemoryByteStream.run_readExact_append hbody.symm _ _)
  refine ⟨third, ?_, hthirdR⟩
  rw [handshake, run_bind_ok hfirst, run_bind_ok hsecond, hheader,
    run_bind_ok (run_lift _ _), run_bind_ok hthird, hreply.parse, run_lift]

/-- Reads that are exact are one turn of the loop. -/
theorem simulates_readExact_of_exact (ended : Error)
    (h : ∀ count, Simulates R (Transport.read count) (ByteStream.readExact count))
    (count : Nat) :
    Simulates R (Transport.readExact ended count) (ByteStream.readExact count) := by
  rintro transport ⟨incoming, written⟩ bytes next' hR hrun
  obtain ⟨hcount, rfl, rfl⟩ := MemoryByteStream.of_run_readExact hrun
  cases count with
  | zero => exact ⟨transport, rfl, hR⟩
  | succ count =>
      obtain ⟨next, hread, hnext⟩ := h _ hR hrun
      have hlength : (incoming.take (count + 1)).length = count + 1 := by
        rw [List.length_take, Nat.min_eq_left hcount]
      have hne : incoming.take (count + 1) ≠ [] := by
        rw [← List.length_pos_iff, hlength]
        exact Nat.succ_pos count
      have hdone : Transport.readExactLoop ended (count + 1) count
          ([] ++ incoming.take (count + 1)) =
          (Pure.pure (incoming.take (count + 1)) : Action Error τ Bytes) := by
        have hle : count + 1 ≤ ([] ++ incoming.take (count + 1)).length := by
          rw [List.nil_append, hlength]
        cases count <;> rw [Transport.readExactLoop, if_pos hle, List.nil_append]
      refine ⟨next, ?_, hnext⟩
      rw [Transport.readExact, Transport.readExactLoop, List.length_nil,
        if_neg (Nat.not_succ_le_zero count), Nat.sub_zero, run_bind_ok hread,
        if_neg hne, hdone, run_pure]

end Handshake

section Links

variable {σ κ : Type} [ByteStream σ] [Transport κ]
  {R : σ → MemoryByteStream → Prop} {R' : κ → MemoryByteStream → Prop}

theorem simulates_write (h : CarriesBytes R) (h' : DeliversBytes R') (data : Bytes) :
    Simulates (SecureLink.Carried R R')
      (Transport.write data : Action Error (Link σ κ) Unit) (ByteStream.write data) :=
  (@SecureLink.carries closedMidMessage _ _ _ _ _ _ h h').write data

/-- Over TLS, the link delivers what its session delivers. -/
theorem deliversBytes_tls (h : DeliversBytes R') :
    DeliversBytes (@SecureLink.Carried closedMidMessage σ κ (fun _ _ => False) R') where
  read := by
    rintro (stream | session) incoming written count hR hcount hmore
    · exact hR.elim
    · obtain ⟨piece, rest, next, hincoming, hpiece, hlength, hread, hnext⟩ :=
        h.read hR hcount hmore
      exact ⟨piece, rest, .tls next, hincoming, hpiece, hlength,
        congrArg (fun outcome => (outcome.1, SecureLink.tls outcome.2)) hread, hnext⟩
  write := (@SecureLink.carries_tls closedMidMessage σ κ _ _ R' h).write

theorem simulates_readExact (h : CarriesBytes R) (h' : DeliversBytes R')
    (count : Nat) :
    Simulates (SecureLink.Carried R R')
      (Transport.readExact closedMidMessage count : Action Error (Link σ κ) Bytes)
      (ByteStream.readExact count) := by
  have hplain := @simulates_readExact_of_exact (Link σ κ) _
    (SecureLink.Carried R fun _ _ => False) closedMidMessage fun count => by
      rintro (stream | session) memory bytes next' hR hrun
      · obtain ⟨next, hread, hnext⟩ := h.readExact count hR hrun
        exact ⟨.plain next,
          congrArg (fun outcome => (outcome.1, SecureLink.plain outcome.2)) hread, hnext⟩
      · exact hR.elim
  have htls := (@deliversBytes_tls σ κ _ _ R' h').simulates_readExact
    closedMidMessage count
  rintro (stream | session) memory bytes next' hR hrun
  · obtain ⟨next, hread, hnext⟩ := @hplain count (.plain stream) _ _ _ hR hrun
    cases next with
    | plain next => exact ⟨.plain next, hread, hnext⟩
    | tls next => exact hnext.elim
  · obtain ⟨next, hread, hnext⟩ := @htls (.tls session) _ _ _ hR hrun
    cases next with
    | plain next => exact hnext.elim
    | tls next => exact ⟨.tls next, hread, hnext⟩

/-- The tunnel is opened on a link, which is TLS when the service said so: it has
what the device answered, and what came behind the answer is still to be read. -/
theorem run_openOn (h : CarriesBytes R) (h' : DeliversBytes R')
    {startTls : Action Error (Link σ κ) Unit} {enableSsl : Bool} {stream : σ}
    {link : Link σ κ}
    (hstart : (if enableSsl then startTls else Pure.pure () :
      Action Error (Link σ κ) Unit).run (.plain stream) = (.ok (), link))
    {response : CdtunnelResponse} {body : Bytes} (hreply : response.SaidBy body)
    (hlength : body.length < 2 ^ 16) (undefined : UInt64 → UInt16)
    {rest written : Bytes} (hR : SecureLink.Carried R R' link
      ⟨cdtunnelEncode body ++ rest, written⟩) :
    ∃ next, (openOn undefined startTls enableSsl).run (.plain stream) =
        (.ok response, next) ∧
      SecureLink.Carried R R' next ⟨rest, written ++
        cdtunnelEncode (cdtunnelRequest kCdtunnelDefaultMtu)⟩ := by
  obtain ⟨next, hrun, hnext⟩ := run_handshake (simulates_readExact h h')
    (simulates_write h h') hreply hlength undefined hR
  refine ⟨next, ?_, hnext⟩
  rw [openOn, run_bind_ok hstart, hrun]

end Links

end Tunnel

/-! ## Packets over a session -/

namespace Protocol.Ipv6Framer

/-- What is asked of a tunnel: its next packet, or to take one. -/
inductive PacketCall where
  | read
  | write (packet : Bytes)

/-- Makes the calls one after the other: the packets that were read. -/
def performAll {τ : Type} [Transport τ] :
    List PacketCall → Action Error (τ × Ipv6Framer) (List Bytes)
  | [] => return []
  | .read :: rest => do
      let packet ← readPacket
      let packets ← performAll rest
      return packet :: packets
  | .write packet :: rest => do
      writePacket packet
      performAll rest

/-- How many packets calls read, and the bytes of those they write. -/
def readsOf (calls : List PacketCall) : Nat :=
  calls.countP fun
    | .read => true
    | .write _ => false

def writesOf (calls : List PacketCall) : Bytes :=
  calls.flatMap fun
    | .read => []
    | .write packet => packet

theorem readsOf_read (calls : List PacketCall) :
    readsOf (.read :: calls) = readsOf calls + 1 :=
  List.countP_cons_of_pos rfl

theorem readsOf_write (packet : Bytes) (calls : List PacketCall) :
    readsOf (.write packet :: calls) = readsOf calls :=
  List.countP_cons_of_neg (by simp)

section Delivers

variable {κ : Type} [Transport κ] {R : κ → MemoryByteStream → Prop} {size : Nat}
  {bytes written : Bytes} {state : κ × Ipv6Framer}

/-- The bytes that no call has returned, of those read ahead and those of the
session. -/
def Unread (R : κ → MemoryByteStream → Prop) (size : Nat) (bytes written : Bytes)
    (state : κ × Ipv6Framer) : Prop :=
  state.2.maxPacketSize = size ∧
    ∃ incoming, R state.1 ⟨incoming, written⟩ ∧ state.2.ahead ++ incoming = bytes

theorem run_fillLoop_delivers (h : DeliversBytes R) (ended : Error)
    {count fuel : Nat} {buffer incoming : Bytes} {session : κ}
    (hR : R session ⟨incoming, written⟩) (hfuel : count ≤ buffer.length + fuel)
    (henough : count ≤ (buffer ++ incoming).length) :
    ∃ piece rest next, incoming = piece ++ rest ∧
      count ≤ (buffer ++ piece).length ∧
      (Buffered.fillLoop ended kReadSize count fuel).run (session, buffer) =
        (.ok (), (next, buffer ++ piece)) ∧ R next ⟨rest, written⟩ := by
  induction fuel generalizing buffer incoming session with
  | zero =>
      have hle : count ≤ buffer.length := by omega
      refine ⟨[], incoming, session, rfl, by rwa [List.append_nil], ?_, hR⟩
      rw [Buffered.fillLoop, run_bind_ok (run_get _), if_pos hle, List.append_nil]
      rfl
  | succ fuel ih =>
      rw [Buffered.fillLoop, run_bind_ok (run_get _)]
      by_cases hle : count ≤ buffer.length
      · refine ⟨[], incoming, session, rfl, by rwa [List.append_nil], ?_, hR⟩
        rw [if_pos hle, List.append_nil]
        rfl
      · have hmore : incoming ≠ [] := by
          rintro rfl
          rw [List.append_nil] at henough
          exact hle henough
        obtain ⟨piece, rest, next, rfl, hpiece, -, hread, hnext⟩ :=
          h.read hR (by decide : 0 < kReadSize) hmore
        have hpos := List.length_pos_iff.mpr hpiece
        have hzoom : (Buffered.read kReadSize).run (session, buffer) =
            (.ok piece, (next, buffer)) := by
          rw [Buffered.read, run_zoom, hread]
        rw [← List.append_assoc] at henough
        obtain ⟨others, later, last, rfl, hcount, hrun, hlast⟩ :=
          @ih (buffer ++ piece) rest next hnext
            (by rw [List.length_append]; omega) henough
        refine ⟨piece ++ others, later, last, (List.append_assoc _ _ _).symm, ?_, ?_,
          hlast⟩
        · rwa [← List.append_assoc]
        · rw [if_neg hle, run_bind_ok hzoom, if_neg hpiece,
            run_bind_ok (run_modify _ _), hrun, List.append_assoc]

/-- A fill for bytes that come has them, at the front of the buffer. -/
theorem run_fill_delivers (h : DeliversBytes R) (hstate : Unread R size bytes written state)
    {count : Nat} (hcount : count ≤ bytes.length) :
    ∃ next, (fill count).run state = (.ok (), next) ∧
      Unread R size bytes written next ∧
      (slice next.2.buffer next.2.offset count : Result Bytes) =
        .ok (bytes.take count) ∧
      ∀ consumed, consumed = next.2.offset + count →
        Unread R size (bytes.drop count) written
          (next.1, { next.2 with offset := consumed }) := by
  obtain ⟨session, framer⟩ := state
  obtain ⟨hsize, incoming, hR, rfl⟩ := hstate
  obtain ⟨piece, rest, next, rfl, hle, hrun, hnext⟩ :=
    run_fillLoop_delivers h closedMidPacket hR
      (by omega : count ≤ framer.ahead.length + (count - framer.ahead.length)) hcount
  have hfill : (fill count).run (session, framer) = (.ok (), (next, { framer with
      buffer := framer.ahead ++ piece, offset := 0 })) := by
    rw [fill, run_bind_ok (run_modify _ _), run_zoom]
    dsimp only [compact]
    rw [Buffered.fill, run_bind_ok (run_get _)]
    rw [show framer.buffer.drop framer.offset = framer.ahead from rfl, hrun]
  refine ⟨_, hfill, ⟨hsize, rest, hnext, List.append_assoc _ _ _⟩, ?_, ?_⟩
  · rw [slice_of_le (by rwa [Nat.zero_add]), List.drop_zero, ← List.append_assoc,
      List.take_append_of_le_length hle]
  · rintro consumed rfl
    refine ⟨hsize, rest, hnext, ?_⟩
    change (framer.ahead ++ piece).drop (0 + count) ++ rest = _
    rw [Nat.zero_add, ← List.append_assoc, List.drop_append_of_le_length hle]

/-- The next packet is returned, whatever the session returns at a time. -/
theorem run_readPacket_delivers (h : DeliversBytes R) {packet rest : Bytes}
    (hpacket : IsIpv6Packet packet) (hsize : packet.length ≤ size)
    (hstate : Unread R size (packet ++ rest) written state) :
    ∃ next, readPacket.run state = (.ok packet, next) ∧
      Unread R size rest written next := by
  have hforty : kIpv6HeaderSize ≤ packet.length := hpacket.header
  have hlength : packet.length ≤ (packet ++ rest).length := by
    rw [List.length_append]
    omega
  obtain ⟨header, hdecode, hversion, htotal⟩ := hpacket.decode
  obtain ⟨first, hfirst, hfirstR, hheader, -⟩ :=
    run_fill_delivers h hstate (hforty.trans hlength)
  obtain ⟨second, hsecond, hsecondR, hbody, hconsumed⟩ :=
    run_fill_delivers h hfirstR hlength
  have hmax : ¬ first.2.maxPacketSize < packet.length := by
    rw [hfirstR.1]
    exact Nat.not_lt.mpr hsize
  rw [List.take_append_of_le_length hforty] at hheader
  rw [List.take_left] at hbody
  rw [List.drop_left] at hconsumed
  refine ⟨_, ?_, hconsumed _ rfl⟩
  rw [readPacket, run_bind_ok hfirst, run_bind_ok (run_get _), hheader,
    run_bind_ok (run_lift _ _), kIpv6HeaderSize, hdecode, run_bind_ok (run_lift _ _),
    if_neg (not_not_intro hversion)]
  dsimp only
  rw [htotal, if_neg hmax, run_bind_ok hsecond, run_bind_ok (run_get _), hbody,
    run_bind_ok (run_lift _ _), run_bind_ok (run_modify _ _), run_pure]

theorem run_writePacket_delivers (h : DeliversBytes R)
    (hstate : Unread R size bytes written state) (packet : Bytes) :
    ∃ next, (writePacket packet).run state = (.ok (), next) ∧
      Unread R size bytes (written ++ packet) next := by
  obtain ⟨hsize, incoming, hR, hbytes⟩ := hstate
  obtain ⟨next, hwrite, hnext⟩ := h.write packet hR (MemoryByteStream.run_write _ _)
  refine ⟨(next, state.2), ?_, hsize, incoming, hnext, hbytes⟩
  rw [writePacket, run_zoom, hwrite]

/-- Calls in any order: the packets are read in the order in which they came, and
written in the order of the calls. -/
theorem run_performAll (h : DeliversBytes R) {packets : List Bytes}
    (hpackets : ∀ packet ∈ packets, IsIpv6Packet packet ∧ packet.length ≤ size)
    {calls : List PacketCall} (hreads : readsOf calls = packets.length) {rest : Bytes}
    (hstate : Unread R size (packets.flatten ++ rest) written state) :
    ∃ next, (performAll calls).run state = (.ok packets, next) ∧
      Unread R size rest (written ++ writesOf calls) next := by
  induction calls generalizing packets written state with
  | nil =>
      obtain rfl := List.eq_nil_of_length_eq_zero hreads.symm
      refine ⟨state, rfl, ?_⟩
      rw [writesOf, List.flatMap_nil, List.append_nil]
      exact hstate
  | cons call calls ih =>
      cases call with
      | read =>
          rw [readsOf_read] at hreads
          cases packets with
          | nil => cases hreads
          | cons packet packets =>
              obtain ⟨hpacket, hothers⟩ := List.forall_mem_cons.mp hpackets
              rw [List.flatten_cons, List.append_assoc] at hstate
              obtain ⟨first, hfirst, hfirstR⟩ :=
                run_readPacket_delivers h hpacket.1 hpacket.2 hstate
              obtain ⟨next, hnext, hnextR⟩ :=
                ih hothers (Nat.succ.inj hreads) hfirstR
              refine ⟨next, ?_, hnextR⟩
              rw [performAll, run_bind_ok hfirst, run_bind_ok hnext, run_pure]
      | write packet =>
          rw [readsOf_write] at hreads
          obtain ⟨first, hfirst, hfirstR⟩ := run_writePacket_delivers h hstate packet
          obtain ⟨next, hnext, hnextR⟩ := ih hpackets hreads hfirstR
          refine ⟨next, ?_, ?_⟩
          · rw [performAll, run_bind_ok hfirst, hnext]
          · rw [List.append_assoc] at hnextR
            exact hnextR

end Delivers

end Protocol.Ipv6Framer

namespace Tunnel

open Protocol.Ipv6Framer

/-- A tunnel over TLS, from its first byte: it has what the device answered, and the
packets are read and written in their order from the byte behind the answer on,
however the device cut its records. -/
theorem performAll_opened {σ κ : Type} [ByteStream σ] [Transport κ]
    {R : κ → MemoryByteStream → Prop} (h : DeliversBytes R)
    {startTls : Action Error (Link σ κ) Unit} {stream : σ} {session : κ}
    (hstart : startTls.run (.plain stream) = (.ok (), .tls session))
    {response : CdtunnelResponse} {body : Bytes} (hreply : response.SaidBy body)
    (hlength : body.length < 2 ^ 16)
    {packets : List Bytes} {size : Nat}
    (hpackets : ∀ packet ∈ packets, IsIpv6Packet packet ∧ packet.length ≤ size)
    {calls : List PacketCall} (hreads : readsOf calls = packets.length) {rest : Bytes}
    (hR : R session ⟨cdtunnelEncode body ++ (packets.flatten ++ rest), []⟩)
    (undefined : UInt64 → UInt16) :
    ∃ link next, (openOn undefined startTls true).run (.plain stream) =
        (.ok response, link) ∧
      (performAll calls).run (link, { maxPacketSize := size }) = (.ok packets, next) ∧
      Unread (SecureLink.Carried (fun _ _ => False) R) size rest
        (cdtunnelEncode (cdtunnelRequest kCdtunnelDefaultMtu) ++ writesOf calls)
        next := by
  have hnone : CarriesBytes fun (_ : σ) (_ : MemoryByteStream) => False :=
    ⟨fun _ _ _ _ _ hR => hR.elim, fun _ _ _ _ _ hR => hR.elim⟩
  obtain ⟨link, hopen, hlink⟩ := @run_openOn σ κ _ _ _ _ hnone h startTls true stream
    (.tls session) hstart response body hreply hlength undefined _ _ hR
  rw [List.nil_append] at hlink
  have hunread : Unread (SecureLink.Carried (fun _ _ => False) R) size
      (packets.flatten ++ rest) (cdtunnelEncode (cdtunnelRequest kCdtunnelDefaultMtu))
      (link, { maxPacketSize := size }) := ⟨rfl, _, hlink, rfl⟩
  obtain ⟨next, hrun, hnext⟩ :=
    run_performAll (deliversBytes_tls h) hpackets hreads hunread
  exact ⟨link, next, hopen, hrun, hnext⟩

private def sampleResponse : CdtunnelResponse :=
  ⟨ascii "fd00::2", 1280, ascii "fd00::1", 50000⟩

/-- Its text, with blanks and with a key that is not looked at. -/
private def sampleBody : Bytes :=
  ascii "\x7b \"type\": \"serverHandshakeResponse\",\n \"serverRSDPort\": 50000.0," ++
    ascii " \"serverAddress\": \"fd00::1\", \"clientParameters\":" ++
    ascii " \x7b\"mtu\":1280, \"address\":\"fd00::2\"\x7d\x7d"

private def sampleReply : Json := (Json.parse sampleBody).toOption.getD .null

private def sampleClient : Json :=
  (sampleReply.find (ascii "clientParameters")).getD .null

private theorem parse_sampleBody : Json.parse sampleBody = .ok sampleReply := by
  have hsome : (Json.parse sampleBody).toOption.isSome := by decide +kernel
  unfold sampleReply
  rcases hparse : Json.parse sampleBody with fault | reply
  · rw [hparse] at hsome
    cases hsome
  · rfl

private theorem find_sampleClient :
    sampleReply.find (ascii "clientParameters") = some sampleClient := by
  have hsome : (sampleReply.find (ascii "clientParameters")).isSome := by
    decide +kernel
  unfold sampleClient
  rcases hfind : sampleReply.find (ascii "clientParameters") with _ | client
  · rw [hfind] at hsome
    cases hsome
  · rfl

private theorem saidBy_sampleBody : sampleResponse.SaidBy sampleBody := by
  have haddress : sampleClient.HasText (ascii "address") (ascii "fd00::2") := by
    decide +kernel
  have hserver : sampleReply.HasText (ascii "serverAddress") (ascii "fd00::1") := by
    decide +kernel
  exact ⟨sampleReply, sampleClient, parse_sampleBody, find_sampleClient, haddress,
    ⟨0x4094000000000000, by decide +kernel, .inl (by decide +kernel)⟩, hserver,
    0x40e86a0000000000, by decide +kernel, .inl (by decide +kernel)⟩

private def samplePacket : Bytes := ({ payloadLength := 1 } : Ipv6Header).encode ++ [7]

private theorem isIpv6Packet_samplePacket : IsIpv6Packet samplePacket where
  header := by decide +kernel
  version := by decide +kernel
  length := by decide +kernel

private def sampleBytes : Bytes :=
  cdtunnelEncode sampleBody ++ samplePacket

/-- Records that hold a part of the magic, and the end of the answer with the
packet. -/
private def sampleSession : ScriptedTransport where
  reads := [.ok (sampleBytes.take 3), .ok (sampleBytes.drop 3)]

private def startSample : Action Error (Link MemoryByteStream ScriptedTransport) Unit :=
  fun _ => (.ok (), .tls sampleSession)

theorem performAll_opened_records :
    ∃ link next, (openOn (fun _ => 0) startSample true).run (.plain ⟨[], []⟩) =
        (.ok sampleResponse, link) ∧
      (performAll [.write samplePacket, .read]).run (link, { maxPacketSize := 1280 }) =
        (.ok [samplePacket], next) := by
  have hpackets : ∀ packet ∈ [samplePacket],
      IsIpv6Packet packet ∧ packet.length ≤ 1280 := by
    rw [List.forall_mem_singleton]
    exact ⟨isIpv6Packet_samplePacket, by decide +kernel⟩
  have hclean : sampleSession.Clean := by
    intro answer hmem
    simp only [sampleSession, List.mem_cons, List.not_mem_nil, or_false] at hmem
    rcases hmem with rfl | rfl
    · exact ⟨_, by decide +kernel, rfl⟩
    · exact ⟨_, by decide +kernel, rfl⟩
  have hremaining : sampleSession.remaining =
      cdtunnelEncode sampleBody ++ ([samplePacket].flatten ++ []) := by
    rw [ScriptedTransport.remaining, sampleSession, List.flatMap_cons,
      List.flatMap_cons, List.flatMap_nil, List.append_nil, List.take_append_drop,
      List.flatten_singleton, List.append_nil, sampleBytes]
  have hstart : startSample.run (.plain ⟨[], []⟩) = (.ok (), .tls sampleSession) := rfl
  have hreads : readsOf [.write samplePacket, .read] = [samplePacket].length := rfl
  obtain ⟨link, next, hopen, hrun, -⟩ := performAll_opened
    ScriptedTransport.deliversBytes hstart saidBy_sampleBody (by decide +kernel)
    hpackets hreads ⟨hclean, rfl, hremaining, rfl⟩ fun _ => 0
  exact ⟨link, next, hopen, hrun⟩

end Tunnel

end Ioscpp
