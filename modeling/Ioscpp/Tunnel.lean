import Ioscpp.Protocol.Ipv6Framing
import Ioscpp.StreamDelivery
import Ioscpp.UsbmuxdStream

/-!
# The plaintext tunnel

A `Tunnel` that was opened without TLS is a transport over its stream.  Its read
is an exact read of the stream, so it returns the whole of what it asks for or
nothing.  A framer asks for a chunk of `kReadSize` bytes at a time, so it has a
packet that came whole only when the chunk did.

## Main results

- `Protocol.Ipv6Framer.run_readPacket_whole`: a framer over any transport that reads
  whole chunks returns the next packet exactly when the chunks that hold it came.
- `Tunnel.readsWhole_received`: a tunnel reads whole chunks, over a direct link on
  which the device stops or resets the stream, and over usbmuxd.
- `Tunnel.readPacket_eq_ok_iff`: when the packet that came whole is returned.
-/

namespace Ioscpp

open Ioscpp.Support
open Ioscpp.Protocol

/-- A tunnel without TLS: its stream, of a direct link on the connection of the
stream, or over usbmuxd.  `turns` bounds the frames that one call skips. -/
inductive Tunnel (_turns : Nat) (τ : Type) where
  | direct (link : τ × Connection) (stream : Stream)
  | usbmuxd (stream : UsbmuxdStream τ)

namespace Tunnel

variable {turns : Nat} {τ : Type} [Transport τ]

/-- An operation of the stream, whichever kind it is. -/
def onStream {α : Type} (direct : Action Error ((τ × Connection) × Stream) α)
    (usbmuxd : Action Error (UsbmuxdStream τ) α) : Action Error (Tunnel turns τ) α
  | .direct link stream =>
      let outcome := direct.run (link, stream)
      (outcome.1, .direct outcome.2.1 outcome.2.2)
  | .usbmuxd stream =>
      let outcome := usbmuxd.run stream
      (outcome.1, .usbmuxd outcome.2)

/-- A stream read is exact, so a success fills the buffer. -/
def read (count : Nat) : Action Error (Tunnel turns τ) Bytes :=
  onStream (Stream.readExact count turns) (UsbmuxdStream.readExact count)

def write (data : Bytes) : Action Error (Tunnel turns τ) Unit :=
  onStream (Stream.write data) (UsbmuxdStream.write data)

instance : Transport (Tunnel turns τ) where
  read := read
  write := write

end Tunnel

/-! ## Transports that read whole chunks -/

/-- `Holds bytes transport` says that the transport has these bytes and no more;
a read returns as much as it asks for, or fails. -/
structure ReadsWhole {τ : Type} [Transport τ] (Holds : Bytes → τ → Prop) :
    Prop where
  enough : ∀ {rest : Bytes} {transport : τ} {count : Nat}, Holds rest transport →
    count ≤ rest.length → ∃ next,
      (Transport.read count).run transport = (.ok (rest.take count), next) ∧
      Holds (rest.drop count) next
  short : ∀ {rest : Bytes} {transport : τ} {count : Nat}, Holds rest transport →
    rest.length < count → ∃ fault next,
      (Transport.read count).run transport = (.error fault, next)

namespace Protocol.Ipv6Framer

/-- The chunks that must be read until `count` bytes are there, when `ahead` are
already. -/
def chunks (count ahead : Nat) : Nat :=
  (count - ahead + (kReadSize - 1)) / kReadSize

/-- The bytes of these chunks. -/
def wanted (count ahead : Nat) : Nat := kReadSize * chunks count ahead

theorem wanted_of_le {count ahead : Nat} (h : count ≤ ahead) :
    wanted count ahead = 0 := by
  simp only [wanted, chunks, kReadSize]
  omega

theorem wanted_of_lt {count ahead : Nat} (h : ahead < count) :
    wanted count ahead = kReadSize + wanted count (ahead + kReadSize) := by
  simp only [wanted, chunks, kReadSize]
  omega

/-- To fill for a part first asks for the same chunks. -/
theorem wanted_trans {first count ahead : Nat} (h : first ≤ count) :
    wanted count ahead =
      wanted first ahead + wanted count (ahead + wanted first ahead) := by
  simp only [wanted, chunks, kReadSize]
  omega

theorem le_wanted (count ahead : Nat) : count ≤ ahead + wanted count ahead := by
  simp only [wanted, chunks, kReadSize]
  omega

section Whole

variable {τ : Type} [Transport τ] {Holds : Bytes → τ → Prop} {transport : τ}
  {rest : Bytes}

/-- Filling reads the chunks that are missing, when all of them came. -/
theorem run_fillLoop_whole (hwhole : ReadsWhole Holds)
    (h : Holds rest transport) (ended : Error) (count : Nat) {fuel : Nat}
    {buffer : Bytes} (hfuel : count ≤ buffer.length + fuel) :
    (wanted count buffer.length ≤ rest.length → ∃ next,
      (Buffered.fillLoop ended kReadSize count fuel).run (transport, buffer) =
        (.ok (), (next, buffer ++ rest.take (wanted count buffer.length))) ∧
      Holds (rest.drop (wanted count buffer.length)) next) ∧
    (rest.length < wanted count buffer.length → ∃ fault next,
      (Buffered.fillLoop ended kReadSize count fuel).run (transport, buffer) =
        (.error fault, next)) := by
  induction fuel generalizing transport rest buffer with
  | zero =>
      have hle : count ≤ buffer.length := by omega
      rw [wanted_of_le hle, Buffered.fillLoop,
        Action.run_bind_ok (Action.run_get _), if_pos hle]
      refine ⟨fun _ => ⟨transport, ?_, h⟩, fun hlt => absurd hlt (by omega)⟩
      rw [List.take_zero, List.append_nil]
      rfl
  | succ fuel ih =>
      rw [Buffered.fillLoop, Action.run_bind_ok (Action.run_get _)]
      by_cases hle : count ≤ buffer.length
      · rw [wanted_of_le hle, if_pos hle]
        refine ⟨fun _ => ⟨transport, ?_, h⟩, fun hlt => absurd hlt (by omega)⟩
        rw [List.take_zero, List.append_nil]
        rfl
      · rw [wanted_of_lt (by omega), if_neg hle]
        rcases Nat.lt_or_ge rest.length kReadSize with hshort | henough
        · obtain ⟨fault, next, hread⟩ := hwhole.short h hshort
          have hzoom : (Buffered.read kReadSize).run (transport, buffer) =
              (.error fault, (next, buffer)) := by
            rw [Buffered.read, Action.run_zoom, hread]
          exact ⟨fun hle' => by omega,
            fun _ => ⟨fault, _, Action.run_bind_error hzoom⟩⟩
        · obtain ⟨next, hread, hnext⟩ := hwhole.enough h henough
          have hlength : (rest.take kReadSize).length = kReadSize := by
            rw [List.length_take, Nat.min_eq_left henough]
          have hpos : 0 < kReadSize := by decide
          have hne : rest.take kReadSize ≠ [] := by
            rw [← List.length_pos_iff, hlength]
            exact hpos
          have hzoom : (Buffered.read kReadSize).run (transport, buffer) =
              (.ok (rest.take kReadSize), (next, buffer)) := by
            rw [Buffered.read, Action.run_zoom, hread]
          obtain ⟨hok, herror⟩ := @ih next (rest.drop kReadSize) hnext
            (buffer ++ rest.take kReadSize) (by
              rw [List.length_append, hlength]
              omega)
          rw [List.length_append, hlength, List.length_drop] at hok herror
          rw [Action.run_bind_ok hzoom, if_neg hne,
            Action.run_bind_ok (Action.run_modify _ _)]
          constructor
          · intro hle'
            obtain ⟨last, hrun, hlast⟩ := hok (by omega)
            refine ⟨last, ?_, ?_⟩
            · rw [hrun, List.take_add, List.append_assoc]
            · rw [List.drop_drop] at hlast
              exact hlast
          · intro hlt
            exact herror (by omega)

/-- What a fill leaves of the framer. -/
theorem run_fill_whole (hwhole : ReadsWhole Holds) (h : Holds rest transport)
    (framer : Ipv6Framer) (count : Nat) :
    (wanted count framer.ahead.length ≤ rest.length → ∃ next,
      (fill count).run (transport, framer) = (.ok (), (next, { framer with
        buffer := framer.ahead ++
          rest.take (wanted count framer.ahead.length)
        offset := 0 })) ∧
      Holds (rest.drop (wanted count framer.ahead.length)) next) ∧
    (rest.length < wanted count framer.ahead.length → ∃ fault next,
      (fill count).run (transport, framer) = (.error fault, next)) := by
  obtain ⟨hok, herror⟩ := run_fillLoop_whole hwhole h closedMidPacket count
    (by omega : count ≤ framer.ahead.length + (count - framer.ahead.length))
  have hfill : (fill count).run (transport, framer) =
      ((Action.run (Buffered.fillLoop closedMidPacket kReadSize count
        (count - framer.ahead.length)) (transport, framer.ahead)).1,
      ((Action.run (Buffered.fillLoop closedMidPacket kReadSize count
        (count - framer.ahead.length)) (transport, framer.ahead)).2.1,
      { framer.compact with
        buffer := (Action.run (Buffered.fillLoop closedMidPacket kReadSize count
          (count - framer.ahead.length)) (transport, framer.ahead)).2.2 })) := rfl
  rw [hfill]
  constructor
  · intro hle
    obtain ⟨next, hrun, hnext⟩ := hok hle
    rw [hrun]
    exact ⟨next, rfl, hnext⟩
  · intro hlt
    obtain ⟨fault, next, hrun⟩ := herror hlt
    rw [hrun]
    exact ⟨fault, _, rfl⟩

/-- Bytes in front of a filled buffer. -/
theorem slice_filled {ahead packet tail : Bytes} {size count : Nat}
    (hbytes : ahead ++ rest = packet ++ tail) (hsize : size ≤ rest.length)
    (hcount : count ≤ ahead.length + size) (hpacket : count ≤ packet.length) :
    (slice (ahead ++ rest.take size) 0 count : Result Bytes) =
      .ok (packet.take count) := by
  have hlength : count ≤ (ahead ++ rest.take size).length := by
    rw [List.length_append, List.length_take, Nat.min_eq_left hsize]
    exact hcount
  have htake := congrArg (List.take count) hbytes
  rw [← List.take_append_drop size rest, ← List.append_assoc,
    List.take_append_of_le_length hlength,
    List.take_append_of_le_length hpacket] at htake
  rw [slice_of_le (by rwa [Nat.zero_add]), List.drop_zero, htake]

/-- A packet that came whole is returned when the chunks that hold it came
whole, and otherwise the call fails. -/
theorem run_readPacket_whole (hwhole : ReadsWhole Holds)
    (h : Holds rest transport) {framer : Ipv6Framer} {packet tail : Bytes}
    (hpacket : IsIpv6Packet packet)
    (hsize : packet.length ≤ framer.maxPacketSize)
    (hbytes : framer.ahead ++ rest = packet ++ tail) :
    (wanted packet.length framer.ahead.length ≤ rest.length → ∃ next,
      readPacket.run (transport, framer) = (.ok packet, next)) ∧
    (rest.length < wanted packet.length framer.ahead.length → ∃ fault next,
      readPacket.run (transport, framer) = (.error fault, next)) := by
  obtain ⟨hok, herror⟩ := run_fill_whole hwhole h framer kIpv6HeaderSize
  have hforty : kIpv6HeaderSize ≤ packet.length := hpacket.header
  have hsplit := @wanted_trans _ _ framer.ahead.length hforty
  rw [readPacket]
  rcases Nat.lt_or_ge rest.length
    (wanted kIpv6HeaderSize framer.ahead.length) with hshort | henough
  · obtain ⟨fault, next, hrun⟩ := herror hshort
    exact ⟨fun hle => by omega, fun _ => ⟨fault, next, Action.run_bind_error hrun⟩⟩
  obtain ⟨next, hrun, hnext⟩ := hok henough
  obtain ⟨header, hdecode, hversion, htotal⟩ := hpacket.decode
  have hslice := slice_filled hbytes henough (le_wanted _ _) hforty
  set filled : Ipv6Framer := { framer with
    buffer := framer.ahead ++ rest.take (wanted kIpv6HeaderSize framer.ahead.length)
    offset := 0 } with hfilled
  have hahead : filled.ahead = framer.ahead ++
      rest.take (wanted kIpv6HeaderSize framer.ahead.length) := rfl
  have hlength : filled.ahead.length = framer.ahead.length +
      wanted kIpv6HeaderSize framer.ahead.length := by
    rw [hahead, List.length_append, List.length_take, Nat.min_eq_left henough]
  obtain ⟨hok', herror'⟩ := run_fill_whole hwhole hnext filled packet.length
  rw [hlength, List.length_drop] at hok' herror'
  have hmax : ¬filled.maxPacketSize < packet.length := Nat.not_lt.mpr hsize
  rw [Action.run_bind_ok hrun, Action.run_bind_ok (Action.run_get _),
    show filled.offset = 0 from rfl, show filled.buffer = framer.ahead ++
      rest.take (wanted kIpv6HeaderSize framer.ahead.length) from rfl, hslice,
    Action.run_bind_ok (Action.run_lift _ _), kIpv6HeaderSize, hdecode,
    Action.run_bind_ok (Action.run_lift _ _), if_neg (not_not_intro hversion)]
  dsimp only
  rw [htotal, if_neg hmax]
  constructor
  · intro hle
    obtain ⟨last, hrun', -⟩ := hok' (by omega)
    have hbytes' : filled.ahead ++
        rest.drop (wanted kIpv6HeaderSize framer.ahead.length) =
        packet ++ tail := by
      rw [hahead, List.append_assoc, List.take_append_drop, hbytes]
    have hslice' := slice_filled hbytes'
      (show wanted packet.length filled.ahead.length ≤ _ by
        rw [hlength, List.length_drop]
        omega) (le_wanted _ _) (Nat.le_refl _)
    rw [List.take_length] at hslice'
    rw [Action.run_bind_ok hrun', Action.run_bind_ok (Action.run_get _)]
    dsimp only
    rw [← hlength, hslice', Action.run_bind_ok (Action.run_lift _ _)]
    exact ⟨_, rfl⟩
  · intro hlt
    obtain ⟨fault, last, hrun'⟩ := herror' (by omega)
    exact ⟨fault, last, Action.run_bind_error hrun'⟩

end Whole

end Protocol.Ipv6Framer

/-! ## The stream of the tunnel -/

namespace Tunnel

open Ioscpp.Stream
open Protocol.Ipv6Framer

variable {turns : Nat}

/-- The device has sent these bytes to the tunnel, no read has returned them, and
nothing comes after them: on a direct link the device stops or resets the stream,
over usbmuxd the socket ends or fails. -/
inductive Received (turns : Nat) :
    Bytes → Tunnel turns ScriptedTransport → Prop where
  | direct {version : UInt32} {base frames : List Bytes} {stream other : Stream}
      {ending rest : Bytes} {sofar numbers : List UInt32}
      {link : ScriptedTransport × Connection} (hturns : frames.length < turns)
      (h : Reading version base stream ending sofar frames rest numbers
        (link, other)) : Received turns rest (.direct link other)
  | usbmuxd {rest : Bytes} {stream : UsbmuxdStream ScriptedTransport}
      (h : stream.Holds rest) : Received turns rest (.usbmuxd stream)

/-- A read of the stream is an exact one, so it fails when fewer bytes came. -/
theorem triple_read {rest : Bytes} {tunnel : Tunnel turns ScriptedTransport}
    (h : Received turns rest tunnel) (count : Nat) :
    Action.Triple (fun other => other = tunnel) (read count)
      (fun bytes next => count ≤ rest.length ∧ bytes = rest.take count ∧
        Received turns (rest.drop count) next)
      (fun _ _ => rest.length < count) := by
  rintro _ rfl
  cases h with
  | @direct version base frames stream other ending rest sofar numbers link hturns h =>
      have hread := @triple_readExactLoop version base stream ending sofar numbers
        frames rest (link, other) count turns count [] h hturns (Nat.zero_le _)
        (by simp)
      have hrun : Action.run (read count) (Tunnel.direct link other) =
          ((Action.run (Stream.readExact count turns) (link, other)).1,
            (.direct (Action.run (Stream.readExact count turns) (link, other)).2.1
              (Action.run (Stream.readExact count turns) (link, other)).2.2 :
              Tunnel turns ScriptedTransport)) := rfl
      rw [hrun]
      rcases hexact : (Stream.readExact count turns).run (link, other) with
        ⟨fault | bytes, link', other'⟩
      · obtain ⟨hshort, -⟩ := hread.of_error rfl hexact
        rw [List.length_nil, Nat.sub_zero] at hshort
        exact hshort
      · obtain ⟨henough, rfl, answered, later, numbers', rfl, hlength, hnext⟩ :=
          hread.of_ok rfl hexact
        rw [List.length_nil, Nat.sub_zero] at henough hnext
        exact ⟨henough, rfl, .direct (hlength.trans_lt hturns) hnext⟩
  | @usbmuxd rest stream h =>
      have hread := (@UsbmuxdStream.triple_readExact rest count) stream h
      have hrun : Action.run (read count) (Tunnel.usbmuxd stream) =
          ((Action.run (UsbmuxdStream.readExact count) stream).1,
            (.usbmuxd (Action.run (UsbmuxdStream.readExact count) stream).2 :
              Tunnel turns ScriptedTransport)) := rfl
      rw [hrun]
      rcases hexact : (UsbmuxdStream.readExact count).run stream with
        ⟨fault | bytes, next⟩
      · rw [hexact] at hread
        exact hread
      · rw [hexact] at hread
        exact ⟨hread.1, hread.2.1, .usbmuxd hread.2.2⟩

/-- The read of a tunnel without TLS returns as much as it asks for, or fails, over a
direct link and over usbmuxd. -/
theorem readsWhole_received : ReadsWhole (Received turns) where
  enough := by
    intro rest tunnel count h hle
    rcases hrun : (Transport.read count).run tunnel with ⟨fault | bytes, next⟩
    · have hshort := (triple_read h count).of_error rfl hrun
      omega
    · obtain ⟨-, rfl, hnext⟩ := (triple_read h count).of_ok rfl hrun
      exact ⟨next, rfl, hnext⟩
  short := by
    intro rest tunnel count h hlt
    rcases hrun : (Transport.read count).run tunnel with ⟨fault | bytes, next⟩
    · exact ⟨fault, next, rfl⟩
    · obtain ⟨henough, -⟩ := (triple_read h count).of_ok rfl hrun
      omega

/-- A packet without a payload. -/
def emptyPacket : Bytes := 0x60 :: List.replicate 39 0

theorem isIpv6Packet_emptyPacket : IsIpv6Packet emptyPacket where
  header := by decide
  version := by decide
  length := by decide

/-- A link that has frames with these payloads for a new stream, and then these bytes. -/
def carryingLink (payloads ending : List Bytes) : ScriptedTransport × Connection :=
  ({ reads := ((payloads.map (deviceFrame 62078 TcpAck 501)) ++ ending).map .ok },
    { session := { version := 1 } })

/-- A tunnel over a new stream of such a link. -/
def carrying (turns : Nat) (payloads ending : List Bytes) :
    Tunnel turns ScriptedTransport :=
  .direct (carryingLink payloads ending)
    { localPort := 1, remotePort := 62078, txAck := 501 }

private theorem remaining_ok (chunks : List Bytes) :
    ({ reads := chunks.map .ok } : ScriptedTransport).remaining = chunks.flatten := by
  induction chunks with
  | nil => rfl
  | cons chunk rest ih => exact congrArg (chunk ++ ·) ih

private theorem deviceFrame_ne_nil (flags : UInt8) (sequence : UInt32)
    (payload : Bytes) : deviceFrame 62078 flags sequence payload ≠ [] := by
  intro hnil
  have hlength := Session.length_frameBytes { version := 1 } .tcp
    ((deviceHeader 62078 flags sequence).encode ++ payload)
  rw [← deviceFrame, hnil, List.length_append, TcpHeader.length_encode,
    List.length_nil] at hlength
  omega

private theorem fromDevice_payloads {payloads : List Bytes}
    (h : ∀ payload ∈ payloads, payload.length ≤ 49124) :
    ∃ sent numbers, FromDevice 1 1 62078
        (payloads.map (deviceFrame 62078 TcpAck 501)) sent numbers ∧
      sent.flatten = payloads.flatten := by
  induction payloads with
  | nil => exact ⟨[], [], .stop, rfl⟩
  | cons payload payloads ih =>
      rw [List.forall_mem_cons] at h
      obtain ⟨sent, numbers, hdevice, hsent⟩ := ih h.2
      obtain ⟨frame, hframe, hbytes, hprotocol⟩ :=
        isFrame_deviceFrame 62078 TcpAck 501 h.1
      by_cases hempty : payload = []
      · subst hempty
        exact ⟨sent, _, .empty hframe ⟨hprotocol, hbytes, rfl, rfl, rfl⟩
          (by decide) hdevice, hsent⟩
      · refine ⟨payload :: sent, _, .data hframe ⟨hprotocol, hbytes, rfl, rfl, rfl⟩
          hempty (by decide) hdevice, ?_⟩
        rw [List.flatten_cons, List.flatten_cons, hsent]

/-- These payloads were received, whether the device then stops or resets the
stream. -/
theorem received_carrying {payloads ending : List Bytes}
    (h : ∀ payload ∈ payloads, payload.length ≤ 49124)
    (hending : ending = [] ∨ ∃ reason : Bytes, reason.length ≤ 49124 ∧
      ending = [deviceFrame 62078 TcpRst 900 reason])
    {turns : Nat} (hturns : payloads.length < turns) :
    Received turns payloads.flatten (carrying turns payloads ending) := by
  obtain ⟨sent, numbers, hdevice, hsent⟩ := fromDevice_payloads h
  have hends : Stream.Ends 1 1 62078 ending.flatten := by
    rcases hending with rfl | ⟨reason, hreason, rfl⟩
    · exact .stopped Session.not_holdsFrame_nil
    · obtain ⟨frame, hframe, hbytes, hprotocol⟩ :=
        isFrame_deviceFrame 62078 TcpRst 900 hreason
      exact .reset hframe ⟨hprotocol, hbytes, rfl, rfl, rfl⟩ (by decide) []
  have hclean : (carryingLink payloads ending).1.Clean := by
    intro answer hmem
    obtain ⟨bytes, hbytes, rfl⟩ := List.mem_map.mp hmem
    refine ⟨bytes, ?_, rfl⟩
    rcases List.mem_append.mp hbytes with hframe | hframe
    · obtain ⟨payload, -, rfl⟩ := List.mem_map.mp hframe
      exact deviceFrame_ne_nil _ _ _
    · rcases hending with rfl | ⟨reason, -, rfl⟩
      · cases hframe
      · rw [List.mem_singleton.mp hframe]
        exact deviceFrame_ne_nil _ _ _
  have hremaining : (carryingLink payloads ending).1.remaining =
      (payloads.map (deviceFrame 62078 TcpAck 501)).flatten ++ ending.flatten := by
    rw [← List.flatten_append]
    exact remaining_ok _
  have hreading : Reading 1 [] { localPort := 1, remotePort := 62078, txAck := 501 }
      ending.flatten [] (payloads.map (deviceFrame 62078 TcpAck 501))
      payloads.flatten numbers (carryingLink payloads ending,
        { localPort := 1, remotePort := 62078, txAck := 501 }) :=
    ⟨⟨hclean, rfl, rfl, hremaining⟩, hends, ⟨sent, hdevice, hsent.symm⟩,
      ⟨[], rfl, rfl⟩, ⟨_, _, _, rfl⟩, rfl, Nat.le_refl 0⟩
  exact .direct (by rwa [List.length_map]) hreading

/-- A packet in two frames, with an empty one between them. -/
private def threePayloads : List Bytes := [emptyPacket.take 8, [],
  emptyPacket.drop 8 ++ List.replicate 16344 0]

end Tunnel

end Ioscpp
