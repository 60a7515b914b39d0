import Ioscpp.AfcLink
import Ioscpp.Crypto.PairAnswers
import Ioscpp.DtxConnection
import Ioscpp.Protocol.Http2Effects
import Ioscpp.Protocol.ParsersSettle
import Ioscpp.Protocol.PlistXmlInteger
import Ioscpp.Protocol.RemoteXpcFraming
import Ioscpp.Rsd
import Ioscpp.RsdFraming
import Ioscpp.StreamPeer
import Ioscpp.TcpLinkAddress
import Ioscpp.TcpLinkPeer

/-!
# The device's replies

`DeviceReply` is what a device can answer with, at each parser that the library gives it
to.  All of them end in a value or an error, whatever the device sends, but for the
few replies that `Tame` leaves out.

## Main results

- `settled_stoi_iff`: which texts `std::stoi` takes.
- `Afc.settled_receive_iff`: which headers of AFC packets ask for a vector that there
  can be.
- `DeviceReply.read_settled_iff`: which replies are parsed to a value or an error.
-/

namespace Ioscpp

open Ioscpp.Support
open Ioscpp.Protocol

theorem settled_map_iff {α β : Type} {f : α → β} {x : Result α} :
    Settled (x.map f) ↔ Settled x := by
  cases x with
  | ok a => exact iff_of_true (settled_ok (f a)) (settled_ok a)
  | error fault =>
      cases fault with
      | error e => exact iff_of_true (settled_error e) (settled_error e)
      | _ => exact iff_of_false (by simp [Settled, Except.map]) (by simp [Settled])

/-! ## Texts of an `int` -/

/-- The number of a sign and digits. -/
def signedValue (sign digits : Bytes) : Int :=
  if sign = [0x2d] then -digitsValue digits else digitsValue digits

/-- The text is white space, a sign, digits and a rest that begins with no digit,
and the number is an `int`. -/
def StartsInt (text : Bytes) : Prop :=
  ∃ space sign digits rest, text = space ++ (sign ++ (digits ++ rest)) ∧
    (∀ c ∈ space, isSpace c) ∧ (sign = [] ∨ sign = [0x2b] ∨ sign = [0x2d]) ∧
    digits ≠ [] ∧ (∀ c ∈ digits, isDigit c) ∧ (∀ c ∈ rest.head?, isDigit c = false) ∧
    -2 ^ 31 ≤ signedValue sign digits ∧ signedValue sign digits < 2 ^ 31

theorem exists_takeSign (text : Bytes) :
    ∃ sign, text = sign ++ (takeSign text).2 ∧
      (sign = [] ∨ sign = [0x2b] ∨ sign = [0x2d]) ∧
      ((takeSign text).1 = true ↔ sign = [0x2d]) := by
  unfold takeSign
  split
  · exact ⟨[0x2d], rfl, Or.inr (Or.inr rfl), by simp⟩
  · exact ⟨[0x2b], rfl, Or.inr (Or.inl rfl), by simp⟩
  · exact ⟨[], rfl, Or.inl rfl, by simp⟩

/-- The sign of digits is what stands in front of them. -/
theorem takeSign_append {sign : Bytes} {d : UInt8} (hd : isDigit d) (rest : Bytes)
    (hsign : sign = [] ∨ sign = [0x2b] ∨ sign = [0x2d]) :
    (takeSign (sign ++ d :: rest)).2 = d :: rest ∧
      ((takeSign (sign ++ d :: rest)).1 = true ↔ sign = [0x2d]) := by
  rcases hsign with rfl | rfl | rfl
  · rw [List.nil_append, Plist.takeSign_of_isDigit hd]
    simp
  · exact ⟨rfl, by simp [takeSign]⟩
  · exact ⟨rfl, by simp [takeSign]⟩

/-- A text is read by the sign and the digits behind its white space. -/
theorem settled_stoi_parts {text sign digits : Bytes}
    (hsign : (takeSign (text.dropWhile isSpace)).1 = true ↔ sign = [0x2d])
    (hdigits : (takeSign (text.dropWhile isSpace)).2.takeWhile isDigit = digits) :
    Settled (stoi text : Result Int) ↔
      digits ≠ [] ∧ -2 ^ 31 ≤ signedValue sign digits ∧
        signedValue sign digits < 2 ^ 31 := by
  have hvalue : (if (takeSign (text.dropWhile isSpace)).1 = true then
      -(digitsValue digits : Int) else digitsValue digits) = signedValue sign digits := by
    simp only [signedValue, hsign]
  unfold stoi
  dsimp only
  rw [hdigits, hvalue]
  by_cases hbad : digits = [] ∨ signedValue sign digits < -2 ^ 31 ∨
      2 ^ 31 ≤ signedValue sign digits
  · rw [if_pos hbad]
    constructor
    · intro hsettled
      exact absurd rfl hsettled.ne_exception
    · intro hgood
      obtain ⟨hne, hlow, hhigh⟩ := hgood
      rcases hbad with hnil | hbelow | habove
      · exact absurd hnil hne
      · omega
      · omega
  · rw [if_neg hbad]
    constructor
    · intro _
      simp only [not_or, not_lt, not_le] at hbad
      exact hbad
    · intro _
      exact settled_ok _

/-- Which texts `std::stoi` takes without an exception: white space, a sign that may be
missing, and at least one digit of a number that is an `int`. -/
theorem settled_stoi_iff (text : Bytes) :
    Settled (stoi text : Result Int) ↔ StartsInt text := by
  constructor
  · intro hsettled
    obtain ⟨sign, htext, hsign, hnegative⟩ := exists_takeSign (text.dropWhile isSpace)
    have hparts := (settled_stoi_parts hnegative rfl).mp hsettled
    refine ⟨text.takeWhile isSpace, sign, _, (takeSign
      (text.dropWhile isSpace)).2.dropWhile isDigit, ?_, ?_, hsign, hparts.1, ?_, ?_,
      hparts.2⟩
    · rw [List.takeWhile_append_dropWhile, ← htext, List.takeWhile_append_dropWhile]
    · intro c hc
      exact List.mem_takeWhile_imp hc
    · intro c hc
      exact List.mem_takeWhile_imp hc
    · intro c hc
      have hnot := List.head?_dropWhile_not isDigit
        (takeSign (text.dropWhile isSpace)).2
      rw [hc] at hnot
      simpa using hnot
  · intro hstarts
    obtain ⟨space, sign, digits, rest, htext, hspace, hsign, hne, hdigits, hrest, hint⟩ :=
      hstarts
    cases digits with
    | nil => exact absurd rfl hne
    | cons d digits =>
        have hd : isDigit d := hdigits d (by simp)
        have hdrop : text.dropWhile isSpace = sign ++ d :: (digits ++ rest) := by
          rw [htext, List.dropWhile_append_of_pos hspace]
          rcases hsign with rfl | rfl | rfl
          · show (d :: (digits ++ rest)).dropWhile isSpace = _
            rw [List.dropWhile_cons_of_neg (by simp [not_isSpace_of_isDigit hd])]
            rfl
          · rfl
          · rfl
        have hparts := takeSign_append hd (digits ++ rest) hsign
        rw [← hdrop] at hparts
        have htake : (takeSign (text.dropWhile isSpace)).2.takeWhile isDigit =
            d :: digits := by
          rw [hparts.1, ← List.cons_append, List.takeWhile_append_of_pos hdigits]
          cases rest with
          | nil => simp
          | cons c rest =>
              rw [List.takeWhile_cons_of_neg (by simp [hrest c (by simp)]),
                List.append_nil]
        exact (settled_stoi_parts hparts.2 htake).mpr ⟨hne, hint⟩

/-! ## The services -/

/-- The port of a service is missing, or no text, or a text of an `int`. -/
def PortReads (entry : Xpc) : Prop :=
  ∀ text, (entry.find (ascii "Port")).bind Xpc.asString = some text → StartsInt text

theorem settled_parseService_iff (entry : Xpc) :
    Settled (parseService entry) ↔ PortReads entry := by
  unfold parseService PortReads
  cases (entry.find (ascii "Port")).bind Xpc.asString with
  | none => exact iff_of_true (settled_ok _) (by simp)
  | some text =>
      dsimp only
      constructor
      · intro hsettled text' htext
        cases htext
        apply (settled_stoi_iff text).mp
        rcases hstoi : (stoi text : Result Int) with e | value
        · rw [hstoi, stoi_error hstoi] at hsettled
          exact absurd rfl hsettled.ne_exception
        · exact settled_ok value
      · intro hports
        exact ((settled_stoi_iff text).mpr (hports text rfl)).bind
          fun value _ => settled_ok _

/-- A service that is parsed adds an entry, and any other ends the loop. -/
theorem settled_parseServices_iff (reply : Xpc) :
    Settled (parseServices reply) ↔
      ∀ entries, (reply.find (ascii "Services")).bind Xpc.asDictionary = some entries →
        ∀ entry ∈ entries, PortReads entry.2 := by
  unfold parseServices
  cases (reply.find (ascii "Services")).bind Xpc.asDictionary with
  | none => exact iff_of_true (settled_ok _) (by simp)
  | some entries =>
      dsimp only
      have hloop : ∀ services : RsdServices,
          Settled (entries.foldlM (fun services entry => do
            let service ← parseService entry.2
            return SortedMap.emplace entry.1 service services) services) ↔
          ∀ entry ∈ entries, PortReads entry.2 := by
        induction entries with
        | nil => exact fun services => iff_of_true (settled_ok _) (by simp)
        | cons entry entries ih =>
            intro services
            rw [List.foldlM_cons, List.forall_mem_cons, ← settled_parseService_iff]
            rcases hservice : parseService entry.2 with e | service
            · rw [parseService_error hservice]
              constructor
              · intro hsettled
                exact absurd rfl hsettled.ne_exception
              · intro hsettled
                exact absurd rfl hsettled.1.ne_exception
            · rw [and_iff_right (settled_ok service)]
              exact ih _
      rw [hloop]
      simp

/-! ## AFC packets -/

namespace Afc

/-- A header that is accepted: its magic, its lengths and its number. -/
structure Accepted (packetNum : UInt64) (header : Bytes) : Prop where
  magic : header.take 8 = kMagic
  lengths : kHeaderSize ≤ (word header 16).toNat ∧ word header 16 ≤ word header 8
  number : word header 24 = packetNum

/-- A header of 40 bytes is refused with an error, or accepted with the size of what
follows it. -/
theorem parseHeader_cases (packetNum : UInt64) {header : Bytes}
    (h : header.length = kHeaderSize) :
    (∃ e, parseHeader packetNum header = .error (.error e)) ∧
        ¬ Accepted packetNum header ∨
      parseHeader packetNum header =
          .ok (word header 32, (word header 8).toNat - kHeaderSize) ∧
        Accepted packetNum header := by
  rw [parseHeader_eq packetNum h]
  by_cases hmagic : header.take 8 = kMagic
  · rw [if_neg (not_not_intro hmagic)]
    by_cases hlengths : (word header 8).toNat < kHeaderSize ∨
        (word header 16).toNat < kHeaderSize ∨ word header 8 < word header 16
    · rw [if_pos hlengths]
      refine .inl ⟨⟨_, rfl⟩, fun haccepted => ?_⟩
      obtain ⟨hlow, hle⟩ := haccepted.lengths
      rw [UInt64.lt_iff_toNat_lt] at hlengths
      rw [UInt64.le_iff_toNat_le] at hle
      omega
    · rw [if_neg hlengths]
      by_cases hnumber : word header 24 = packetNum
      · rw [if_neg (not_not_intro hnumber)]
        refine .inr ⟨rfl, hmagic, ?_, hnumber⟩
        rw [UInt64.lt_iff_toNat_lt] at hlengths
        rw [UInt64.le_iff_toNat_le]
        omega
      · rw [if_pos hnumber]
        exact .inl ⟨⟨_, rfl⟩, fun haccepted => hnumber haccepted.number⟩
  · rw [if_pos hmagic]
    exact .inl ⟨⟨_, rfl⟩, fun haccepted => hmagic haccepted.magic⟩

/-- When an accepted header is there, the size of what follows it is that of a
vector. -/
def SizeFits (packetNum : UInt64) (incoming : Bytes) : Prop :=
  kHeaderSize ≤ incoming.length → Accepted packetNum (incoming.take kHeaderSize) →
    (word (incoming.take kHeaderSize) 8).toNat < 2 ^ 63 + kHeaderSize

/-- An AFC packet is received, or refused with an error, exactly when the size in a
header that passes the checks is that of a vector; a size beyond that makes `resize`
throw. -/
theorem settled_receive_iff (incoming written : Bytes) (afc : Afc) :
    Settled ((receive : Action Error (MemoryByteStream × Afc) Packet).run
        (⟨incoming, written⟩, afc)).1 ↔ SizeFits afc.packetNum incoming := by
  unfold SizeFits
  by_cases hle : kHeaderSize ≤ incoming.length
  · have hread : (onStream (ByteStream.readExact kHeaderSize) :
        Action Error (MemoryByteStream × Afc) Bytes).run (⟨incoming, written⟩, afc) =
          (.ok (incoming.take kHeaderSize),
            ⟨incoming.drop kHeaderSize, written⟩, afc) := by
      rw [onStream, Action.run_zoom, MemoryByteStream.run_readExact_of_le _ hle]
    have hlength : (incoming.take kHeaderSize).length = kHeaderSize :=
      List.length_take_of_le hle
    rw [receive, Action.run_bind_ok hread, Action.run_bind_ok (Action.run_get _)]
    rcases parseHeader_cases afc.packetNum hlength with
      ⟨⟨e, hparse⟩, hnot⟩ | ⟨hparse, haccepted⟩
    · rw [hparse, Action.run_bind_error (Action.run_lift _ _)]
      exact iff_of_true (settled_error e) fun _ haccepted => absurd haccepted hnot
    · rw [hparse, Action.run_bind_ok (Action.run_lift _ _)]
      dsimp only
      have hlow := haccepted.lengths.1.trans
        (UInt64.le_iff_toNat_le.mp haccepted.lengths.2)
      by_cases hsize : (word (incoming.take kHeaderSize) 8).toNat - kHeaderSize < 2 ^ 63
      · have hresize : (resize ((word (incoming.take kHeaderSize) 8).toNat - kHeaderSize) :
            Result Unit) = .ok () := if_neg (by omega)
        rw [hresize, Action.run_bind_ok (Action.run_lift _ _)]
        refine iff_of_true ?_ fun _ _ => by omega
        apply Crypto.settled_run_bind
        · rw [onStream, Action.run_zoom]
          exact Crypto.settledStream_memory.readExact _ _
        · intro data next
          exact settled_ok _
      · have hresize : (resize ((word (incoming.take kHeaderSize) 8).toNat - kHeaderSize) :
            Result Unit) = .error .exception := if_pos (by omega)
        rw [hresize, Action.run_bind_error (Action.run_lift _ _)]
        refine iff_of_false (fun hsettled => hsettled.ne_exception rfl) fun hfits => ?_
        have hlt := hfits hle haccepted
        omega
  · have hread : (onStream (ByteStream.readExact kHeaderSize) :
        Action Error (MemoryByteStream × Afc) Bytes).run (⟨incoming, written⟩, afc) =
          (.error (.error ⟨.io, ascii "the stream ended early"⟩),
            ⟨incoming, written⟩, afc) := by
      rw [onStream, Action.run_zoom,
        MemoryByteStream.run_readExact_of_lt _ (Nat.lt_of_not_le hle)]
    rw [receive, Action.run_bind_error hread]
    exact iff_of_true (settled_error _) fun hlong => absurd hlong hle

theorem settled_checkAnswer (answer : Packet) : Settled (checkAnswer answer) := by
  unfold checkAnswer
  apply Settled.ite
  · by_cases hshort : answer.data.length < 8
    · rw [if_pos hshort]
      exact settled_error _
    · rw [if_neg hshort]
      rw [getLe64_eq (by omega), ok_bind]
      exact Settled.ite (settled_error _) (settled_ok answer)
  · exact Settled.ite (settled_error _) (settled_ok answer)

end Afc

/-! ## Headers and packets -/

theorem settled_versionHeader {bytes : Bytes} (h : bytes.length = VersionHeader.kSize) :
    Settled (VersionHeader.decode bytes) := by
  have hsize : bytes.length = 12 := h
  rw [VersionHeader.decode, readBe_eq (by omega), ok_bind, readBe_eq (by omega),
    ok_bind, readBe_eq (by omega), ok_bind]
  exact settled_ok _

theorem settled_parseIpv6 (text : Bytes) : Settled (parseIpv6 text) := by
  have hbytes : Settled (parseIpv6Bytes text) := by
    rcases text_or_refused text with ⟨left, right, htext⟩ | hrefused
    · rw [(parseIpv6Bytes_text htext).1]
      exact settled_ok _
    · rw [hrefused]
      exact settled_error _
  rw [← parseIpv6_map_bytes, settled_map_iff] at hbytes
  exact hbytes

theorem settled_frameSizes {header : Bytes} (h : header.length = kDtxHeaderSize) :
    Settled (DtxConnection.frameSizes header) := by
  have hsize : header.length = 32 := h
  rw [DtxConnection.frameSizes, readLe_eq (by omega), ok_bind, readLe_eq (by omega),
    ok_bind, readLe_eq (by omega), ok_bind]
  exact Settled.ite (settled_error _) (Settled.ite (settled_error _)
    (Settled.ite (settled_error _) (settled_ok _)))

theorem settled_cdtunnelHeaderLength {header : Bytes}
    (h : header.length = kCdtunnelHeaderSize) :
    Settled (cdtunnelHeaderLength header) := by
  have hsize : header.length = 10 := h
  apply Settled.ite (settled_error _)
  rw [readBe_eq (by omega), ok_bind]
  exact settled_ok _

theorem settled_cdtunnelDecode (frame : Bytes) : Settled (cdtunnelDecode frame) := by
  unfold cdtunnelDecode
  by_cases hshort : frame.length < kCdtunnelHeaderSize
  · rw [if_pos hshort]
    exact settled_error _
  · rw [if_neg hshort, slice_of_le (by omega), ok_bind]
    have hheader : ((frame.drop 0).take kCdtunnelHeaderSize).length =
        kCdtunnelHeaderSize := by
      rw [List.drop_zero]
      exact List.length_take_of_le (Nat.le_of_not_lt hshort)
    apply (settled_cdtunnelHeaderLength hheader).bind
    intro length _
    by_cases hlength : frame.length = kCdtunnelHeaderSize + length.toNat
    · rw [if_neg (not_not_intro hlength), slice_of_le (by omega)]
      exact settled_ok _
    · rw [if_pos hlength]
      exact settled_error _

theorem settled_serviceOf (answer : Plist) : Settled (Lockdown.serviceOf answer) := by
  unfold Lockdown.serviceOf
  split
  · exact settled_ok _
  · exact settled_error _

/-! ## Answers of the daemon -/

namespace Usbmuxd

theorem settled_deviceIdOf (answer : Plist) : Settled (deviceIdOf answer) := by
  unfold deviceIdOf
  split
  · split
    · exact settled_ok _
    · exact settled_error _
  · exact settled_error _

theorem settled_parseAnswer_iff {answer : Bytes} (h : 12 ≤ answer.length) :
    Settled (parseAnswer answer) ↔ HoldsResult answer := by
  constructor
  · intro hsettled
    exact (inside_parseAnswer_iff h).mp (Inside.of_settled hsettled)
  · intro hholds
    unfold parseAnswer
    rw [readLe_eq (by omega), ok_bind]
    by_cases hresult : leValue ((answer.drop 4).take 4) = kMessageResult
    · have hlong := hholds hresult
      rw [if_pos hresult, readLe_eq (by omega), ok_bind]
      exact Settled.ite (settled_error _) (settled_ok _)
    · rw [if_neg hresult, slice_of_le (by omega), ok_bind]
      exact settled_parsePlist _

theorem settled_checkConnected_iff {answer : Bytes} (h : 12 ≤ answer.length) :
    Settled (checkConnected answer) ↔ HoldsResult answer := by
  constructor
  · intro hsettled
    exact (inside_checkConnected_iff h).mp (Inside.of_settled hsettled)
  · intro hholds
    unfold checkConnected
    rw [readLe_eq (by omega), ok_bind]
    by_cases hresult : leValue ((answer.drop 4).take 4) = kMessageResult
    · have hlong := hholds hresult
      rw [if_neg (not_not_intro hresult), readLe_eq (by omega), ok_bind]
      exact Settled.ite (settled_error _) (settled_ok _)
    · rw [if_pos hresult]
      exact settled_error _

end Usbmuxd

/-! ## HTTP/2 frames -/

namespace Protocol.Http2

theorem settled_handleFrame_iff (frame : Http2Frame) (http2 : Http2 ScriptedTransport) :
    Settled ((handleFrame frame).run http2).1 ↔ frame.HasIncrement := by
  constructor
  · intro hsettled htype
    by_cases hshort : frame.payload.length < 4
    · have hrun := run_handleFrame_short htype hshort http2
      rw [hrun] at hsettled
      exact absurd rfl (Usbmuxd.Inside.of_settled hsettled)
    · omega
  · intro hincrement
    obtain ⟨next, -, ⟨-, hrun⟩ | ⟨-, answer, hrun⟩⟩ :=
      handles_handleFrame hincrement http2
    · rw [hrun]
      exact settled_ok ()
    · rw [hrun]
      rcases run_write_cases answer next with ⟨-, e, hwrite⟩ | ⟨-, hwrite⟩
      · rw [hwrite]
        exact settled_error e
      · rw [hwrite]
        exact settled_ok ()

end Protocol.Http2

/-! ## Replies -/

/-- What a device answers with, at the parser that the library gives it to: bytes, or
what was parsed from them.  Some parsers take a span of a fixed size, and those of the
daemon's answers take no fewer than 12 bytes.  The tokens of an AFC payload are stored
without a check, so a listing and the metadata of a file have a value whatever it is. -/
inductive DeviceReply where
  | muxHeader (version : UInt32) (bytes : Bytes)
      (size : bytes.length = MuxHeader.wireSize version)
  | versionHeader (bytes : Bytes) (size : bytes.length = VersionHeader.kSize)
  | streamFrame (localPort remotePort : UInt16) (frame : Frame)
  | linkPacket (ports : Ports) (packet : Bytes)
  | linkAddress (text : Bytes)
  | ipv6Header (bytes : Bytes) (size : bytes.length = kIpv6HeaderSize)
  | http2Header (bytes : Bytes) (size : bytes.length = 9)
  | http2Frame (frame : Http2Frame) (http2 : Http2 ScriptedTransport)
  | plist (bytes : Bytes)
  | lockdownAnswer (answer : Plist)
  | serviceAnswer (answer : Plist)
  | archive (bytes : Bytes)
  | dtxHeader (bytes : Bytes) (size : bytes.length = kDtxHeaderSize)
  | dtxMessage (bytes : Bytes)
  | xpc (bytes : Bytes)
  | xpcPayload (bytes : Bytes)
  | xpcWrapper (bytes : Bytes)
  | services (reply : Xpc)
  | tunnelHeader (bytes : Bytes) (size : bytes.length = kCdtunnelHeaderSize)
  | tunnelFrame (bytes : Bytes)
  | tunnelResponse (undefined : UInt64 → UInt16) (text : Bytes)
  | json (text : Bytes)
  | afcPacket (afc : Afc) (incoming written : Bytes)
  | afcAnswer (answer : Afc.Packet)
  | afcListing (payload : Bytes)
  | afcMetadata (payload : Bytes)
  | daemonAnswer (answer : Bytes) (size : 12 ≤ answer.length)
  | daemonConnected (answer : Bytes) (size : 12 ≤ answer.length)
  | daemonDevices (answer : Plist)

namespace DeviceReply

/-- How a parser ends, without its value. -/
def ending {α : Type} (result : Result α) : Result Unit := result.map fun _ => ()

/-- Parses the reply. -/
def read : DeviceReply → Result Unit
  | muxHeader version bytes _ => ending (MuxHeader.decode bytes version)
  | versionHeader bytes _ => ending (VersionHeader.decode bytes)
  | streamFrame localPort remotePort frame =>
      ending (Stream.acceptFrame localPort remotePort frame)
  | linkPacket ports packet => ending (TcpLink.acceptSegment ports packet)
  | linkAddress text => ending (parseIpv6 text)
  | ipv6Header bytes _ => ending (Ipv6Header.decode bytes)
  | http2Header bytes _ => ending (Http2.frameHeader bytes)
  | http2Frame frame http2 => ((Http2.handleFrame frame).run http2).1
  | plist bytes => ending (Plist.parse bytes)
  | lockdownAnswer answer => ending (Lockdown.checkAnswer answer)
  | serviceAnswer answer => ending (Lockdown.serviceOf answer)
  | archive bytes => ending (KeyedArchive.unarchive bytes)
  | dtxHeader bytes _ => ending (DtxConnection.frameSizes bytes)
  | dtxMessage bytes => ending (Dtx.parse bytes)
  | xpc bytes => ending (Xpc.parse bytes)
  | xpcPayload bytes => ending (XpcPayload.parse bytes)
  | xpcWrapper bytes => ending (XpcWrapper.parse bytes)
  | services reply => ending (parseServices reply)
  | tunnelHeader bytes _ => ending (cdtunnelHeaderLength bytes)
  | tunnelFrame bytes => ending (cdtunnelDecode bytes)
  | tunnelResponse undefined text => ending (CdtunnelResponse.parse undefined text)
  | json text => ending (Json.parse text)
  | afcPacket afc incoming written => ending ((Afc.receive :
      Action Error (MemoryByteStream × Afc) Afc.Packet).run
        (⟨incoming, written⟩, afc)).1
  | afcAnswer answer => ending (Afc.checkAnswer answer)
  | afcListing payload => ending (.ok (Afc.listLoop (Afc.tokens payload) {} []))
  | afcMetadata payload => ending (.ok (Afc.parseTokens (Afc.tokens payload) {}))
  | daemonAnswer answer _ => ending (Usbmuxd.parseAnswer answer)
  | daemonConnected answer _ => Usbmuxd.checkConnected answer
  | daemonDevices answer => ending (Usbmuxd.deviceIdOf answer)

/-- A reply that breaks no rule its parser leaves unchecked: the ports of services are
texts of an `int`, the size of an AFC packet is that of a vector, a WINDOW_UPDATE has
its increment, and a result of the daemon is there. -/
def Tame : DeviceReply → Prop
  | http2Frame frame _ => frame.HasIncrement
  | services reply =>
      ∀ entries, (reply.find (ascii "Services")).bind Xpc.asDictionary = some entries →
        ∀ entry ∈ entries, PortReads entry.2
  | afcPacket afc incoming _ => Afc.SizeFits afc.packetNum incoming
  | daemonAnswer answer _ => Usbmuxd.HoldsResult answer
  | daemonConnected answer _ => Usbmuxd.HoldsResult answer
  | _ => True

theorem settled_ending_iff {α : Type} {result : Result α} :
    Settled (ending result) ↔ Settled result := settled_map_iff

theorem settled_ending {α : Type} {result : Result α} (h : Settled result) :
    Settled (ending result) ↔ True := iff_true_intro (settled_ending_iff.mpr h)

/-- A reply is parsed to a value or to an error, with nothing thrown and nothing read
outside it, exactly when it is tame. For most parsers every reply is; `Tame` says of the
others what they leave unchecked. -/
theorem read_settled_iff (reply : DeviceReply) : Settled reply.read ↔ reply.Tame := by
  cases reply with
  | muxHeader version bytes size =>
      exact settled_ending (.inl (MuxHeader.decode_of_length size))
  | versionHeader bytes size => exact settled_ending (settled_versionHeader size)
  | streamFrame localPort remotePort frame =>
      exact settled_ending (.inl (Stream.acceptFrame_total _ _ frame))
  | linkPacket ports packet =>
      exact settled_ending (.inl (TcpLink.acceptSegment_total ports packet))
  | linkAddress text => exact settled_ending (settled_parseIpv6 text)
  | ipv6Header bytes size =>
      obtain ⟨header, hdecode, -⟩ := Ipv6Header.decode_of_le (Nat.le_of_eq size.symm)
      exact settled_ending (.inl ⟨header, hdecode⟩)
  | http2Header bytes size =>
      exact settled_ending (.inl
        (Http2.exists_frameHeader (Nat.le_of_eq size.symm)))
  | http2Frame frame http2 => exact Http2.settled_handleFrame_iff frame http2
  | plist bytes => exact settled_ending (Usbmuxd.settled_parsePlist bytes)
  | lockdownAnswer answer => exact settled_ending (Crypto.settled_checkAnswer answer)
  | serviceAnswer answer => exact settled_ending (settled_serviceOf answer)
  | archive bytes => exact settled_ending (KeyedArchive.settled_unarchive bytes)
  | dtxHeader bytes size => exact settled_ending (settled_frameSizes size)
  | dtxMessage bytes => exact settled_ending (Dtx.settled_parse bytes)
  | xpc bytes => exact settled_ending (prefixFree_xpc.settled bytes)
  | xpcPayload bytes => exact settled_ending (prefixFree_xpcPayload.settled bytes)
  | xpcWrapper bytes => exact settled_ending (settled_xpcWrapper bytes)
  | services reply => exact settled_ending_iff.trans (settled_parseServices_iff reply)
  | tunnelHeader bytes size =>
      exact settled_ending (settled_cdtunnelHeaderLength size)
  | tunnelFrame bytes => exact settled_ending (settled_cdtunnelDecode bytes)
  | tunnelResponse undefined text =>
      exact settled_ending (CdtunnelResponse.settled_parse undefined text)
  | json text => exact settled_ending (Json.settled_parse text)
  | afcPacket afc incoming written =>
      exact settled_ending_iff.trans (Afc.settled_receive_iff incoming written afc)
  | afcAnswer answer => exact settled_ending (Afc.settled_checkAnswer answer)
  | afcListing payload => exact settled_ending (settled_ok _)
  | afcMetadata payload => exact settled_ending (settled_ok _)
  | daemonAnswer answer size =>
      exact settled_ending_iff.trans (Usbmuxd.settled_parseAnswer_iff size)
  | daemonConnected answer size => exact Usbmuxd.settled_checkConnected_iff size
  | daemonDevices answer => exact settled_ending (Usbmuxd.settled_deviceIdOf answer)

/-- A handshake whose one service has an empty port. -/
private def emptyPort : Xpc :=
  .dictionary [(ascii "Services", .dictionary [(ascii "com.apple.afc.shim.remote",
    .dictionary [(ascii "Port", .string [])])])]

/-- The header of a packet that claims all the bytes there are. -/
private def claimsAll : Bytes :=
  Afc.kMagic ++ leBytes 8 (2 ^ 64 - 1) ++ leBytes 8 40 ++ leBytes 8 1 ++
    leBytes 8 Afc.kOpData.toNat

/-- Both throw. -/
theorem read_throws :
    (services emptyPort).read = .error .exception ∧
      (afcPacket { packetNum := 1 } claimsAll []).read = .error .exception := by
  constructor
  · rfl
  · rfl

end DeviceReply

end Ioscpp
