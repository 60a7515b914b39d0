import Ioscpp.Afc
import Ioscpp.Support.ActionTriple

/-!
# A device that answers

`AfcLink` is a stream to a device that sees the packets that were written and
sends bytes for each.  `Reply` is a well-formed answer of a device, of any
operation and with any data; against a device that gives one to each request, an
exchange reads its reply whole.  So the client is settled after every call:
there is no byte that it has not read, and the next answer is read as the answer
to its own request.

## Main results

- `parseHeader_header`: the header of the reply to the last request passes the checks.
- `run_transact`: an exchange with a device that answers ends with the verdict on the
  answer to this request, and nothing is left unread.
-/

namespace Ioscpp

open Ioscpp.Support
open Ioscpp.Support.Action

/-! ## The stream -/

/-- The stream to a device: what the device sends for the packets so far, or
none when the stream is broken; the packets, what was sent for them, and what
each read returned. -/
structure AfcLink where
  respond : List Bytes → Option Bytes
  sent : List Bytes := []
  replies : List Bytes := []
  received : List Bytes := []

namespace AfcLink

/-- The bytes that were not read. -/
def incoming (link : AfcLink) : Bytes :=
  link.replies.flatten.drop link.received.flatten.length

def write (packet : Bytes) : Action Error AfcLink Unit := do
  let link ← get
  match link.respond (link.sent ++ [packet]) with
  | some reply =>
      set { link with
        sent := link.sent ++ [packet]
        replies := link.replies ++ [reply] }
  | none => Action.fail ⟨.io, ascii "the stream is closed"⟩

def readExact (count : Nat) : Action Error AfcLink Bytes := do
  let link ← get
  if count ≤ link.incoming.length then do
    set { link with received := link.received ++ [link.incoming.take count] }
    return link.incoming.take count
  else Action.fail ⟨.io, ascii "the stream ended early"⟩

instance : ByteStream AfcLink where
  readExact := readExact
  write := write

/-- The stream after a packet that the device replied to. -/
def asked (link : AfcLink) (packet reply : Bytes) : AfcLink :=
  { link with
    sent := link.sent ++ [packet]
    replies := link.replies ++ [reply] }

/-- The stream after a read. -/
def took (link : AfcLink) (data : Bytes) : AfcLink :=
  { link with received := link.received ++ [data] }

theorem run_write_some {link : AfcLink} {packet reply : Bytes}
    (h : link.respond (link.sent ++ [packet]) = some reply) :
    (ByteStream.write packet).run link = (.ok (), link.asked packet reply) := by
  change (write packet).run link = _
  rw [write, run_bind_ok (run_get link), h, run_set, asked]

/-- A read returns what stands first in what was not read. -/
theorem run_readExact_append {link : AfcLink} {front rest : Bytes}
    (h : link.incoming = front ++ rest) {count : Nat}
    (hcount : front.length = count) :
    (ByteStream.readExact count).run link = (.ok front, link.took front) := by
  have htake : link.incoming.take count = front := by
    rw [h, List.take_left' hcount]
  have hle : count ≤ link.incoming.length := by
    rw [h, List.length_append]
    omega
  change (readExact count).run link = _
  rw [readExact, run_bind_ok (run_get link), if_pos hle,
    run_bind_ok (run_set _ link), run_pure, htake, took]

theorem incoming_took {link : AfcLink} {front rest : Bytes}
    (h : link.incoming = front ++ rest) : (link.took front).incoming = rest := by
  have hdrop : (link.took front).incoming = link.incoming.drop front.length := by
    simp [incoming, took, List.drop_drop]
  rw [hdrop, h, List.drop_left]

/-- How many replies are whole within the first `count` bytes. -/
def wholeReplies : List Bytes → Nat → Nat
  | [], _ => 0
  | reply :: rest, count =>
      if reply.length ≤ count then wholeReplies rest (count - reply.length) + 1
      else 0

/-- How many replies were read. -/
def repliesConsumed (link : AfcLink) : Nat :=
  wholeReplies link.replies link.received.flatten.length

/-- Everything that the device sent was read, and it sent one reply for each request:
the next byte to be read is the first of the next answer. -/
def Settled (link : AfcLink) : Prop :=
  link.received.flatten = link.replies.flatten ∧
    link.replies.length = link.sent.length

theorem wholeReplies_flatten (replies : List Bytes) :
    wholeReplies replies replies.flatten.length = replies.length := by
  induction replies with
  | nil => rfl
  | cons reply rest ih =>
      rw [List.flatten_cons, List.length_append, wholeReplies,
        if_pos (Nat.le_add_right _ _), Nat.add_sub_cancel_left, ih,
        List.length_cons]

theorem Settled.repliesConsumed {link : AfcLink} (h : link.Settled) :
    link.repliesConsumed = link.sent.length := by
  rw [AfcLink.repliesConsumed, h.1, wholeReplies_flatten, h.2]

theorem Settled.incoming_asked {link : AfcLink} (h : link.Settled)
    (packet reply : Bytes) : (link.asked packet reply).incoming = reply := by
  rw [incoming, asked, h.1, List.flatten_append, List.flatten_singleton,
    List.drop_left]

/-- The stream after a packet that was answered and whose answer was read: its
header, and what follows. -/
def exchange (link : AfcLink) (packet header data : Bytes) : AfcLink :=
  ((link.asked packet (header ++ data)).took header).took data

theorem Settled.exchange {link : AfcLink} (h : link.Settled)
    (packet header data : Bytes) :
    (link.exchange packet header data).Settled := by
  refine ⟨?_, ?_⟩
  · simp [AfcLink.exchange, took, asked, h.1]
  · simp [AfcLink.exchange, took, asked, h.2]

end AfcLink

/-! ## Replies -/

namespace Afc

open AfcLink

/-- A well-formed answer: an operation and data that a buffer can hold.
`this_length` covers the header and lies within the packet. -/
structure Reply where
  operation : UInt64
  data : Bytes
  thisLength : Nat
  header_le : kHeaderSize ≤ thisLength
  this_le : thisLength ≤ kHeaderSize + data.length
  fits : data.length ≤ 2 ^ 63 - 1

namespace Reply

/-- The header of the reply to a request, whose number it echoes. -/
def header (reply : Reply) (request : Bytes) : Bytes :=
  kMagic ++ leBytes 8 (kHeaderSize + reply.data.length) ++
    leBytes 8 reply.thisLength ++ (request.drop 24).take 8 ++
    putLe64 reply.operation

/-- The bytes of the reply to a request. -/
def encode (reply : Reply) (request : Bytes) : Bytes :=
  reply.header request ++ reply.data

/-- The packet that the client takes from it. -/
def packet (reply : Reply) : Packet := ⟨reply.operation, reply.data⟩

/-- An answer of one packet, neither of whose lengths is short. -/
def whole (operation : UInt64) (data : Bytes)
    (fits : data.length ≤ 2 ^ 63 - 1) : Reply where
  operation := operation
  data := data
  thisLength := kHeaderSize + data.length
  header_le := Nat.le_add_right _ _
  this_le := Nat.le_refl _
  fits := fits

end Reply

@[simp] theorem length_putLe64 (value : UInt64) : (putLe64 value).length = 8 :=
  length_leBytes 8 _

theorem length_kMagic : kMagic.length = 8 := by decide +kernel

/-- The number stands at offset 24 of a request. -/
theorem number_requestPacket (number operation : UInt64) (extra payload : Bytes) :
    ((requestPacket number operation extra payload).drop 24).take 8 =
      putLe64 number := by
  have hlength : (kMagic ++
      putLe64 (UInt64.ofNat (kHeaderSize + extra.length + payload.length)) ++
      putLe64 (UInt64.ofNat (kHeaderSize + extra.length))).length = 24 := by
    simp [length_kMagic]
  simp only [requestPacket, List.append_assoc] at hlength ⊢
  rw [← List.append_assoc, ← List.append_assoc, List.drop_left' (by simpa using hlength),
    List.take_left' (length_putLe64 number)]

/-- The little-endian word at an offset. -/
def word (bytes : Bytes) (offset : Nat) : UInt64 :=
  UInt64.ofNat (leValue ((bytes.drop offset).take 8))

theorem getLe64_eq {ε : Type} {bytes : Bytes} {offset : Nat}
    (h : offset + 8 ≤ bytes.length) :
    (getLe64 bytes offset : Checked ε UInt64) = .ok (word bytes offset) := by
  rw [getLe64, readLe_eq h, ok_bind, pure_eq_ok, word]

/-- A word by what stands before it. -/
theorem word_eq {value offset : Nat} {buffer : Bytes} (front rest : Bytes)
    (hbuffer : buffer = front ++ (leBytes 8 value ++ rest))
    (hfront : front.length = offset) : word buffer offset = UInt64.ofNat value := by
  subst hbuffer hfront
  rw [word, List.drop_left, List.take_left' (length_leBytes 8 value),
    leValue_leBytes]
  apply UInt64.toNat_inj.mp
  simp

/-- The checks, for a header of its size. -/
theorem parseHeader_eq (packetNum : UInt64) {header : Bytes}
    (h : header.length = kHeaderSize) :
    parseHeader packetNum header =
      if header.take 8 ≠ kMagic then
        .error (.error (protocolError "the AFC magic does not match"))
      else if (word header 8).toNat < kHeaderSize ∨
          (word header 16).toNat < kHeaderSize ∨
          word header 8 < word header 16 then
        .error (.error (protocolError "the AFC packet length is out of range"))
      else if word header 24 ≠ packetNum then
        .error (.error (protocolError
          "the AFC packet number does not match"))
      else .ok (word header 32, (word header 8).toNat - kHeaderSize) := by
  have hsize : kHeaderSize = 40 := rfl
  have hword : ∀ offset, offset + 8 ≤ 40 →
      (getLe64 header offset : Checked Error UInt64) = .ok (word header offset) :=
    fun offset hoffset => getLe64_eq (by omega)
  rw [parseHeader]
  split
  · rfl
  rw [hword 8 (by decide), ok_bind, hword 16 (by decide), ok_bind,
    hword 24 (by decide), ok_bind]
  split
  · rfl
  split
  · rfl
  rw [hword 32 (by decide), ok_bind, pure_eq_ok]

section Header

variable (reply : Reply) (number operation : UInt64) (extra payload : Bytes)

private theorem header_eq :
    reply.header (requestPacket number operation extra payload) =
      kMagic ++ (leBytes 8 (kHeaderSize + reply.data.length) ++
        (leBytes 8 reply.thisLength ++ (leBytes 8 number.toNat ++
          leBytes 8 reply.operation.toNat))) := by
  rw [Reply.header, number_requestPacket]
  simp only [List.append_assoc, putLe64]

theorem Reply.length_header :
    (reply.header (requestPacket number operation extra payload)).length =
      kHeaderSize := by
  rw [header_eq]
  simp [length_kMagic, kHeaderSize]

/-- The words of the header of the reply to a request. -/
theorem Reply.words_header :
    word (reply.header (requestPacket number operation extra payload)) 8 =
        UInt64.ofNat (kHeaderSize + reply.data.length) ∧
      word (reply.header (requestPacket number operation extra payload)) 16 =
        UInt64.ofNat reply.thisLength ∧
      word (reply.header (requestPacket number operation extra payload)) 24 =
        number ∧
      word (reply.header (requestPacket number operation extra payload)) 32 =
        reply.operation := by
  rw [header_eq]
  refine ⟨word_eq kMagic _ rfl length_kMagic, ?_, ?_, ?_⟩
  · refine word_eq (kMagic ++ leBytes 8 (kHeaderSize + reply.data.length))
      (leBytes 8 number.toNat ++ leBytes 8 reply.operation.toNat) ?_ ?_
    · simp only [List.append_assoc]
    · simp [length_kMagic]
  · rw [@word_eq number.toNat 24 _
      (kMagic ++ leBytes 8 (kHeaderSize + reply.data.length) ++
        leBytes 8 reply.thisLength) (leBytes 8 reply.operation.toNat)]
    · simp
    · simp only [List.append_assoc]
    · simp [length_kMagic]
  · rw [@word_eq reply.operation.toNat 32 _
      (kMagic ++ leBytes 8 (kHeaderSize + reply.data.length) ++
        leBytes 8 reply.thisLength ++ leBytes 8 number.toNat) []]
    · simp
    · simp only [List.append_assoc, List.append_nil]
    · simp [length_kMagic]

/-- The header of the reply to the last request passes the checks: of the magic, of the
two lengths and of the number. -/
theorem parseHeader_header :
    parseHeader number
      (reply.header (requestPacket number operation extra payload)) =
      .ok (reply.operation, reply.data.length) := by
  have hfits := reply.fits
  have hheader := reply.header_le
  have hthis := reply.this_le
  have hsize : kHeaderSize = 40 := rfl
  obtain ⟨h8, h16, h24, h32⟩ :=
    reply.words_header number operation extra payload
  have hentireNat : (UInt64.ofNat (kHeaderSize + reply.data.length)).toNat =
      kHeaderSize + reply.data.length := by
    rw [UInt64.toNat_ofNat', Nat.mod_eq_of_lt (by omega)]
  have hthisNat : (UInt64.ofNat reply.thisLength).toNat = reply.thisLength := by
    rw [UInt64.toNat_ofNat', Nat.mod_eq_of_lt (by omega)]
  have hmagic : (reply.header
      (requestPacket number operation extra payload)).take 8 = kMagic := by
    rw [header_eq, List.take_left' length_kMagic]
  rw [parseHeader_eq _ (reply.length_header number operation extra payload),
    if_neg (not_not.mpr hmagic), h8, h16, h24, h32, if_neg, if_neg, hentireNat,
    Nat.add_sub_cancel_left]
  · exact not_not.mpr rfl
  · rw [UInt64.lt_iff_toNat_lt, hentireNat, hthisNat]
    omega

end Header

/-! ## The exchange -/

/-- A device that answers every request with one well-formed packet. -/
def answering (answer : List Bytes → Reply) (history : List Bytes) :
    Option Bytes :=
  history.getLast?.map fun request => (answer history).encode request

section Exchange

variable {answer : List Bytes → Reply} {link : AfcLink}

theorem run_onStream_ok {σ α : Type} {x : Action Error σ α} {stream next : σ}
    {a : α} (h : x.run stream = (.ok a, next)) (client : Afc) :
    (onStream x).run (stream, client) = (.ok a, (next, client)) := by
  rw [onStream, run_zoom, h]

/-- An exchange with a device that answers: the verdict on the answer to this
request, and a stream of which everything was read. -/
theorem run_transact (hrespond : link.respond = answering answer)
    (h : link.Settled) (number operation : UInt64) (extra payload : Bytes)
    {packet : Bytes} {reply : Reply}
    (hpacket : packet = requestPacket (number + 1) operation extra payload)
    (hreply : reply = answer (link.sent ++ [packet])) :
    (transact operation extra payload).run (link, (⟨number⟩ : Afc)) =
      (checkAnswer reply.packet,
        link.exchange packet (reply.header packet) reply.data,
        ⟨number + 1⟩) := by
  have hparse := parseHeader_header reply (number + 1) operation extra payload
  have hlength := reply.length_header (number + 1) operation extra payload
  rw [← hpacket] at hparse hlength
  have hresponse : link.respond (link.sent ++ [packet]) =
      some (reply.encode packet) := by
    rw [hrespond, answering, List.getLast?_concat, Option.map_some, hreply]
  have hincoming := h.incoming_asked packet (reply.encode packet)
  have hrest : ((link.asked packet (reply.encode packet)).took
      (reply.header packet)).incoming = reply.data ++ [] := by
    rw [List.append_nil]
    exact incoming_took hincoming
  have hsend : (send operation extra payload).run (link, (⟨number⟩ : Afc)) =
      (.ok (), (link.asked packet (reply.encode packet), ⟨number + 1⟩)) := by
    rw [send, run_bind_ok (run_modify _ _), run_bind_ok (run_get _)]
    dsimp only
    rw [← hpacket, run_onStream_ok (run_write_some hresponse)]
  have hfirst := run_readExact_append hincoming hlength
  have hsecond := run_readExact_append hrest rfl
  have hsize : (resize reply.data.length : Checked Error Unit) = .ok () := by
    rw [resize, if_neg (Nat.not_lt.mpr reply.fits)]
  have hreceive : (receive : Action Error (AfcLink × Afc) Packet).run
      (link.asked packet (reply.encode packet), ⟨number + 1⟩) =
      (.ok reply.packet,
        (link.exchange packet (reply.header packet) reply.data,
          ⟨number + 1⟩)) := by
    rw [receive, run_bind_ok (run_onStream_ok hfirst _), run_bind_ok (run_get _)]
    dsimp only
    rw [hparse, run_bind_ok (run_lift _ _), hsize, run_bind_ok (run_lift _ _),
      run_bind_ok (run_onStream_ok hsecond _), run_pure]
    rfl
  rw [transact, run_bind_ok hsend, run_bind_ok hreceive, run_lift]

end Exchange

end Afc

end Ioscpp
