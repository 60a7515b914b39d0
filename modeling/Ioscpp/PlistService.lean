import Ioscpp.ByteStream
import Ioscpp.Protocol.PlistXmlRoundTrip

/-!
# Plist services

`lockdownd` and the services like it frame every message the same way: the
length of an XML property list in four big-endian bytes, then the property list.

## Main results

- `run_receive`: the message of a frame is received, and what follows is left.
- `receiveAll_sendAll`: what is sent is received, in order.
-/

namespace Ioscpp.PlistService

open Ioscpp.Support
open Ioscpp.Protocol

variable {σ : Type} [ByteStream σ]

/-- The bytes of a message: the low 32 bits of its length, and its XML. -/
def frame (message : Plist) : Bytes :=
  beBytes 4 message.toXml.length ++ message.toXml

/-- Writes a message with its length prefix. -/
def send (message : Plist) : Action Error σ Unit :=
  ByteStream.write (frame message)

/-- Reads one length-prefixed property list. -/
def receive : Action Error σ Plist := do
  let lengthBytes ← ByteStream.readExact 4
  let length := beValue lengthBytes
  if length = 0 then
    Action.fail (protocolError "the service sent an empty plist")
  else do
    let body ← ByteStream.readExact length
    Action.lift (Plist.parse body)

/-- Sends messages one after the other. -/
def sendAll : List Plist → Action Error σ Unit
  | [] => return ()
  | message :: rest => do
      send message
      sendAll rest

/-- Receives messages one after the other. -/
def receiveAll : Nat → Action Error σ (List Plist)
  | 0 => return []
  | count + 1 => do
      let message ← receive
      let rest ← receiveAll count
      return message :: rest

/-! ## One message -/

/-- XML is not taken for a binary property list. -/
theorem parse_toXml (message : Plist) :
    Plist.parse message.toXml = Plist.parseXml message.toXml := by
  have hfirst : (message.toXml.take 8).head? = some 0x3c := rfl
  rw [Plist.parse, if_neg]
  rintro ⟨-, hheader⟩
  rw [hheader] at hfirst
  cases hfirst

theorem toXml_ne_nil (message : Plist) : message.toXml ≠ [] :=
  List.append_ne_nil_of_left_ne_nil
    (List.append_ne_nil_of_left_ne_nil (List.cons_ne_nil _ _) _) _

/-- The messages that the XML form holds whole and whose length the prefix
holds. -/
structure Sendable (message : Plist) : Prop where
  wellFormed : message.WellFormed
  leaves : message.AllLeaves Plist.IsText
  length : message.toXml.length < 2 ^ 32

theorem Sendable.parse_toXml {message : Plist} (h : Sendable message) :
    Plist.parse message.toXml = .ok message := by
  have hlength := Plist.length_toXml message
  rw [PlistService.parse_toXml, Plist.parseXml, Plist.toXml,
    Plist.parse_document h.wellFormed h.leaves (by rw [← Plist.toXml]; omega), ok_bind]

/-- A dictionary of values that the XML form holds. -/
theorem sendable_dictionary {entries : List (Bytes × Plist)}
    (hsorted : SortedMap.Sorted entries)
    (h : ∀ entry ∈ entries, entry.2.WellFormed ∧ entry.2.AllLeaves Plist.IsText)
    (hlength : (Plist.dictionary entries).toXml.length < 2 ^ 32) :
    Sendable (.dictionary entries) where
  wellFormed := Plist.wellFormed_dictionary.mpr ⟨hsorted, fun entry hmem =>
    (h entry hmem).1⟩
  leaves := Plist.allLeaves_dictionary.mpr ⟨fun _ _ => trivial, fun entry hmem =>
    (h entry hmem).2⟩
  length := hlength

theorem isText_string (text : Bytes) :
    (Plist.string text).WellFormed ∧ (Plist.string text).AllLeaves Plist.IsText :=
  ⟨.leaf trivial, .leaf trivial trivial⟩

/-- A message on the wire in any form that the parser reads: the length of its body,
which the prefix holds, and the body.  A device need not write a property list the
way the library does. -/
inductive Frames : Bytes → Plist → Prop
  | mk {body : Bytes} {message : Plist} (nonempty : body ≠ [])
      (length : body.length < 2 ^ 32) (parses : Plist.parse body = .ok message) :
      Frames (beBytes 4 body.length ++ body) message

/-- What the library writes is one such form. -/
theorem Sendable.frames {message : Plist} (h : Sendable message) :
    Frames (frame message) message :=
  .mk (toXml_ne_nil message) h.length
    h.parse_toXml

theorem run_send (message : Plist) (stream : MemoryByteStream) :
    (send message).run stream =
      (.ok (), { stream with written := stream.written ++ frame message }) :=
  MemoryByteStream.run_write _ _

/-- The message of a frame is received, in any form that the parser reads, and what
follows is left. -/
theorem run_receive {bytes : Bytes} {message : Plist} (h : Frames bytes message)
    (written rest : Bytes) :
    receive.run (⟨bytes ++ rest, written⟩ : MemoryByteStream) =
      (.ok message, ⟨rest, written⟩) := by
  obtain @⟨body, message, hnonempty, hlength, hparses⟩ := h
  have hpos := List.length_pos_iff.mpr hnonempty
  have hvalue : beValue (beBytes 4 body.length) = body.length :=
    beValue_beBytes_of_lt hlength
  have hprefix := MemoryByteStream.run_readExact_append
    (length_beBytes 4 body.length) (body ++ rest) written
  have hbody := MemoryByteStream.run_readExact_append
    (show body.length = _ from rfl) rest written
  rw [List.append_assoc]
  rw [receive, Action.run_bind_ok hprefix, hvalue, if_neg (by omega),
    Action.run_bind_ok hbody, Action.run_lift, hparses]

/-! ## Any number of messages -/

theorem run_sendAll (messages : List Plist) (stream : MemoryByteStream) :
    (sendAll messages).run stream =
      (.ok (), { stream with
        written := stream.written ++ (messages.map frame).flatten }) := by
  induction messages generalizing stream with
  | nil => simp [sendAll]
  | cons message rest ih =>
      rw [sendAll, Action.run_bind_ok (run_send message stream), ih]
      simp [List.append_assoc]

theorem run_receiveAll {messages : List Plist}
    (h : ∀ message ∈ messages, Sendable message) (written rest : Bytes) :
    (receiveAll messages.length).run ({
        incoming := (messages.map frame).flatten ++ rest
        written := written } : MemoryByteStream) =
      (.ok messages, {
        incoming := rest
        written := written }) := by
  induction messages with
  | nil => rfl
  | cons message messages ih =>
      obtain ⟨hmessage, hmessages⟩ := List.forall_mem_cons.mp h
      have hfirst := run_receive hmessage.frames written
        ((messages.map frame).flatten ++ rest)
      rw [List.map_cons, List.flatten_cons, List.append_assoc, List.length_cons,
        receiveAll, Action.run_bind_ok hfirst,
        Action.run_bind_ok (ih hmessages), Action.run_pure]

/-- What is sent is received: the messages of any list come out as they were, in their
order and with nothing left over, whatever was written before them. -/
theorem receiveAll_sendAll {messages : List Plist}
    (h : ∀ message ∈ messages, Sendable message)
    (sender receiver : MemoryByteStream) :
    ∃ sent, (sendAll messages).run sender =
        (.ok (), { sender with written := sender.written ++ sent }) ∧
      (receiveAll messages.length).run { receiver with incoming := sent } =
        (.ok messages, { receiver with incoming := [] }) := by
  have hreceive := run_receiveAll h receiver.written []
  rw [List.append_nil] at hreceive
  exact ⟨_, run_sendAll messages sender, hreceive⟩

theorem receiveAll_sendAll_twoMessages :
    ∃ sent, (sendAll [.array [.string (ascii "a&b"), .data [0]], .null]).run
        (⟨[], []⟩ : MemoryByteStream) = (.ok (), ⟨[], sent⟩) ∧
      (receiveAll 2).run (⟨sent, []⟩ : MemoryByteStream) =
        (.ok [.array [.string (ascii "a&b"), .data [0]], .null], ⟨[], []⟩) := by
  refine receiveAll_sendAll ?_ ⟨[], []⟩ ⟨[], []⟩
  intro message hmem
  simp only [List.mem_cons, List.not_mem_nil, or_false] at hmem
  rcases hmem with rfl | rfl
  · refine ⟨?_, ?_, by decide +kernel⟩
    · simp only [Plist.wellFormed_array, List.mem_cons, List.not_mem_nil,
        or_false, forall_eq_or_imp, forall_eq]
      exact ⟨.leaf trivial, .leaf trivial⟩
    · simp only [Plist.allLeaves_array, List.mem_cons, List.not_mem_nil,
        or_false, forall_eq_or_imp, forall_eq]
      exact ⟨.leaf trivial trivial, .leaf trivial trivial⟩
  · exact ⟨.leaf trivial, .leaf trivial trivial, by decide +kernel⟩

end Ioscpp.PlistService
