import Ioscpp.AfcTransfer

/-!
# Devices with a state

A device reads a request from its packet, and its answer and its next state depend
on its state and the request alone.  `Serves` holds of a client whose requests were
answered by such a device; an exchange is then one step of the device, as if it was
made without a stream.

## Main results

- `parseRequest_packet`: a device reads the request that the client sent.
- `Serves.transact`: an exchange is a step of the device, and its result is the
  verdict on the device's answer.
-/

namespace Ioscpp.Afc

open Ioscpp.Support
open Ioscpp.Support.Action

/-! ## Reading a request -/

/-- The request of a packet: `this_length` ends its header part. -/
def parseRequest (packet : Bytes) : Request where
  operation := word packet 32
  extra := (packet.take (word packet 16).toNat).drop kHeaderSize
  payload := packet.drop (word packet 16).toNat

/-- The lengths of a request that its header can hold. -/
def Request.Fits (request : Request) : Prop :=
  kHeaderSize + request.extra.length + request.payload.length < 2 ^ 64

theorem Request.packet_eq (request : Request) (number : UInt64) :
    ∃ front : Bytes, front.length = kHeaderSize ∧
      request.packet number = front ++ (request.extra ++ request.payload) := by
  refine ⟨kMagic ++ putLe64 (UInt64.ofNat
      (kHeaderSize + request.extra.length + request.payload.length)) ++
    putLe64 (UInt64.ofNat (kHeaderSize + request.extra.length)) ++
    putLe64 number ++ putLe64 request.operation, ?_, ?_⟩
  · simp [length_kMagic, kHeaderSize]
  · simp only [Request.packet, requestPacket, List.append_assoc]

/-- The length of the header part stands at offset 16. -/
theorem Request.this_packet {request : Request} (h : request.Fits)
    (number : UInt64) :
    (word (request.packet number) 16).toNat =
      kHeaderSize + request.extra.length := by
  have hword := @word_eq (UInt64.ofNat (kHeaderSize + request.extra.length)).toNat 16
    (request.packet number)
    (kMagic ++ putLe64 (UInt64.ofNat
      (kHeaderSize + request.extra.length + request.payload.length)))
    (putLe64 number ++ putLe64 request.operation ++ request.extra ++ request.payload)
    (by simp only [Request.packet, requestPacket, putLe64, List.append_assoc])
    (by simp [length_kMagic])
  unfold Request.Fits at h
  rw [hword, UInt64.ofNat_toNat, UInt64.toNat_ofNat', Nat.mod_eq_of_lt (by omega)]

/-- A device reads the request that was sent: the operation, the bytes of the header
part and the payload, wherever the client put the border between them. -/
theorem parseRequest_packet {request : Request} (h : request.Fits)
    (number : UInt64) : parseRequest (request.packet number) = request := by
  obtain ⟨front, hlength, hpacket⟩ := request.packet_eq number
  have hsize : (front ++ request.extra).length =
      kHeaderSize + request.extra.length := by
    rw [List.length_append, hlength]
  have hextra : ((request.packet number).take
      (kHeaderSize + request.extra.length)).drop kHeaderSize = request.extra := by
    rw [hpacket, ← List.append_assoc, List.take_left' hsize, List.drop_left' hlength]
  have hpayload : (request.packet number).drop
      (kHeaderSize + request.extra.length) = request.payload := by
    rw [hpacket, ← List.append_assoc, List.drop_left' hsize]
  rw [parseRequest, Request.this_packet h, Request.word_packet, hextra, hpayload]

/-! ## Devices -/

/-- What a device does with a request: its answer, and its next state. -/
abbrev Device (δ : Type) := δ → Request → Reply × δ

namespace Device

variable {δ : Type} (device : Device δ)

/-- The state after requests. -/
def after (start : δ) (requests : List Request) : δ :=
  requests.foldl (fun state request => (device state request).2) start

/-- The answer to the last packet that was sent. -/
def answers (start : δ) (history : List Bytes) : Reply :=
  (device (device.after start (history.dropLast.map parseRequest))
    (parseRequest (history.getLast?.getD []))).1

theorem after_append (start : δ) (requests : List Request) (request : Request) :
    device.after start (requests ++ [request]) =
      (device (device.after start requests) request).2 := by
  rw [after, List.foldl_append]
  rfl

theorem map_parseRequest_wire {requests : List Request}
    (h : ∀ request ∈ requests, request.Fits) :
    (wire requests).map parseRequest = requests := by
  refine List.ext_getElem (by simp [wire]) fun i hi hi' => ?_
  simp only [wire, List.getElem_map, List.getElem_mapIdx]
  exact parseRequest_packet (h _ (List.getElem_mem _)) _

/-- The answer to a request that follows others is the device's next step. -/
theorem answers_wire (start : δ) {requests : List Request} {request : Request}
    (h : ∀ request ∈ requests, request.Fits) (hrequest : request.Fits) :
    device.answers start (wire (requests ++ [request])) =
      (device (device.after start requests) request).1 := by
  rw [answers, wire_append, List.dropLast_concat, List.getLast?_concat,
    Option.getD_some, map_parseRequest_wire h, parseRequest_packet hrequest]

end Device

/-! ## Clients of a device -/

section Served

variable {δ : Type} {device : Device δ} {start now : δ}

/-- The client's requests brought the device from `start` to `now`. -/
def Serves (device : Device δ) (start now : δ) (client : AfcLink × Afc) : Prop :=
  ∃ requests, Sent (device.answers start) requests client ∧
    (∀ request ∈ requests, request.Fits) ∧ device.after start requests = now

theorem serves_connected (device : Device δ) (start : δ) :
    Serves device start start (connected (device.answers start)) :=
  ⟨[], sent_connected _, by simp, rfl⟩

/-- An exchange is a step of the device: the device is in the state that the request
leaves, and the client returns the verdict on the device's answer. -/
theorem Serves.transact {client : AfcLink × Afc} (h : Serves device start now client)
    {request : Request} (hrequest : request.Fits) :
    ∃ next, (Afc.transact request.operation request.extra request.payload).run
        client = (checkAnswer (device now request).1.packet, next) ∧
      Serves device start (device now request).2 next := by
  obtain ⟨requests, hsent, hfits, rfl⟩ := h
  obtain ⟨next, hrun, hnext⟩ := hsent.transact request
  rw [replyTo, device.answers_wire start hfits hrequest] at hrun
  refine ⟨next, hrun, requests ++ [request], hnext, ?_, device.after_append _ _ _⟩
  intro other hmem
  rcases List.mem_append.mp hmem with hmem | hmem
  · exact hfits other hmem
  · rw [List.mem_singleton.mp hmem]
    exact hrequest

/-- An exchange whose answer is accepted. -/
theorem triple_transact_served {request : Request} (hrequest : request.Fits)
    {packet : Packet}
    (h : checkAnswer (device now request).1.packet = .ok packet) :
    Triple (Serves device start now)
      (transact request.operation request.extra request.payload)
      (fun a client => a = packet ∧
        Serves device start (device now request).2 client)
      (fun _ _ => False) := by
  intro client hclient
  obtain ⟨next, hrun, hnext⟩ := hclient.transact hrequest
  rw [hrun, h]
  exact ⟨rfl, hnext⟩

/-- An exchange that is refused. -/
theorem Serves.refused {client : AfcLink × Afc} (h : Serves device start now client)
    {request : Request} (hrequest : request.Fits) {fault : Fault Error}
    (hanswer : checkAnswer (device now request).1.packet = .error fault) :
    ∃ next, (Afc.transact request.operation request.extra request.payload).run
        client = (.error fault, next) ∧
      Serves device start (device now request).2 next := by
  obtain ⟨next, hrun, hnext⟩ := h.transact hrequest
  rw [hanswer] at hrun
  exact ⟨next, hrun, hnext⟩

end Served

end Ioscpp.Afc
