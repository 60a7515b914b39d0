import Ioscpp.DtxConnectionHeader

/-!
# The sizes in a DTX frame

A frame says its sizes in four fields: the header size and the message length in
the header, and the auxiliary and total sizes in the payload header; an auxiliary
dictionary also has a length of its own.  `Dtx.parse` follows that length and
does not compare it with the auxiliary size.  `DtxConnection.receive` sizes the
frame by the first two fields, of which it bounds the second.

## Main results

- `parts_of_accepted`: what a frame that is accepted holds, by its fields.
- `parse_sized_iff`: when its auxiliary dictionary has the length that its size says.
- `receive_small_iff`: when the buffer of `receive` stays within the bound.
-/

namespace Ioscpp

open Ioscpp.Support
open Ioscpp.Support.Reading
open Ioscpp.Protocol
open Ioscpp.Protocol.Dtx

/-! ## What an accepted frame consumes -/

section Consumed

variable {bytes : Bytes} {reader last : Cursor}

/-- The two sizes of a payload header, and its end. -/
theorem parsePayloadHeader_eq_ok {sizes : Nat × Nat × Nat}
    (h : parsePayloadHeader ⟨bytes, 0⟩ = .ok (sizes, last)) :
    sizes.2.1 = leValue ((bytes.drop 4).take 4) ∧
      sizes.2.2 = leValue ((bytes.drop 8).take 4) ∧ last = ⟨bytes, 16⟩ := by
  unfold parsePayloadHeader at h
  rw [bind_apply] at h
  obtain ⟨⟨messageType, c1⟩, htype, h⟩ := bind_eq_ok.mp h
  obtain ⟨-, -, rfl⟩ := word_eq_ok (by decide) htype
  rw [bind_apply] at h
  obtain ⟨⟨flags, c2⟩, hflags, h⟩ := bind_eq_ok.mp h
  obtain ⟨-, -, rfl⟩ := take_eq_ok hflags
  rw [bind_apply] at h
  obtain ⟨⟨auxiliarySize, c3⟩, hauxiliary, h⟩ := bind_eq_ok.mp h
  obtain ⟨-, rfl, rfl⟩ := word_eq_ok (by decide) hauxiliary
  rw [bind_apply] at h
  obtain ⟨⟨totalSize, c4⟩, htotal, h⟩ := bind_eq_ok.mp h
  obtain ⟨-, rfl, rfl⟩ := word_eq_ok (by decide) htotal
  rw [bind_apply] at h
  obtain ⟨⟨reserved, c5⟩, hreserved, h⟩ := bind_eq_ok.mp h
  obtain ⟨-, -, rfl⟩ := take_eq_ok hreserved
  cases h
  exact ⟨rfl, rfl, rfl⟩

/-- An auxiliary dictionary ends where its own length says. -/
theorem decodeAuxiliary_eq_ok {offset : Nat} {auxiliary : List DtxValue}
    (h : decodeAuxiliary ⟨bytes, offset⟩ = .ok (auxiliary, last)) :
    last = ⟨bytes, offset + (kDtxAuxiliaryHeaderSize +
      leValue ((bytes.drop (offset + 8)).take 8))⟩ := by
  unfold decodeAuxiliary at h
  rw [bind_apply] at h
  obtain ⟨⟨magic, c1⟩, hmagic, h⟩ := bind_eq_ok.mp h
  obtain ⟨-, -, rfl⟩ := word_eq_ok (by decide) hmagic
  dsimp only at h
  split at h
  · cases h
  rw [bind_apply] at h
  obtain ⟨⟨reserved, c2⟩, hreserved, h⟩ := bind_eq_ok.mp h
  obtain ⟨-, -, rfl⟩ := take_eq_ok hreserved
  rw [bind_apply] at h
  obtain ⟨⟨bodyLength, c3⟩, hlength, h⟩ := bind_eq_ok.mp h
  obtain ⟨-, rfl, rfl⟩ := word_eq_ok (by decide) hlength
  rw [bind_apply] at h
  obtain ⟨⟨body, c4⟩, hbody, h⟩ := bind_eq_ok.mp h
  obtain ⟨-, -, rfl⟩ := take_eq_ok hbody
  dsimp only [lift] at h
  obtain ⟨entries, -, h⟩ := bind_eq_ok.mp h
  cases h
  have hoffset : offset + 4 + 4 = offset + 8 := rfl
  simp only [hoffset, kDtxAuxiliaryHeaderSize]
  congr 1
  omega

/-- The auxiliary dictionary of a payload, if its size is not zero. -/
def auxiliaryStep (auxiliarySize : Nat) : Reading Error (List DtxValue) :=
  if 0 < auxiliarySize then decodeAuxiliary else pure []

/-- The parts of a payload that is accepted. -/
theorem parsePayload_eq_ok {messageLength : Nat}
    {parts : DtxMessageType × List DtxValue × Bytes}
    (h : parsePayload messageLength ⟨bytes, 0⟩ = .ok (parts, last)) :
    ∃ auxiliarySize totalSize offset,
      auxiliarySize = leValue ((bytes.drop 4).take 4) ∧
      totalSize = leValue ((bytes.drop 8).take 4) ∧
      auxiliarySize ≤ totalSize ∧
      messageLength = kDtxPayloadHeaderSize + totalSize ∧
      auxiliaryStep auxiliarySize ⟨bytes, 16⟩ =
        .ok (parts.2.1, ⟨bytes, offset⟩) ∧
      parts.2.2 = (bytes.drop offset).take (totalSize - auxiliarySize) ∧
      last.offset = offset + (totalSize - auxiliarySize) := by
  unfold parsePayload at h
  rw [bind_apply] at h
  obtain ⟨⟨⟨messageType, auxiliarySize, totalSize⟩, middle⟩, hsizes, h⟩ :=
    bind_eq_ok.mp h
  obtain ⟨hauxiliary, htotal, rfl⟩ := parsePayloadHeader_eq_ok hsizes
  dsimp only at h hauxiliary htotal
  split at h
  · cases h
  rename_i hle
  split at h
  · cases h
  rename_i hlength
  have hjoined : (auxiliaryStep auxiliarySize >>= fun auxiliary => do
      let payload ← take truncated (totalSize - auxiliarySize)
      pure ((⟨UInt32.ofNat messageType⟩ : DtxMessageType), auxiliary, payload))
      ⟨bytes, 16⟩ = .ok (parts, last) := by
    rw [← h]
    unfold auxiliaryStep
    by_cases hpos : 0 < auxiliarySize
    · rw [if_pos hpos, if_pos hpos]
    · rw [if_neg hpos, if_neg hpos]
  rw [bind_apply] at hjoined
  obtain ⟨⟨auxiliary, end'⟩, hstep, hjoined⟩ := bind_eq_ok.mp hjoined
  rw [bind_apply] at hjoined
  obtain ⟨⟨payload, final⟩, hpayload, hjoined⟩ := bind_eq_ok.mp hjoined
  obtain ⟨-, rfl, rfl⟩ := take_eq_ok hpayload
  cases hjoined
  have hbytes : end'.bytes = bytes := by
    unfold auxiliaryStep at hstep
    by_cases hpos : 0 < auxiliarySize
    · rw [if_pos hpos] at hstep
      rw [decodeAuxiliary_eq_ok hstep]
    · rw [if_neg hpos] at hstep
      cases hstep
      rfl
  obtain ⟨endBytes, offset⟩ := end'
  obtain rfl : endBytes = bytes := hbytes
  exact ⟨auxiliarySize, totalSize, offset, hauxiliary, htotal,
    Nat.not_lt.mp hle, not_not.mp hlength, hstep, rfl, rfl⟩

end Consumed

/-! ## The fields of a frame -/

/-- The bytes after the header. -/
def frameBody (bytes : Bytes) : Bytes := bytes.drop (headerSizeField bytes)

/-- The message length, where `parse` reads it. -/
def messageLengthField (bytes : Bytes) : Nat :=
  (headerFields (movedHeader bytes)).messageLength

def auxiliarySizeField (bytes : Bytes) : Nat :=
  leValue (((frameBody bytes).drop 4).take 4)

def totalSizeField (bytes : Bytes) : Nat :=
  leValue (((frameBody bytes).drop 8).take 4)

/-- The auxiliary dictionary's own length, behind its magic and a reserved
word. -/
def auxiliaryBodyLength (bytes : Bytes) : Nat :=
  leValue (((frameBody bytes).drop 24).take 8)

/-- The frame is as long as its header says, the auxiliary dictionary takes the
bytes of its size after the payload header, and the payload is the rest. -/
structure SizedAsSaid (bytes : Bytes) (message : Dtx) : Prop where
  length : bytes.length = headerSizeField bytes + messageLengthField bytes
  auxiliary : auxiliaryStep (auxiliarySizeField bytes)
    ⟨frameBody bytes, kDtxPayloadHeaderSize⟩ = .ok (message.auxiliary,
      ⟨frameBody bytes, kDtxPayloadHeaderSize + auxiliarySizeField bytes⟩)
  fits : totalSizeField bytes - auxiliarySizeField bytes ≤ bytes.length
  payload : message.payload = bytes.drop
    (bytes.length - (totalSizeField bytes - auxiliarySizeField bytes))

/-- The auxiliary dictionary's own length is the one its size says: the payload header's
auxiliary size is zero, or counts the dictionary's header and its body. -/
def AuxiliaryFills (bytes : Bytes) : Prop :=
  auxiliarySizeField bytes = 0 ∨
    kDtxAuxiliaryHeaderSize + auxiliaryBodyLength bytes = auxiliarySizeField bytes

instance (bytes : Bytes) : Decidable (AuxiliaryFills bytes) :=
  inferInstanceAs (Decidable (_ ∨ _))

/-- What an accepted frame holds, by its fields: the auxiliary dictionary up to some
offset of its body, and the payload from there to the end. -/
theorem parts_of_accepted {bytes : Bytes} {message : Dtx}
    (h : Dtx.parse bytes = .ok message) :
    ∃ offset, auxiliarySizeField bytes ≤ totalSizeField bytes ∧
      messageLengthField bytes = kDtxPayloadHeaderSize + totalSizeField bytes ∧
      auxiliaryStep (auxiliarySizeField bytes)
        ⟨frameBody bytes, kDtxPayloadHeaderSize⟩ =
          .ok (message.auxiliary, ⟨frameBody bytes, offset⟩) ∧
      message.payload = ((frameBody bytes).drop offset).take
        (totalSizeField bytes - auxiliarySizeField bytes) ∧
      (frameBody bytes).length =
        offset + (totalSizeField bytes - auxiliarySizeField bytes) ∧
      bytes.length = headerSizeField bytes + (frameBody bytes).length := by
  obtain ⟨-, -, hheader, hafter⟩ := DtxConnection.parts_of_parse h
  obtain ⟨-, parts, last, hpayload, hend, hmessage⟩ :=
    parsePayload_of_parseAfterHeader hafter
  obtain ⟨auxiliarySize, totalSize, offset, hauxiliary, htotal, hle, hlength,
    hstep, hrest, hlast⟩ := parsePayload_eq_ok hpayload
  have hauxiliaryField : auxiliarySizeField bytes = auxiliarySize :=
    hauxiliary.symm
  have htotalField : totalSizeField bytes = totalSize := htotal.symm
  have hbody : (frameBody bytes).length = offset + (totalSize - auxiliarySize) :=
    hend.symm.trans hlast
  have hbytes : bytes.length = headerSizeField bytes + (frameBody bytes).length := by
    unfold frameBody
    rw [List.length_drop]
    omega
  have hauxiliaryOf : message.auxiliary = parts.2.1 := by rw [hmessage]
  have hpayloadOf : message.payload = parts.2.2 := by rw [hmessage]
  rw [hauxiliaryField, htotalField, hauxiliaryOf, hpayloadOf]
  exact ⟨offset, hle, hlength, hstep, hrest, hbody, hbytes⟩

/-- The dictionary ends where its own length says. -/
theorem auxiliaryFills_iff {bytes : Bytes} {auxiliary : List DtxValue} {offset : Nat}
    (h : auxiliaryStep (auxiliarySizeField bytes)
      ⟨frameBody bytes, kDtxPayloadHeaderSize⟩ =
        .ok (auxiliary, ⟨frameBody bytes, offset⟩)) :
    AuxiliaryFills bytes ↔
      offset = kDtxPayloadHeaderSize + auxiliarySizeField bytes := by
  unfold AuxiliaryFills
  unfold auxiliaryStep at h
  by_cases hpos : 0 < auxiliarySizeField bytes
  · rw [if_pos hpos] at h
    have hoffset : offset = kDtxPayloadHeaderSize +
        (kDtxAuxiliaryHeaderSize + auxiliaryBodyLength bytes) :=
      congrArg Cursor.offset (decodeAuxiliary_eq_ok h)
    omega
  · rw [if_neg hpos] at h
    have hoffset : offset = kDtxPayloadHeaderSize :=
      (congrArg (fun read => read.2.offset) (Except.ok.inj h)).symm
    omega

/-- A frame that is accepted has the sizes that its fields say exactly when its
auxiliary dictionary has the length that the auxiliary size says, or that size is zero:
the other three fields are compared with the bytes there are. -/
theorem parse_sized_iff {bytes : Bytes} {message : Dtx}
    (h : Dtx.parse bytes = .ok message) :
    SizedAsSaid bytes message ↔ AuxiliaryFills bytes := by
  obtain ⟨offset, hle, hlength, hstep, hpayload, hbody, hbytes⟩ := parts_of_accepted h
  rw [auxiliaryFills_iff hstep]
  constructor
  · intro hsized
    have hsame := hstep.symm.trans hsized.auxiliary
    exact congrArg Cursor.offset (Prod.mk.inj (Except.ok.inj hsame)).2
  · intro hends
    constructor
    · rw [hlength]
      omega
    · rw [← hends]
      exact hstep
    · omega
    · have hstart : bytes.length - (totalSizeField bytes - auxiliarySizeField bytes) =
          headerSizeField bytes + offset := by omega
      have hall : ((frameBody bytes).drop offset).length ≤
          totalSizeField bytes - auxiliarySizeField bytes := by
        rw [List.length_drop]
        omega
      rw [hpayload, hstart, ← List.drop_drop]
      exact List.take_of_length_le hall

/-- A frame with this auxiliary size whose dictionary has no entries. -/
private def emptyDictionary (auxiliarySize : Nat) : Bytes :=
  leBytes 4 kDtxMagic ++ leBytes 4 32 ++ leBytes 2 0 ++ leBytes 2 1 ++
    leBytes 4 (16 + auxiliarySize) ++ List.replicate 16 0 ++
    (leBytes 4 0 ++ leBytes 4 auxiliarySize ++ leBytes 4 auxiliarySize ++
      leBytes 4 0) ++
    (leBytes 4 kDtxAuxiliaryMagic ++ leBytes 4 0 ++ leBytes 8 0)

theorem parse_sized_iff_emptyDictionary :
    SizedAsSaid (emptyDictionary 16) {} ↔ AuxiliaryFills (emptyDictionary 16) :=
  parse_sized_iff (by decide +kernel)

/-- An auxiliary size of 20 for a dictionary of 16 bytes: the frame is accepted,
four bytes shorter than its header says. -/
theorem not_parse_sized_emptyDictionary :
    Dtx.parse (emptyDictionary 20) = .ok {} ∧
      (emptyDictionary 20).length = 64 ∧
      headerSizeField (emptyDictionary 20) +
        messageLengthField (emptyDictionary 20) = 68 := by
  refine ⟨?_, ?_, ?_⟩
  · decide +kernel
  · decide +kernel
  · decide +kernel

/-! ## The size of the frame that is assembled -/

namespace DtxConnection

/-- The size of the buffer that `receive` makes for the frame, a sum of two
`std::size_t`. -/
def allocatedSize (header : Bytes) : Result Nat := do
  let (headerSize, messageLength) ← frameSizes header
  return (headerSize + messageLength) % 2 ^ 64

/-- Four bytes that are read give a number of 32 bits. -/
theorem lt_of_readLe {bytes : Bytes} {offset value : Nat}
    (h : (readLe bytes offset 4 : Result Nat) = .ok value) : value < 2 ^ 32 := by
  rw [readLe_eq (le_of_readLe (by decide) h)] at h
  cases h
  apply (leValue_lt _).trans_le
  exact Nat.pow_le_pow_right (by decide) (List.length_take_le 4 _)

/-- The sum does not wrap. -/
theorem allocatedSize_of_frameSizes {header : Bytes} {headerSize messageLength : Nat}
    (h : frameSizes header = .ok (headerSize, messageLength)) :
    headerSize < 2 ^ 32 ∧ messageLength ≤ kDtxMaxMessageSize ∧
      allocatedSize header = .ok (headerSize + messageLength) := by
  have hsizes := h
  unfold frameSizes at h
  obtain ⟨magic, -, h⟩ := bind_eq_ok.mp h
  obtain ⟨size, hsize, h⟩ := bind_eq_ok.mp h
  obtain ⟨length, -, h⟩ := bind_eq_ok.mp h
  split at h
  · cases h
  split at h
  · cases h
  split at h
  · cases h
  rename_i hmax
  cases h
  have hlt := lt_of_readLe hsize
  have hle : messageLength ≤ kDtxMaxMessageSize := Nat.not_lt.mp hmax
  refine ⟨hlt, hle, ?_⟩
  have hbound : kDtxMaxMessageSize < 2 ^ 32 := by decide
  unfold allocatedSize
  rw [hsizes, ok_bind]
  show Except.ok _ = _
  rw [Nat.mod_eq_of_lt (by omega)]

variable {σ : Type} [ByteStream σ]

/-- The part of `receive` that reads the rest of the frame into a buffer of this
size. -/
def fillFrame (header : Bytes) (size : Nat) :
    Action Error (DtxConnection σ) Dtx := do
  let rest ←
    if kDtxHeaderSize < size then
      onStream (ByteStream.readExact (size - kDtxHeaderSize))
    else pure []
  let message ← Action.lift (Dtx.parse (header ++ rest))
  if message.expectsReply then do
    send (Dtx.ack message)
    return message
  else
    return message

theorem receive_eq : (receive : Action Error (DtxConnection σ) Dtx) =
    (onStream (ByteStream.readExact kDtxHeaderSize) >>= fun header =>
      Action.lift (allocatedSize header) >>= fillFrame header) := by
  unfold receive
  congr 1
  funext header
  rcases hsizes : frameSizes header with fault | ⟨headerSize, messageLength⟩
  · unfold allocatedSize
    rw [hsizes]
    rfl
  · rw [(allocatedSize_of_frameSizes hsizes).2.2]
    rfl

/-- The checks end in an error, or the buffer is no larger than a header and the
largest message. -/
def StaysSmall (header : Bytes) : Prop :=
  (∃ e, allocatedSize header = .error (.error e)) ∨
    ∃ headerSize messageLength,
      frameSizes header = .ok (headerSize, messageLength) ∧
        allocatedSize header = .ok (headerSize + messageLength) ∧
        headerSize + messageLength ≤ kDtxHeaderSize + kDtxMaxMessageSize

/-- What the header size adds to the fixed header leaves room for the message, if
the other checks pass. -/
def LeavesRoom (header : Bytes) : Prop :=
  leValue (header.take 4) = kDtxMagic →
    leValue ((header.drop 12).take 4) ≤ kDtxMaxMessageSize →
      headerSizeField header - kDtxHeaderSize ≤
        kDtxMaxMessageSize - leValue ((header.drop 12).take 4)

/-- For a header of its size: the buffer stays within the bound exactly when the
header size leaves room for the message. -/
theorem staysSmall_iff {header : Bytes} (h : header.length = kDtxHeaderSize) :
    StaysSmall header ↔ LeavesRoom header := by
  have h32 : header.length = 32 := h
  have hmagic : (readLe header 0 4 : Result Nat) = .ok (leValue (header.take 4)) :=
    readLe_eq (by omega)
  have hsize : (readLe header 4 4 : Result Nat) = .ok (headerSizeField header) :=
    readLe_eq (by omega)
  have hlength : (readLe header 12 4 : Result Nat) =
      .ok (leValue ((header.drop 12).take 4)) := readLe_eq (by omega)
  generalize hm : leValue (header.take 4) = magic at *
  generalize hl : leValue ((header.drop 12).take 4) = messageLength at *
  have hframe : frameSizes header =
      if magic ≠ kDtxMagic then
        .error (.error (protocolError "the DTX message has a bad magic"))
      else if headerSizeField header < kDtxHeaderSize then
        .error (.error (protocolError "the DTX message header is too short"))
      else if kDtxMaxMessageSize < messageLength then
        .error (.error (protocolError "the DTX message is too large"))
      else .ok (headerSizeField header, messageLength) := by
    unfold frameSizes
    rw [hmagic, ok_bind, hsize, ok_bind, hlength, ok_bind]
  have hrefused {e : Error} (hrun : frameSizes header = .error (.error e)) :
      StaysSmall header := by
    left
    refine ⟨e, ?_⟩
    unfold allocatedSize
    rw [hrun]
    rfl
  unfold LeavesRoom
  rw [hm, hl]
  by_cases hbad : magic ≠ kDtxMagic
  · rw [if_pos hbad] at hframe
    exact iff_of_true (hrefused hframe) fun heq => absurd heq hbad
  rw [if_neg hbad] at hframe
  by_cases hshort : headerSizeField header < kDtxHeaderSize
  · rw [if_pos hshort] at hframe
    exact iff_of_true (hrefused hframe) fun _ _ => by omega
  rw [if_neg hshort] at hframe
  by_cases hlarge : kDtxMaxMessageSize < messageLength
  · rw [if_pos hlarge] at hframe
    exact iff_of_true (hrefused hframe) fun _ hle => absurd hlarge (Nat.not_lt.mpr hle)
  rw [if_neg hlarge] at hframe
  obtain ⟨-, -, hallocated⟩ := allocatedSize_of_frameSizes hframe
  constructor
  · rintro (⟨e, he⟩ | ⟨headerSize, length, hsizes, -, hle⟩) _ _
    · rw [hallocated] at he
      cases he
    · rw [hframe] at hsizes
      cases hsizes
      omega
  · intro hroom
    have hfits := hroom (not_not.mp hbad) (Nat.not_lt.mp hlarge)
    right
    exact ⟨_, _, hframe, hallocated, by omega⟩

/-- `receive` reads a header and fills a buffer of its allocated size. For every header
the checks refuse it or the buffer stays within the bound, exactly when the header size
leaves room for the message, which nothing checks. -/
theorem receive_small_iff {header : Bytes} (h : header.length = kDtxHeaderSize) :
    (receive : Action Error (DtxConnection σ) Dtx) =
        (onStream (ByteStream.readExact kDtxHeaderSize) >>= fun header =>
          Action.lift (allocatedSize header) >>= fillFrame header) ∧
      (StaysSmall header ↔ LeavesRoom header) :=
  ⟨receive_eq, staysSmall_iff h⟩

/-- A header that claims to be this long, with no message. -/
private def claimingHeader (headerSize : Nat) : Bytes :=
  leBytes 4 kDtxMagic ++ leBytes 4 headerSize ++ List.replicate 24 0

theorem receive_small_iff_claimingHeader :
    (receive : Action Error (DtxConnection MemoryByteStream) Dtx) =
        (onStream (ByteStream.readExact kDtxHeaderSize) >>= fun header =>
          Action.lift (allocatedSize header) >>= fillFrame header) ∧
      (StaysSmall (claimingHeader 32) ↔ LeavesRoom (claimingHeader 32)) :=
  receive_small_iff (by decide +kernel)

/-- A header that claims to be of 2 ^ 32 - 1 bytes has a buffer of this size made
for it. -/
theorem not_receive_small_claimingHeader :
    (claimingHeader (2 ^ 32 - 1)).length = kDtxHeaderSize ∧
      allocatedSize (claimingHeader (2 ^ 32 - 1)) = .ok (2 ^ 32 - 1) ∧
      kDtxHeaderSize + kDtxMaxMessageSize < 2 ^ 32 - 1 := by
  refine ⟨?_, ?_, ?_⟩
  · decide +kernel
  · decide +kernel
  · decide

end DtxConnection

end Ioscpp
