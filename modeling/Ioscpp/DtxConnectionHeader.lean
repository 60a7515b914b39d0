import Ioscpp.DtxConnection
import Ioscpp.Protocol.DtxFrame

/-!
# Headers longer than 32 bytes

`Dtx.parse` skips the bytes that a longer header announces right after the
header size, so it reads the remaining fields in the last 24 bytes of the
header.  `DtxConnection.receive` reads the message length at its offset in a
header of 32 bytes.  This file says when the two readings agree.

## Main results

- `split_longHeader`: a longer header is what `parse` skips of it and what it reads.
- `headerFields_of_take`: two readings of one stream give the same message only when
  they read the same bytes.
- `receive_longFrame_iff`: when `receive` gives back the message of a frame with a
  longer header.
-/

namespace Ioscpp

open Ioscpp.Support
open Ioscpp.Support.Reading
open Ioscpp.Protocol
open Ioscpp.Protocol.Dtx

/-- The header size a frame gives. -/
def headerSizeField (bytes : Bytes) : Nat := leValue ((bytes.drop 4).take 4)

/-- The 24 bytes after the header size, where `receive` reads. -/
def fixedHeader (bytes : Bytes) : Bytes := (bytes.drop 8).take 24

/-- The last 24 bytes of a header, where `parse` reads. -/
def movedHeader (bytes : Bytes) : Bytes :=
  (bytes.drop (headerSizeField bytes - 24)).take 24

/-- The frame of `bytes` with a longer header: its first 32 bytes with the size
field set to `headerSize`, the extension, and what followed its header. -/
def longFrame (bytes : Bytes) (headerSize : Nat) (extension : Bytes) : Bytes :=
  bytes.take 4 ++ leBytes 4 headerSize ++ fixedHeader bytes ++ extension ++
    bytes.drop (headerSizeField bytes)

/-! ## What the parse of a frame determines -/

private theorem ofNat16_inj {a b : Nat} (ha : a < 256 ^ 2) (hb : b < 256 ^ 2)
    (h : UInt16.ofNat a = UInt16.ofNat b) : a = b := by
  have hnat := congrArg UInt16.toNat h
  simp only [UInt16.toNat_ofNat'] at hnat
  omega

private theorem ofNat32_inj {a b : Nat} (ha : a < 256 ^ 4) (hb : b < 256 ^ 4)
    (h : UInt32.ofNat a = UInt32.ofNat b) : a = b := by
  have hnat := congrArg UInt32.toNat h
  simp only [UInt32.toNat_ofNat'] at hnat
  omega

private theorem leValue_take_lt (bytes : Bytes) (n : Nat) :
    leValue (bytes.take n) < 256 ^ n :=
  (leValue_lt _).trans_le
    (Nat.pow_le_pow_right (by decide) (List.length_take_le n bytes))

/-- The fields are those of the message but for the length, which a message
does not keep. -/
theorem headerFields_inj {left right : Bytes}
    (h : (headerFields left).message = (headerFields right).message)
    (hlength : (headerFields left).messageLength =
      (headerFields right).messageLength) :
    headerFields left = headerFields right := by
  simp only [HeaderFields.message, headerFields, Dtx.mk.injEq] at h
  obtain ⟨hindex, hcount, hident, hconv, hchan, hreply, -⟩ := h
  have hchan' := congrArg Int32.toUInt32 hchan
  simp only [UInt32.toUInt32_toInt32] at hchan'
  simp only [headerFields, HeaderFields.mk.injEq] at hlength ⊢
  exact ⟨ofNat16_inj (leValue_take_lt _ _) (leValue_take_lt _ _) hindex,
    ofNat16_inj (leValue_take_lt _ _) (leValue_take_lt _ _) hcount, hlength,
    ofNat32_inj (leValue_take_lt _ _) (leValue_take_lt _ _) hident,
    ofNat32_inj (leValue_take_lt _ _) (leValue_take_lt _ _) hconv,
    ofNat32_inj (leValue_take_lt _ _) (leValue_take_lt _ _) hchan', hreply⟩

/-- Of two payloads of which one is the start of the other, at most one is
consumed whole, and the length each accepts is the same. -/
theorem eq_of_parsePayload {lengthA lengthB : Nat} {bytes more : Bytes}
    {x y : DtxMessageType × List DtxValue × Bytes} {readerA readerB : Cursor}
    (hA : parsePayload lengthA ⟨bytes, 0⟩ = .ok (x, readerA))
    (hendA : readerA.offset = bytes.length)
    (hB : parsePayload lengthB ⟨bytes ++ more, 0⟩ = .ok (y, readerB))
    (hendB : readerB.offset = (bytes ++ more).length) :
    lengthA = lengthB ∧ more = [] := by
  obtain ⟨sizesA, middleA, hsizesA, hlenA⟩ := messageLength_of_parsePayload hA
  obtain ⟨sizesB, middleB, hsizesB, hlenB⟩ := messageLength_of_parsePayload hB
  have hext := stable_parsePayloadHeader.extend _ more _ _ _ hsizesA
  rw [hext] at hsizesB
  cases hsizesB
  have hlength : lengthA = lengthB := by rw [hlenA, hlenB]
  subst hlength
  exact ⟨rfl, (stable_parsePayload _).eq_of_append hA hendA hB hendB⟩

/-- What a successful outcome says of the payload. -/
theorem parsePayload_of_parseAfterHeader {fields : HeaderFields} {rest : Bytes}
    {message : Dtx} (h : parseAfterHeader fields rest = .ok message) :
    fields.messageLength ≤ kDtxMaxMessageSize ∧ ∃ payload reader,
      parsePayload fields.messageLength ⟨rest, 0⟩ = .ok (payload, reader) ∧
      reader.offset = rest.length ∧
      message = { fields.message with
        messageType := payload.1, auxiliary := payload.2.1,
        payload := payload.2.2 } := by
  rw [parseAfterHeader] at h
  split at h
  · cases h
  split at h
  · cases h
  rename_i hsmall
  refine ⟨Nat.not_lt.mp hsmall, ?_⟩
  obtain ⟨⟨payload, reader⟩, hpayload, h⟩ := bind_eq_ok.mp h
  simp only at h
  split at h
  · cases h
  rename_i hend
  cases h
  exact ⟨payload, reader, hpayload, not_not.mp hend, rfl⟩

/-- Two frames of which one's payload is the start of the other's and that both
give `message` have the same fields and the same payload. -/
theorem headerFields_of_parseAfterHeader {left right bytes more : Bytes}
    {message : Dtx}
    (hleft : parseAfterHeader (headerFields left) bytes = .ok message)
    (hright : parseAfterHeader (headerFields right) (bytes ++ more) =
      .ok message) :
    headerFields left = headerFields right ∧ more = [] := by
  obtain ⟨-, payloadL, readerL, hparseL, hendL, hmessageL⟩ :=
    parsePayload_of_parseAfterHeader hleft
  obtain ⟨-, payloadR, readerR, hparseR, hendR, hmessageR⟩ :=
    parsePayload_of_parseAfterHeader hright
  obtain ⟨hlength, hmore⟩ := eq_of_parsePayload hparseL hendL hparseR hendR
  refine ⟨headerFields_inj ?_ hlength, hmore⟩
  rw [hmessageL] at hmessageR
  simp only [HeaderFields.message, Dtx.mk.injEq] at hmessageR ⊢
  obtain ⟨hindex, hcount, hident, hconv, hchan, hreply, -⟩ := hmessageR
  exact ⟨hindex, hcount, hident, hconv, hchan, hreply, trivial, trivial,
    trivial⟩

/-- Read from one stream, two payloads give the same message only when they
are the same. -/
theorem headerFields_of_take {left right rest tail : Bytes} {count : Nat}
    {message : Dtx} (hcount : count ≤ (rest ++ tail).length)
    (hleft : parseAfterHeader (headerFields left) rest = .ok message)
    (hright : parseAfterHeader (headerFields right) ((rest ++ tail).take count) =
      .ok message) :
    headerFields right = headerFields left ∧ rest.length = count := by
  by_cases hle : rest.length ≤ count
  · have htake : (rest ++ tail).take count =
        rest ++ tail.take (count - rest.length) := by
      rw [List.take_append, List.take_of_length_le hle]
    rw [htake] at hright
    obtain ⟨hfields, hnil⟩ := headerFields_of_parseAfterHeader hleft hright
    have hlen := congrArg List.length htake
    rw [hnil, List.append_nil, List.length_take_of_le hcount] at hlen
    exact ⟨hfields.symm, hlen.symm⟩
  · have htake : (rest ++ tail).take count = rest.take count :=
      List.take_append_of_le_length (by omega)
    rw [htake] at hright
    rw [← List.take_append_drop count rest] at hleft
    obtain ⟨hfields, hnil⟩ := headerFields_of_parseAfterHeader hright hleft
    have hlen := congrArg List.length hnil
    rw [List.length_drop, List.length_nil] at hlen
    omega

/-! ## The parts of a frame -/

section Frame

variable {headerSize : Nat} {skipped header rest : Bytes}

theorem headerSizeField_frame (h : headerSize < 2 ^ 32) :
    headerSizeField (frameStart headerSize ++ rest) = headerSize := by
  have hdrop : (frameStart headerSize ++ rest).drop 4 =
      leBytes 4 headerSize ++ rest := by
    rw [frameStart, List.append_assoc]
    exact List.drop_left' (length_leBytes 4 _)
  rw [headerSizeField, hdrop, List.take_left' (length_leBytes 4 _)]
  exact leValue_leBytes_of_lt h

theorem movedHeader_frame (hlow : kDtxHeaderSize ≤ headerSize)
    (hhigh : headerSize < 2 ^ 32)
    (hskip : skipped.length = headerSize - kDtxHeaderSize)
    (hheader : header.length = 24) :
    movedHeader (frameStart headerSize ++ skipped ++ (header ++ rest)) =
      header := by
  have hstart : (frameStart headerSize ++ skipped).length = headerSize - 24 := by
    rw [List.length_append, length_frameStart, hskip]
    simp only [kDtxHeaderSize] at hlow ⊢
    omega
  have hsize : headerSizeField (frameStart headerSize ++
      (skipped ++ (header ++ rest))) = headerSize := headerSizeField_frame hhigh
  rw [← List.append_assoc] at hsize
  rw [movedHeader, hsize, List.drop_left' hstart]
  exact List.take_left' hheader

theorem drop_frame (hlow : kDtxHeaderSize ≤ headerSize)
    (hskip : skipped.length = headerSize - kDtxHeaderSize)
    (hheader : header.length = 24) :
    (frameStart headerSize ++ skipped ++ (header ++ rest)).drop headerSize =
      rest := by
  rw [← List.append_assoc]
  refine List.drop_left' ?_
  simp only [List.length_append, length_frameStart, hskip, hheader]
  simp only [kDtxHeaderSize] at hlow ⊢
  omega

end Frame

/-- The checks `receive` makes on the first 32 bytes. -/
theorem frameSizes_frameStart {headerSize : Nat} {header : Bytes}
    (hlow : kDtxHeaderSize ≤ headerSize) (hhigh : headerSize < 2 ^ 32)
    (hheader : header.length = 24) :
    DtxConnection.frameSizes (frameStart headerSize ++ header) =
      if kDtxMaxMessageSize < (headerFields header).messageLength then
        .error (.error (protocolError "the DTX message is too large"))
      else .ok (headerSize, (headerFields header).messageLength) := by
  have hlength : (frameStart headerSize ++ header).length = 32 := by
    rw [List.length_append, length_frameStart, hheader]
  have hmagic : leValue (((frameStart headerSize ++ header).drop 0).take 4) =
      kDtxMagic := by
    rw [List.drop_zero, frameStart, List.append_assoc,
      List.take_left' (length_leBytes 4 _)]
    exact leValue_leBytes_of_lt (by decide)
  have hsize : headerSizeField (frameStart headerSize ++ header) = headerSize :=
    headerSizeField_frame hhigh
  rw [headerSizeField] at hsize
  have hmessage : ((frameStart headerSize ++ header).drop 12).take 4 =
      (header.drop 4).take 4 := by
    have hdrop : (frameStart headerSize ++ header).drop 8 = header :=
      List.drop_left' (length_frameStart _)
    conv_rhs => rw [← hdrop, List.drop_drop]
  have hlow' : ¬ headerSize < kDtxHeaderSize := Nat.not_lt.mpr hlow
  simp only [DtxConnection.frameSizes]
  rw [readLe_eq (by omega), ok_bind, readLe_eq (by omega), ok_bind,
    readLe_eq (by omega), ok_bind, hmagic, hsize, hmessage]
  simp only [ne_eq, not_true_eq_false, if_false, if_neg hlow']
  rfl

namespace DtxConnection

variable {connection : DtxConnection MemoryByteStream} {start more : Bytes}

private theorem run_readHeader (hstart : start.length = kDtxHeaderSize)
    (hincoming : connection.stream.incoming = start ++ more) :
    (onStream (ByteStream.readExact kDtxHeaderSize)).run connection =
      (.ok start, { connection with
        stream := { connection.stream with incoming := more } }) := by
  have hle : kDtxHeaderSize ≤ connection.stream.incoming.length := by
    rw [hincoming, List.length_append, hstart]
    omega
  rw [onStream, Action.run_zoom, MemoryByteStream.run_readExact_of_le _ hle,
    hincoming, List.take_left' hstart, List.drop_left' hstart]

/-- Over an in-memory stream `receive` reads what the two sizes announce and
parses it. -/
theorem receive_fst {headerSize messageLength : Nat}
    (hstart : start.length = kDtxHeaderSize)
    (hincoming : connection.stream.incoming = start ++ more)
    (hsizes : frameSizes start = .ok (headerSize, messageLength))
    (hlow : kDtxHeaderSize < headerSize) :
    (receive.run connection).1 =
      if headerSize + messageLength - kDtxHeaderSize ≤ more.length then
        Dtx.parse (start ++
          more.take (headerSize + messageLength - kDtxHeaderSize))
      else .error (.error ⟨.io, ascii "the stream ended early"⟩) := by
  have hsize : kDtxHeaderSize < headerSize + messageLength := by omega
  rw [receive, Action.run_bind_ok (run_readHeader hstart hincoming),
    Action.run_bind_ok (by rw [Action.run_lift, hsizes])]
  simp only [if_pos hsize]
  split
  · rename_i hle
    have hrest := MemoryByteStream.run_readExact_of_le
      { connection.stream with incoming := more } hle
    rw [Action.run_bind_ok (by rw [onStream, Action.run_zoom, hrest])]
    simp only [Action.run_bind, Action.run_lift]
    cases Dtx.parse (start ++
        more.take (headerSize + messageLength - kDtxHeaderSize)) with
    | error e => rfl
    | ok message =>
        -- the in-memory stream takes the acknowledgement
        simp only
        cases message.expectsReply
        · rfl
        · rfl
  · rename_i hle
    have hrest := MemoryByteStream.run_readExact_of_lt
      { connection.stream with incoming := more }
      (Nat.not_le.mp hle)
    rw [Action.run_bind_error (by rw [onStream, Action.run_zoom, hrest])]

theorem receive_fst_of_error {e : Fault Error}
    (hstart : start.length = kDtxHeaderSize)
    (hincoming : connection.stream.incoming = start ++ more)
    (hsizes : frameSizes start = .error e) :
    (receive.run connection).1 = .error e := by
  rw [receive, Action.run_bind_ok (run_readHeader hstart hincoming),
    Action.run_bind_error (by rw [Action.run_lift, hsizes])]

/-! ## Agreement -/

/-- The parts of a frame that `parse` accepts. -/
theorem parts_of_parse {bytes : Bytes} {message : Dtx}
    (h : Dtx.parse bytes = .ok message) :
    bytes.take 4 = leBytes 4 kDtxMagic ∧ (fixedHeader bytes).length = 24 ∧
      headerSizeField bytes ≤ bytes.length ∧
      parseAfterHeader (headerFields (movedHeader bytes))
        (bytes.drop (headerSizeField bytes)) = .ok message := by
  obtain ⟨size, skipped, header, rest, -, hlow, hhigh, hskip, hheader, rfl⟩ :=
    split_of_parse h
  have hlow' : 32 ≤ size := hlow
  have hfield : headerSizeField
      (frameStart size ++ skipped ++ (header ++ rest)) = size := by
    rw [List.append_assoc, headerSizeField_frame hhigh]
  have hlength : (frameStart size ++ skipped ++ (header ++ rest)).length =
      size + rest.length := by
    simp only [List.length_append, length_frameStart, hskip, hheader,
      kDtxHeaderSize]
    omega
  refine ⟨?_, ?_, ?_, ?_⟩
  · rw [frameStart, List.append_assoc, List.append_assoc]
    exact List.take_left' (length_leBytes 4 _)
  · rw [fixedHeader, List.length_take, List.length_drop]
    omega
  · rw [hlength, hfield]
    omega
  · rw [movedHeader_frame hlow hhigh hskip hheader, hfield,
      drop_frame hlow hskip hheader,
      ← parse_eq_parseAfterHeader hlow hhigh hskip hheader, h]

/-- A longer header seen as what `parse` skips of it and what it reads: it skips from
the front as many bytes as were put in behind the fields. -/
theorem split_longHeader {fixed extension : Bytes} {headerSize : Nat}
    (hfixed : fixed.length = 24)
    (hextension : extension.length = headerSize - kDtxHeaderSize) :
    ∃ skipped header, skipped.length = headerSize - kDtxHeaderSize ∧
      header.length = 24 ∧ ∀ more,
      frameStart headerSize ++ fixed ++ (extension ++ more) =
        frameStart headerSize ++ skipped ++ (header ++ more) := by
  refine ⟨(fixed ++ extension).take (headerSize - kDtxHeaderSize),
    (fixed ++ extension).drop (headerSize - kDtxHeaderSize), ?_, ?_, ?_⟩
  · rw [List.length_take, List.length_append]
    omega
  · rw [List.length_drop, List.length_append]
    omega
  · intro more
    simp only [List.append_assoc]
    rw [← List.append_assoc (List.take _ _), List.take_append_drop,
      List.append_assoc]

/-- `receive` gives back the message of a frame whose header was lengthened
exactly when the fields that end the longer header are those `parse` read, and
the length at its fixed offset counts the bytes after the header. -/
theorem receive_longFrame_iff {bytes extension tail : Bytes} {message : Dtx}
    {headerSize : Nat} (hparse : Dtx.parse bytes = .ok message)
    (hlow : kDtxHeaderSize < headerSize) (hhigh : headerSize < 2 ^ 32)
    (hextension : extension.length = headerSize - kDtxHeaderSize)
    (hincoming : connection.stream.incoming =
      longFrame bytes headerSize extension ++ tail) :
    (receive.run connection).1 = .ok message ↔
      headerFields (movedHeader (longFrame bytes headerSize extension)) =
          headerFields (movedHeader bytes) ∧
        bytes.length = headerSizeField bytes +
          (headerFields (fixedHeader bytes)).messageLength ∧
        (headerFields (fixedHeader bytes)).messageLength ≤
          kDtxMaxMessageSize := by
  obtain ⟨hmagic, hfixed, hsize, hparse⟩ := parts_of_parse hparse
  obtain ⟨skipped, header, hskip, hheader, hframe⟩ :=
    split_longHeader hfixed hextension
  have hlong : longFrame bytes headerSize extension =
      frameStart headerSize ++ fixedHeader bytes ++
        (extension ++ bytes.drop (headerSizeField bytes)) := by
    rw [longFrame, hmagic, frameStart, List.append_assoc]
  have hmoved : movedHeader (longFrame bytes headerSize extension) = header := by
    rw [hlong, hframe, movedHeader_frame hlow.le hhigh hskip hheader]
  have hstart : (frameStart headerSize ++ fixedHeader bytes).length =
      kDtxHeaderSize := by
    rw [List.length_append, length_frameStart, hfixed]
    rfl
  rw [hmoved]
  rw [hlong, List.append_assoc, List.append_assoc extension] at hincoming
  have hsizes := frameSizes_frameStart hlow.le hhigh hfixed
  set rest := bytes.drop (headerSizeField bytes) with hrestDef
  set length := (headerFields (fixedHeader bytes)).messageLength
  have hrestLength : rest.length = bytes.length - headerSizeField bytes := by
    rw [hrestDef, List.length_drop]
  by_cases hlarge : kDtxMaxMessageSize < length
  · rw [if_pos hlarge] at hsizes
    rw [receive_fst_of_error hstart hincoming hsizes]
    refine iff_of_false (by simp) fun h => ?_
    omega
  rw [if_neg hlarge] at hsizes
  have hcount : headerSize + length - kDtxHeaderSize =
      extension.length + length := by
    omega
  have htake : (extension ++ (rest ++ tail)).take (extension.length + length) =
      extension ++ (rest ++ tail).take length := by
    rw [List.take_append, List.take_of_length_le (by omega),
      Nat.add_sub_cancel_left]
  have hmore : extension.length + length ≤ (extension ++ (rest ++ tail)).length ↔
      length ≤ (rest ++ tail).length := by
    rw [@List.length_append _ extension]
    omega
  rw [receive_fst hstart hincoming hsizes hlow, hcount, htake, hframe,
    parse_eq_parseAfterHeader hlow.le hhigh hskip hheader]
  simp only [hmore]
  constructor
  · intro h
    split at h
    · rename_i hle
      obtain ⟨hfields, hrest⟩ := headerFields_of_take hle hparse h
      exact ⟨hfields, by omega, by omega⟩
    · cases h
  · rintro ⟨hfields, hrest, -⟩
    have hlen : rest.length = length := by omega
    rw [if_pos (by rw [List.length_append]; omega), ← hlen, List.take_left,
      hfields, hparse]

/-- A connection over an in-memory stream that holds `incoming`. -/
def ofBytes (incoming : Bytes) : DtxConnection MemoryByteStream where
  stream := ⟨incoming, []⟩

/-- With four extension bytes `receive` takes the length at offset 12, and
`parse` the identifier that follows it. -/
theorem receive_longFrame_identifier :
    Dtx.parse (Dtx.encode { identifier := 1 }) = .ok { identifier := 1 } ∧
      (receive.run (ofBytes
        (longFrame (Dtx.encode { identifier := 1 }) 36 [0, 0, 0, 0]))).1 =
        .error (.error (protocolError
          "the DTX message header and payload header disagree")) :=
  ⟨rfl, rfl⟩

/-- A frame in which every header word is the message length, so that it reads
the same four bytes later. -/
def sameWordsFrame : Bytes :=
  frameStart 32 ++ (List.replicate 6 (leBytes 4 16)).flatten ++
    List.replicate 16 0

/-- The message of `sameWordsFrame`. -/
def sameWords : Dtx where
  fragmentIndex := 16
  fragmentCount := 0
  identifier := 16
  conversationIndex := 16
  channelCode := 16
  expectsReply := true

theorem receive_longFrame_sameWords :
    (receive.run (ofBytes
      (longFrame sameWordsFrame 36 [16, 0, 0, 0]))).1 = .ok sameWords :=
  (@receive_longFrame_iff _ sameWordsFrame [16, 0, 0, 0] [] sameWords 36 rfl
    (by decide) (by decide) rfl rfl).mpr ⟨by decide, by decide, by decide⟩

end DtxConnection

end Ioscpp
