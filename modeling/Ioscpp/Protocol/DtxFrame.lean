import Ioscpp.Protocol.DtxRoundTrip

/-!
# What `Dtx.parse` reads where

`parse` reads the magic and the header size, skips whatever the header size
announces beyond 32 bytes, and only then reads the 24 bytes of the remaining
header fields and the payload.  This file names those 24 bytes' content
(`headerFields`) and shows that the outcome of `parse` depends on nothing else
than these fields and the bytes after them (`parse_eq_parseAfterHeader`).

## Main results

- `split_of_parse`: the parts of a frame that `parse` accepts.
- `parse_eq_parseAfterHeader`: whatever the header skips, the outcome is decided by
  what follows it.
-/

namespace Ioscpp.Protocol.Dtx

open Ioscpp.Support
open Ioscpp.Support.Reading

/-- The header fields after the header size. -/
structure HeaderFields where
  fragmentIndex : Nat
  fragmentCount : Nat
  messageLength : Nat
  identifier : Nat
  conversationIndex : Nat
  channelCode : Nat
  expectsReply : Bool
  deriving DecidableEq, Repr

/-- The fields that 24 header bytes hold. -/
def headerFields (header : Bytes) : HeaderFields where
  fragmentIndex := leValue (header.take 2)
  fragmentCount := leValue ((header.drop 2).take 2)
  messageLength := leValue ((header.drop 4).take 4)
  identifier := leValue ((header.drop 8).take 4)
  conversationIndex := leValue ((header.drop 12).take 4)
  channelCode := leValue ((header.drop 16).take 4)
  expectsReply := leValue ((header.drop 20).take 4) != 0

/-- The header's part of the message. -/
def HeaderFields.message (fields : HeaderFields) : Dtx where
  fragmentIndex := UInt16.ofNat fields.fragmentIndex
  fragmentCount := UInt16.ofNat fields.fragmentCount
  identifier := UInt32.ofNat fields.identifier
  conversationIndex := UInt32.ofNat fields.conversationIndex
  channelCode := (UInt32.ofNat fields.channelCode).toInt32
  expectsReply := fields.expectsReply

/-! ## The stages on a buffer with its header in place -/

private theorem take_take_drop {header : Bytes} (rest : Bytes) {i n : Nat}
    (h : i + n ≤ header.length) :
    ((header ++ rest).drop i).take n = (header.drop i).take n := by
  rw [List.drop_append_of_le_length (by omega),
    List.take_append_of_le_length (by rw [List.length_drop]; omega)]

/-- On a buffer that starts with 24 header bytes, `parseHeader` makes its two
checks on their fields and stops after them. -/
theorem parseHeader_of_length {header rest : Bytes} (h : header.length = 24) :
    parseHeader ⟨header ++ rest, 0⟩ =
      if 1 < (headerFields header).fragmentCount then
        .error (.error
          (protocolError "a fragmented DTX message is not supported yet"))
      else if kDtxMaxMessageSize < (headerFields header).messageLength then
        .error (.error (protocolError "the DTX message is too large"))
      else
        .ok (((headerFields header).message,
          (headerFields header).messageLength), ⟨header ++ rest, 24⟩) := by
  have hword : ∀ i n, i + n ≤ 24 →
      word truncated n ⟨header ++ rest, i⟩ =
        .ok (leValue ((header.drop i).take n), ⟨header ++ rest, i + n⟩) := by
    intro i n hle
    have hend : i + n ≤ (header ++ rest).length := by
      rw [List.length_append]
      omega
    have htake := take_take_drop rest
      (show i + n ≤ header.length by omega)
    rw [word_of_le ⟨header ++ rest, i⟩ hend]
    simp only [htake]
  have hindex := hword 0 2 (by omega)
  have hcount : word truncated 2 ⟨header ++ rest, 2⟩ =
      .ok ((headerFields header).fragmentCount, ⟨header ++ rest, 4⟩) :=
    hword 2 2 (by omega)
  have hlength : word truncated 4 ⟨header ++ rest, 4⟩ =
      .ok ((headerFields header).messageLength, ⟨header ++ rest, 8⟩) :=
    hword 4 4 (by omega)
  have hident := hword 8 4 (by omega)
  have hconv := hword 12 4 (by omega)
  have hchan := hword 16 4 (by omega)
  have hreply := hword 20 4 (by omega)
  simp only [parseHeader, u16, u32, bind_apply, hindex, ok_bind, hcount,
    Nat.zero_add]
  split
  · simp
  simp only [bind_apply, hlength, ok_bind]
  split
  · simp
  simp only [bind_apply, hident, hconv, hchan, hreply, ok_bind, Nat.reduceAdd,
    pure_apply, List.drop_zero]
  rfl

/-- A header that is read has its 24 bytes. -/
theorem length_of_parseHeader {bytes : Bytes} {x : Dtx × Nat} {last : Cursor}
    (h : parseHeader ⟨bytes, 0⟩ = .ok (x, last)) : 24 ≤ bytes.length := by
  simp only [parseHeader, u16, u32, bind_apply] at h
  obtain ⟨⟨index, c1⟩, h1, h⟩ := bind_eq_ok.mp h
  obtain ⟨-, -, rfl⟩ := word_eq_ok (by decide) h1
  obtain ⟨⟨count, c2⟩, h2, h⟩ := bind_eq_ok.mp h
  obtain ⟨-, -, rfl⟩ := word_eq_ok (by decide) h2
  split at h
  · cases h
  simp only [bind_apply] at h
  obtain ⟨⟨length, c3⟩, h3, h⟩ := bind_eq_ok.mp h
  obtain ⟨-, -, rfl⟩ := word_eq_ok (by decide) h3
  split at h
  · cases h
  simp only [bind_apply] at h
  obtain ⟨⟨ident, c4⟩, h4, h⟩ := bind_eq_ok.mp h
  obtain ⟨-, -, rfl⟩ := word_eq_ok (by decide) h4
  obtain ⟨⟨conv, c5⟩, h5, h⟩ := bind_eq_ok.mp h
  obtain ⟨-, -, rfl⟩ := word_eq_ok (by decide) h5
  obtain ⟨⟨chan, c6⟩, h6, h⟩ := bind_eq_ok.mp h
  obtain ⟨-, -, rfl⟩ := word_eq_ok (by decide) h6
  obtain ⟨⟨reply, c7⟩, h7, -⟩ := bind_eq_ok.mp h
  obtain ⟨hle, -, -⟩ := word_eq_ok (by decide) h7
  simpa using hle

/-! ## Locality and stability of the stages -/

theorem local_parsePayloadHeader : Local parsePayloadHeader := by
  refine (local_word _ _).bind fun _ => (local_take _ _).bind fun _ => ?_
  refine (local_word _ _).bind fun _ => (local_word _ _).bind fun _ => ?_
  exact (local_take _ _).bind fun _ => local_pure _

theorem stable_parsePayloadHeader : Stable parsePayloadHeader := by
  refine (stable_word _ _ (by decide)).bind fun _ => ?_
  refine (stable_take _ _).bind fun _ => ?_
  refine (stable_word _ _ (by decide)).bind fun _ => ?_
  refine (stable_word _ _ (by decide)).bind fun _ => ?_
  exact (stable_take _ _).bind fun _ => stable_pure _

theorem local_decodeAuxiliary : Local decodeAuxiliary := by
  refine (local_word _ _).bind fun magic => ?_
  split
  · exact local_fail _
  refine (local_take _ _).bind fun _ => (local_word _ _).bind fun _ => ?_
  exact (local_take _ _).bind fun _ => local_lift _

theorem stable_decodeAuxiliary : Stable decodeAuxiliary := by
  refine (stable_word _ _ (by decide)).bind fun magic => ?_
  split
  · exact stable_fail _
  refine (stable_take _ _).bind fun _ => ?_
  refine (stable_word _ _ (by decide)).bind fun _ => ?_
  exact (stable_take _ _).bind fun _ => stable_lift _

theorem local_parsePayload (messageLength : Nat) :
    Local (parsePayload messageLength) := by
  refine local_parsePayloadHeader.bind fun sizes => ?_
  simp only
  split
  · exact local_fail _
  split
  · exact local_fail _
  split
  · exact local_decodeAuxiliary.bind fun _ =>
      (local_take _ _).bind fun _ => local_pure _
  · exact (local_pure _).bind fun _ =>
      (local_take _ _).bind fun _ => local_pure _

theorem stable_parsePayload (messageLength : Nat) :
    Stable (parsePayload messageLength) := by
  refine stable_parsePayloadHeader.bind fun sizes => ?_
  simp only
  split
  · exact stable_fail _
  split
  · exact stable_fail _
  split
  · exact stable_decodeAuxiliary.bind fun _ =>
      (stable_take _ _).bind fun _ => stable_pure _
  · exact (stable_pure _).bind fun _ =>
      (stable_take _ _).bind fun _ => stable_pure _

theorem local_parseHeader : Local parseHeader := by
  refine (local_word _ _).bind fun _ => (local_word _ _).bind fun _ => ?_
  split
  · exact local_fail _
  refine (local_word _ _).bind fun _ => ?_
  split
  · exact local_fail _
  refine (local_word _ _).bind fun _ => (local_word _ _).bind fun _ => ?_
  refine (local_word _ _).bind fun _ => (local_word _ _).bind fun _ => ?_
  exact local_pure _

/-- The message length a payload accepts is the one its own header gives. -/
theorem messageLength_of_parsePayload {messageLength : Nat} {reader last : Cursor}
    {x : DtxMessageType × List DtxValue × Bytes}
    (h : parsePayload messageLength reader = .ok (x, last)) :
    ∃ sizes middle, parsePayloadHeader reader = .ok (sizes, middle) ∧
      messageLength = kDtxPayloadHeaderSize + sizes.2.2 := by
  rw [parsePayload, bind_apply] at h
  obtain ⟨⟨sizes, middle⟩, hsizes, h⟩ := bind_eq_ok.mp h
  refine ⟨sizes, middle, hsizes, ?_⟩
  simp only at h
  split at h
  · cases h
  split at h
  · cases h
  · rename_i hne
    exact not_not.mp hne

/-! ## The outcome of `parse` -/

/-- What `parse` makes of the header fields and the bytes after them. -/
def parseAfterHeader (fields : HeaderFields) (rest : Bytes) : Result Dtx :=
  if 1 < fields.fragmentCount then
    .error (.error
      (protocolError "a fragmented DTX message is not supported yet"))
  else if kDtxMaxMessageSize < fields.messageLength then
    .error (.error (protocolError "the DTX message is too large"))
  else do
    let (payload, reader) ← parsePayload fields.messageLength ⟨rest, 0⟩
    if reader.offset ≠ rest.length then
      .error (.error (protocolError "the DTX message has trailing bytes"))
    else
      .ok { fields.message with
        messageType := payload.1, auxiliary := payload.2.1, payload := payload.2.2 }

/-- The magic and the header size, as they stand in a frame. -/
def frameStart (headerSize : Nat) : Bytes :=
  leBytes 4 kDtxMagic ++ leBytes 4 headerSize

theorem length_frameStart (headerSize : Nat) :
    (frameStart headerSize).length = 8 := by
  simp [frameStart]

private theorem reads_frameStart {headerSize : Nat} {skipped : Bytes}
    (hlow : kDtxHeaderSize ≤ headerSize) (hhigh : headerSize < 2 ^ 32)
    (hskip : skipped.length = headerSize - kDtxHeaderSize) :
    Reads (fun _ => True) parseHeaderSize (frameStart headerSize ++ skipped)
      () := by
  have hbuf : frameStart headerSize ++ skipped =
      leBytes 4 kDtxMagic ++ (leBytes 4 headerSize ++ skipped) := by
    simp [frameStart]
  rw [hbuf]
  refine Reads.bind (A := fun _ => True) (B := fun _ => True)
    (reads_word kDtxMagic (by decide)) ?_ fun _ h => h
  rw [if_neg (by decide)]
  refine Reads.bind (A := fun _ => True) (B := fun _ => True)
    (reads_word _ hhigh) ?_ fun _ h => h
  rw [if_neg (by omega)]
  split
  · rw [← hskip, ← List.append_nil skipped]
    refine Reads.bind (A := fun _ => True) (B := fun _ => True) (a := skipped)
      ?_ (Reads.pure ()) fun _ h => h
    rw [List.append_nil]
    exact reads_take _ skipped
  · have hnil : skipped = [] := List.eq_nil_of_length_eq_zero (by omega)
    rw [hnil]
    exact Reads.pure ()

/-- Whatever the header skips, the outcome is decided by the 24 header bytes
that follow it and the rest of the frame. -/
theorem parse_eq_parseAfterHeader {headerSize : Nat}
    {skipped header rest : Bytes} (hlow : kDtxHeaderSize ≤ headerSize)
    (hhigh : headerSize < 2 ^ 32)
    (hskip : skipped.length = headerSize - kDtxHeaderSize)
    (hheader : header.length = 24) :
    parse (frameStart headerSize ++ skipped ++ (header ++ rest)) =
      parseAfterHeader (headerFields header) rest := by
  have hstart := reads_frameStart hlow hhigh hskip [] (header ++ rest) trivial
  simp only [List.nil_append, List.length_nil, Nat.zero_add] at hstart
  set start := frameStart headerSize ++ skipped with hdef
  have hdrop : (start ++ (header ++ rest)).drop start.length = header ++ rest :=
    List.drop_left
  have hdrop' : (start ++ (header ++ rest)).drop (start.length + 24) = rest := by
    rw [← List.drop_drop, hdrop]
    exact List.drop_left' hheader
  rw [parse, parseMessage, bind_apply, hstart, ok_bind, bind_apply,
    local_parseHeader.shift _ _ (by simp), hdrop, parseHeader_of_length hheader,
    parseAfterHeader]
  by_cases hmany : 1 < (headerFields header).fragmentCount
  · simp [hmany]
  by_cases hlarge : kDtxMaxMessageSize < (headerFields header).messageLength
  · simp [hmany, hlarge]
  simp only [if_neg hmany, if_neg hlarge, ok_bind]
  rw [bind_apply, (local_parsePayload _).shift _ _ (by simp [hheader]),
    hdrop']
  cases hpayload : parsePayload (headerFields header).messageLength ⟨rest, 0⟩ with
  | error e => simp
  | ok x =>
      obtain ⟨payload, reader⟩ := x
      obtain ⟨-, hinside⟩ := (local_parsePayload _).inside _ _ _ hpayload
      have hend : start.length + 24 + reader.offset =
          (start ++ (header ++ rest)).length ↔ reader.offset = rest.length := by
        simp only [List.length_append, hheader]
        omega
      simp only [ok_bind, pure_apply, ne_eq, hend]

/-- A header start that is accepted is the magic and a header size, with what
it skips after it. -/
theorem parseHeaderSize_eq_ok {bytes : Bytes} {last : Cursor}
    (h : parseHeaderSize ⟨bytes, 0⟩ = .ok ((), last)) :
    ∃ headerSize, headerSize = leValue ((bytes.drop 4).take 4) ∧
      leValue (bytes.take 4) = kDtxMagic ∧ kDtxHeaderSize ≤ headerSize ∧
      headerSize - 24 ≤ bytes.length ∧ last = ⟨bytes, headerSize - 24⟩ := by
  rw [parseHeaderSize, bind_apply] at h
  obtain ⟨⟨magic, c1⟩, hmagic, h⟩ := bind_eq_ok.mp h
  obtain ⟨-, rfl, rfl⟩ := word_eq_ok (by decide) hmagic
  simp only at h
  split at h
  · cases h
  rename_i heq
  rw [bind_apply] at h
  obtain ⟨⟨headerSize, c2⟩, hsize, h⟩ := bind_eq_ok.mp h
  obtain ⟨hlen, hvalue, rfl⟩ := word_eq_ok (by decide) hsize
  refine ⟨headerSize, hvalue, not_not.mp heq, ?_⟩
  simp only [Nat.zero_add, Nat.reduceAdd] at h hlen
  split at h
  · cases h
  rename_i hlow
  have hlow' : 32 ≤ headerSize := Nat.not_lt.mp hlow
  split at h
  · rw [bind_apply] at h
    obtain ⟨⟨skipped, c3⟩, htake, h⟩ := bind_eq_ok.mp h
    obtain ⟨hle, -, rfl⟩ := take_eq_ok htake
    cases h
    simp only [kDtxHeaderSize] at hle ⊢
    refine ⟨hlow', by omega, ?_⟩
    congr 1
    omega
  · rename_i hhigh
    cases h
    simp only [kDtxHeaderSize] at hhigh ⊢
    refine ⟨hlow', by omega, ?_⟩
    congr 1
    omega

/-- A frame that `parse` accepts starts with the magic and its header size, and
has its 24 header bytes after what its header skips. -/
theorem split_of_parse {bytes : Bytes} {message : Dtx}
    (h : parse bytes = .ok message) :
    ∃ headerSize skipped header rest,
      headerSize = leValue ((bytes.drop 4).take 4) ∧
      kDtxHeaderSize ≤ headerSize ∧ headerSize < 2 ^ 32 ∧
      skipped.length = headerSize - kDtxHeaderSize ∧ header.length = 24 ∧
      bytes = frameStart headerSize ++ skipped ++ (header ++ rest) := by
  obtain ⟨⟨m, last⟩, hmessage, -⟩ := bind_eq_ok.mp h
  rw [parseMessage, bind_apply] at hmessage
  obtain ⟨⟨u, c2⟩, hstart, hmessage⟩ := bind_eq_ok.mp hmessage
  obtain ⟨headerSize, hvalue, hmagic, hlow, hle, rfl⟩ :=
    parseHeaderSize_eq_ok hstart
  rw [bind_apply] at hmessage
  obtain ⟨⟨x, c3⟩, hheader, -⟩ := bind_eq_ok.mp hmessage
  rw [local_parseHeader.shift _ _ hle] at hheader
  obtain ⟨⟨x', c4⟩, hheader, -⟩ := bind_eq_ok.mp hheader
  have hlen := length_of_parseHeader hheader
  rw [List.length_drop] at hlen
  have hlow' : 32 ≤ headerSize := hlow
  have hfirst : bytes.take 4 = leBytes 4 kDtxMagic := by
    have hround := leBytes_leValue (bytes.take 4)
    rwa [hmagic, List.length_take, Nat.min_eq_left (by omega), eq_comm]
      at hround
  have hsecond : (bytes.drop 4).take 4 = leBytes 4 headerSize := by
    have hround := leBytes_leValue ((bytes.drop 4).take 4)
    rwa [← hvalue, List.length_take, List.length_drop,
      Nat.min_eq_left (by omega), eq_comm] at hround
  have hhigh : headerSize < 2 ^ 32 := by
    rw [hvalue]
    refine (leValue_lt _).trans_le ?_
    exact Nat.pow_le_pow_right (n := 256) (by decide)
      (List.length_take_le 4 _)
  refine ⟨headerSize, (bytes.drop 8).take (headerSize - 32),
    (bytes.drop (headerSize - 24)).take 24, bytes.drop headerSize, hvalue, hlow,
    hhigh, ?_, ?_, ?_⟩
  · simp only [List.length_take, List.length_drop, kDtxHeaderSize]
    omega
  · rw [List.length_take, List.length_drop]
    omega
  · have hend : bytes.drop headerSize =
        (bytes.drop (headerSize - 24)).drop 24 := by
      rw [List.drop_drop]
      congr 1
      omega
    have hmiddle : bytes.drop (headerSize - 24) =
        (bytes.drop 8).drop (headerSize - 32) := by
      rw [List.drop_drop]
      congr 1
      omega
    have hstart : bytes.drop 8 = (bytes.drop 4).drop 4 := by rw [List.drop_drop]
    rw [hend, List.take_append_drop, hmiddle, List.append_assoc,
      List.take_append_drop, hstart, frameStart, ← hfirst, ← hsecond,
      List.append_assoc, List.take_append_drop, List.take_append_drop]

end Ioscpp.Protocol.Dtx
