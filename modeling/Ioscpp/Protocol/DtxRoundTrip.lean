import Ioscpp.Protocol.Dtx

/-!
# Round trip of the DTX codec

The encoder and the parser are walked together with the `Reads` rules: each
stage of `parse` reads back the bytes the matching part of `encode` appended.
The sizes that `encode` truncates to 32 bits are all bounded by the message
length, so the one bound on the message length keeps every length exact.

The message type is the exception: the payload header has one byte for a 32-bit
code.  `parse_encode_eq` says what comes back for every message, and the round
trip itself holds exactly when the code fits that byte.

## Main results

- `parse_encode_eq`: what comes back for every unfragmented message within the size
  limit.
- `parse_encode_eq_self_iff`: when that is the message itself.
-/

namespace Ioscpp.Protocol.Dtx

open Ioscpp.Support
open Ioscpp.Support.Reading

/-- A DTX decoder assumes nothing of its offset. -/
private abbrev Anywhere : Nat → Prop := fun _ => True

private theorem anywhere_bind {α β : Type} {p : Reading Error α}
    {f : α → Reading Error β} {xs ys : Bytes} {a : α} {b : β}
    (hp : Reads Anywhere p xs a) (hf : Reads Anywhere (f a) ys b) :
    Reads Anywhere (p >>= f) (xs ++ ys) b :=
  hp.bind hf fun _ _ => trivial

/-- A last step that only wraps the value does not move the cursor. -/
private theorem anywhere_map {α β : Type} {p : Reading Error α}
    {f : α → Reading Error β} {xs : Bytes} {a : α} {b : β}
    (hp : Reads Anywhere p xs a) (hf : Reads Anywhere (f a) [] b) :
    Reads Anywhere (p >>= f) xs b := by
  simpa using anywhere_bind hp hf

/-! ## Auxiliary values -/

/-- The bytes of one auxiliary value. -/
theorem encodeValue_eq (value : DtxValue) (out : Bytes) :
    encodeValue value out = out ++ encodeValue value [] := by
  cases value <;> simp [encodeValue, appendU32, appendU64]

/-- The length an auxiliary value announces fits its 32-bit field. -/
def DtxValue.LengthFits : DtxValue → Prop
  | .string text => text.length < 2 ^ 32
  | .buffer bytes => bytes.length < 2 ^ 32
  | _ => True

theorem reads_decodeValue (value : DtxValue) (h : DtxValue.LengthFits value) :
    Reads Anywhere decodeValue (encodeValue value []) value := by
  cases value with
  | null =>
      exact anywhere_map (reads_word _ (by decide)) (Reads.pure _)
  | int32 value =>
      refine anywhere_bind (reads_word 0x03 (by decide)) ?_
      refine anywhere_map (reads_word _ value.toUInt32.toNat_lt) ?_
      simpa using Reads.pure (A := Anywhere) (ε := Error) (DtxValue.int32 value)
  | int64 value =>
      refine anywhere_bind (reads_word 0x06 (by decide)) ?_
      refine anywhere_map (reads_word _ value.toUInt64.toNat_lt) ?_
      simpa using Reads.pure (A := Anywhere) (ε := Error) (DtxValue.int64 value)
  | double bits =>
      refine anywhere_bind (reads_word 0x09 (by decide)) ?_
      refine anywhere_map (reads_word _ bits.toNat_lt) ?_
      simpa using Reads.pure (A := Anywhere) (ε := Error) (DtxValue.double bits)
  | string text =>
      simp only [encodeValue, appendU32, List.nil_append, List.append_assoc]
      refine anywhere_bind (reads_word 0x01 (by decide)) ?_
      refine anywhere_bind (reads_word _ h) ?_
      exact anywhere_map (reads_take _ text) (Reads.pure _)
  | buffer bytes =>
      simp only [encodeValue, appendU32, List.nil_append, List.append_assoc]
      refine anywhere_bind (reads_word 0x02 (by decide)) ?_
      refine anywhere_bind (reads_word _ h) ?_
      exact anywhere_map (reads_take _ bytes) (Reads.pure _)

/-! ## The auxiliary dictionary -/

/-- One entry of the auxiliary body. -/
private def entryBytes (value : DtxValue) : Bytes :=
  encodeValue .null [] ++ encodeValue value []

private theorem encodeAuxiliaryBody_eq (auxiliary : List DtxValue) :
    encodeAuxiliaryBody auxiliary = auxiliary.flatMap entryBytes := by
  have hfold : ∀ (values : List DtxValue) (body : Bytes),
      values.foldl (fun body value =>
          encodeValue value (appendU32 body DtxValue.null.type)) body =
        body ++ values.flatMap entryBytes := by
    intro values
    induction values with
    | nil => intro body; simp
    | cons value values ih =>
        intro body
        rw [List.foldl_cons, ih, encodeValue_eq]
        simp [entryBytes, encodeValue, appendU32]
  rw [encodeAuxiliaryBody, hfold, List.nil_append]

private theorem entryBytes_length_pos (value : DtxValue) :
    0 < (entryBytes value).length := by
  simp [entryBytes, encodeValue, appendU32]

/-- The entry loop reads back the entries that stand from its offset to the end
of the body. -/
private theorem decodeEntries_flatMap (values : List DtxValue)
    (hfits : ∀ value ∈ values, DtxValue.LengthFits value) :
    ∀ (fuel : Nat) (pre : Bytes) (auxiliary : List DtxValue),
      values.length ≤ fuel →
      decodeEntries fuel ⟨pre ++ values.flatMap entryBytes, pre.length⟩
        auxiliary = .ok (auxiliary ++ values) := by
  induction values with
  | nil =>
      intro fuel pre auxiliary _
      cases fuel <;> simp [decodeEntries]
  | cons value values ih =>
      intro fuel pre auxiliary hfuel
      cases fuel with
      | zero => simp at hfuel
      | succ fuel =>
          have hpos := entryBytes_length_pos value
          have hmore : pre.length <
              (pre ++ (value :: values).flatMap entryBytes).length := by
            simp only [List.length_append, List.flatMap_cons]
            omega
          have hkey := reads_decodeValue .null trivial pre
            (encodeValue value [] ++ values.flatMap entryBytes) trivial
          have hvalue := reads_decodeValue value (hfits value (by simp))
            (pre ++ encodeValue .null []) (values.flatMap entryBytes) trivial
          have hrest := ih (fun v hv => hfits v (by simp [hv])) fuel
            (pre ++ entryBytes value) (auxiliary ++ [value])
            (by simp only [List.length_cons] at hfuel; omega)
          have hbuf : pre ++ (value :: values).flatMap entryBytes =
              pre ++ encodeValue .null [] ++
                (encodeValue value [] ++ values.flatMap entryBytes) := by
            simp [entryBytes]
          rw [decodeEntries]
          simp only [if_pos hmore]
          rw [hbuf, hkey, ok_bind]
          simp only [entryBytes, List.append_assoc, List.length_append] at hvalue hrest ⊢
          simp only [hvalue, ok_bind, Nat.add_assoc, hrest]
          simp

private theorem length_le_entries (values : List DtxValue) :
    values.length ≤ (values.flatMap entryBytes).length := by
  have hle : 1 * values.length ≤ _ :=
    length_mul_le_flatMap fun value _ => entryBytes_length_pos value
  rwa [Nat.one_mul] at hle

private theorem encodeValue_length_le_flatMap {value : DtxValue}
    {values : List DtxValue} (h : value ∈ values) :
    (encodeValue value []).length ≤ (values.flatMap entryBytes).length := by
  have hle : (entryBytes value).length ≤ _ := length_le_flatMap h
  rw [entryBytes, List.length_append] at hle
  omega

/-- A body below 4 GiB holds only lengths that fit their field. -/
private theorem lengthFits_of_body {values : List DtxValue}
    (h : (encodeAuxiliaryBody values).length < 2 ^ 32) :
    ∀ value ∈ values, DtxValue.LengthFits value := by
  intro value hmem
  rw [encodeAuxiliaryBody_eq] at h
  have hle := encodeValue_length_le_flatMap hmem
  cases value <;>
    simp only [encodeValue, appendU32, List.length_append] at hle <;>
    simp only [DtxValue.LengthFits] <;> omega

/-- The bytes of the auxiliary dictionary: its header and its body. -/
private def auxiliaryBytes (auxiliary : List DtxValue) : Bytes :=
  leBytes 4 kDtxAuxiliaryMagic ++ (leBytes 4 0 ++
    (leBytes 8 (encodeAuxiliaryBody auxiliary).length ++
      encodeAuxiliaryBody auxiliary))

private theorem reads_decodeAuxiliary (auxiliary : List DtxValue)
    (h : (encodeAuxiliaryBody auxiliary).length < 2 ^ 32) :
    Reads Anywhere decodeAuxiliary (auxiliaryBytes auxiliary) auxiliary := by
  have hentries : decodeEntries (encodeAuxiliaryBody auxiliary).length
      ⟨encodeAuxiliaryBody auxiliary, 0⟩ [] = .ok auxiliary := by
    rw [encodeAuxiliaryBody_eq]
    simpa using decodeEntries_flatMap auxiliary (lengthFits_of_body h) _ [] []
      (length_le_entries auxiliary)
  refine anywhere_bind (reads_word kDtxAuxiliaryMagic (by decide)) ?_
  rw [if_neg (by decide)]
  refine anywhere_bind (reads_take _ (leBytes 4 0)) ?_
  refine anywhere_bind (reads_word _ (by omega)) ?_
  refine anywhere_map (reads_take _ _) ?_
  rw [hentries]
  exact reads_lift auxiliary

/-! ## The message -/

/-- What the parser makes of a message type: the header's one byte. -/
def wireMessageType (messageType : DtxMessageType) : DtxMessageType :=
  ⟨UInt32.ofNat (messageType.code.toNat % 256)⟩

theorem wireMessageType_eq_iff (messageType : DtxMessageType) :
    wireMessageType messageType = messageType ↔ messageType.code < 256 := by
  obtain ⟨code⟩ := messageType
  have hlt := code.toNat_lt
  simp only [wireMessageType, DtxMessageType.mk.injEq, UInt32.lt_iff_toNat_lt]
  rw [← UInt32.toNat_inj, UInt32.toNat_ofNat']
  simp only [UInt32.reduceToNat]
  omega

/-- The bytes of the payload header. -/
private def payloadHeaderBytes (message : Dtx) : Bytes :=
  leBytes 1 message.messageType.code.toNat ++ ([0, 0, 0] ++
    (leBytes 4 message.auxiliarySize ++
      (leBytes 4 message.totalSize ++ leBytes 4 0)))

/-- The bytes of the payload header and of what follows it. -/
private def payloadBytes (message : Dtx) : Bytes :=
  payloadHeaderBytes message ++
    ((if message.auxiliary.isEmpty then []
      else auxiliaryBytes message.auxiliary) ++ message.payload)

/-- The bytes of the message header after its own size. -/
private def headerBytes (message : Dtx) : Bytes :=
  leBytes 2 message.fragmentIndex.toNat ++
    (leBytes 2 message.fragmentCount.toNat ++
      (leBytes 4 message.messageLength ++
        (leBytes 4 message.identifier.toNat ++
          (leBytes 4 message.conversationIndex.toNat ++
            (leBytes 4 message.channelCode.toUInt32.toNat ++
              leBytes 4 (if message.expectsReply then kDtxFlagExpectsReply
                else 0))))))

private theorem encode_eq (message : Dtx) :
    message.encode =
      (leBytes 4 kDtxMagic ++ leBytes 4 kDtxHeaderSize) ++
        (headerBytes message ++ payloadBytes message) := by
  by_cases h : message.auxiliary.isEmpty <;>
    simp [encode, encodeHeader, headerBytes, payloadBytes, payloadHeaderBytes,
      auxiliaryBytes, appendU16, appendU32, appendU64, leBytes, h]

private theorem reads_parseHeaderSize :
    Reads Anywhere parseHeaderSize
      (leBytes 4 kDtxMagic ++ leBytes 4 kDtxHeaderSize) () := by
  refine anywhere_bind (reads_word kDtxMagic (by decide)) ?_
  rw [if_neg (by decide)]
  refine anywhere_map (reads_word kDtxHeaderSize (by decide)) ?_
  rw [if_neg (by decide), if_neg (by decide)]
  exact Reads.pure ()

/-- The message header's part of a message. -/
private def headerOf (message : Dtx) : Dtx where
  fragmentIndex := message.fragmentIndex
  fragmentCount := message.fragmentCount
  identifier := message.identifier
  conversationIndex := message.conversationIndex
  channelCode := message.channelCode
  expectsReply := message.expectsReply

private theorem reads_parseHeader (message : Dtx)
    (hcount : message.fragmentCount ≤ 1)
    (hlength : message.messageLength ≤ kDtxMaxMessageSize) :
    Reads Anywhere parseHeader (headerBytes message)
      (headerOf message, message.messageLength) := by
  have hcount' : message.fragmentCount.toNat ≤ 1 := by
    simpa using UInt16.le_iff_toNat_le.mp hcount
  have hlength' : message.messageLength < 256 ^ 4 := by
    have : kDtxMaxMessageSize < 256 ^ 4 := by decide
    omega
  refine anywhere_bind (reads_word _ message.fragmentIndex.toNat_lt) ?_
  refine anywhere_bind (reads_word _ message.fragmentCount.toNat_lt) ?_
  rw [if_neg (by omega)]
  refine anywhere_bind (reads_word _ hlength') ?_
  rw [if_neg (by omega)]
  refine anywhere_bind (reads_word _ message.identifier.toNat_lt) ?_
  refine anywhere_bind (reads_word _ message.conversationIndex.toNat_lt) ?_
  refine anywhere_bind (reads_word _ message.channelCode.toUInt32.toNat_lt) ?_
  refine anywhere_map (reads_word _ (by split <;> decide)) ?_
  have hreply : ((if message.expectsReply then kDtxFlagExpectsReply else 0) != 0)
      = message.expectsReply := by
    cases message.expectsReply <;> rfl
  rw [hreply]
  simpa [headerOf] using
    Reads.pure (A := Anywhere) (ε := Error) (headerOf message, message.messageLength)

private theorem reads_parsePayloadHeader (message : Dtx)
    (hlength : message.messageLength ≤ kDtxMaxMessageSize) :
    Reads Anywhere parsePayloadHeader (payloadHeaderBytes message)
      (message.messageType.code.toNat % 256, message.auxiliarySize,
        message.totalSize) := by
  have hmax : kDtxMaxMessageSize < 256 ^ 4 := by decide
  have htotal : message.totalSize < 256 ^ 4 := by
    unfold messageLength at hlength
    omega
  have haux : message.auxiliarySize ≤ message.totalSize := by
    unfold totalSize
    omega
  have htype : Reads Anywhere u8 (leBytes 1 message.messageType.code.toNat)
      (message.messageType.code.toNat % 256) := by
    have hbytes : leBytes 1 message.messageType.code.toNat =
        leBytes 1 (message.messageType.code.toNat % 256) := by
      simp only [leBytes, List.cons.injEq, and_true]
      apply UInt8.toNat_inj.mp
      simp
    rw [hbytes]
    exact reads_word _ (by omega)
  refine anywhere_bind htype ?_
  refine anywhere_bind (reads_take _ [0, 0, 0]) ?_
  refine anywhere_bind (reads_word _ (by omega)) ?_
  refine anywhere_bind (reads_word _ htotal) ?_
  exact anywhere_map (reads_take _ (leBytes 4 0)) (Reads.pure _)

private theorem reads_parsePayload (message : Dtx)
    (hlength : message.messageLength ≤ kDtxMaxMessageSize) :
    Reads Anywhere (parsePayload message.messageLength) (payloadBytes message)
      (wireMessageType message.messageType, message.auxiliary,
        message.payload) := by
  have hmax : kDtxMaxMessageSize < 2 ^ 32 := by decide
  have htotal : message.totalSize < 2 ^ 32 := by
    unfold messageLength at hlength
    omega
  have haux : message.auxiliarySize ≤ message.totalSize := by
    unfold totalSize
    omega
  have hpayload : message.totalSize - message.auxiliarySize =
      message.payload.length := by
    unfold totalSize
    omega
  refine anywhere_bind (reads_parsePayloadHeader message hlength) ?_
  simp only
  rw [if_neg (by omega), if_neg (by simp [messageLength]), hpayload]
  by_cases hempty : message.auxiliary.isEmpty
  · have hnil : message.auxiliary = [] := by simpa using hempty
    have hzero : message.auxiliarySize = 0 := by simp [auxiliarySize, hempty]
    rw [if_neg (by omega), if_pos hempty, hnil]
    refine anywhere_bind (Reads.pure []) ?_
    exact anywhere_map (reads_take _ _) (Reads.pure _)
  · have hsize : message.auxiliarySize = kDtxAuxiliaryHeaderSize +
        (encodeAuxiliaryBody message.auxiliary).length := by
      simp [auxiliarySize, hempty]
    have hbody : (encodeAuxiliaryBody message.auxiliary).length < 2 ^ 32 := by
      omega
    rw [if_pos (by rw [hsize]; simp [kDtxAuxiliaryHeaderSize]), if_neg hempty]
    refine anywhere_bind (reads_decodeAuxiliary message.auxiliary hbody) ?_
    exact anywhere_map (reads_take _ _) (Reads.pure _)

/-- What comes back for every unfragmented message within the size limit: the
message itself, with its type reduced to the header's one byte. -/
theorem parse_encode_eq (message : Dtx) (hcount : message.fragmentCount ≤ 1)
    (hlength : message.messageLength ≤ kDtxMaxMessageSize) :
    parse message.encode =
      .ok { message with
        messageType := wireMessageType message.messageType } := by
  have hread : Reads Anywhere parseMessage message.encode
      { message with messageType := wireMessageType message.messageType } := by
    rw [encode_eq]
    refine anywhere_bind reads_parseHeaderSize ?_
    refine anywhere_bind (reads_parseHeader message hcount hlength) ?_
    exact anywhere_map (reads_parsePayload message hlength) (Reads.pure _)
  have hrun := hread [] [] trivial
  simp only [List.nil_append, List.append_nil, List.length_nil,
    Nat.zero_add] at hrun
  simp [parse, hrun]

/-- The codec round-trips an unfragmented message within the size limit exactly
when the message type fits the one byte the payload header has for it, which
every named type does. -/
theorem parse_encode_eq_self_iff (message : Dtx)
    (hcount : message.fragmentCount ≤ 1)
    (hlength : message.messageLength ≤ kDtxMaxMessageSize) :
    parse message.encode = .ok message ↔ message.messageType.code < 256 := by
  rw [parse_encode_eq message hcount hlength, ← wireMessageType_eq_iff]
  constructor
  · intro h
    exact congrArg Dtx.messageType (Except.ok.inj h)
  · intro h
    rw [h]

theorem parse_encode_eq_self_iff_dispatch :
    parse (Dtx.encode { messageType := .dispatch, payload := [1, 2] }) =
        .ok { messageType := .dispatch, payload := [1, 2] } ↔
      DtxMessageType.dispatch.code < 256 :=
  parse_encode_eq_self_iff { messageType := .dispatch, payload := [1, 2] }
    (by decide) (by decide)

/-- A message whose type code is 256 comes back with type `ok`. -/
theorem parse_encode_messageType_256 :
    ¬ ∀ message : Dtx, message.fragmentCount ≤ 1 →
      message.messageLength ≤ kDtxMaxMessageSize →
      parse message.encode = .ok message := by
  intro h
  have hself := h { messageType := ⟨256⟩ } (by decide) (by decide)
  revert hself
  decide

end Ioscpp.Protocol.Dtx
