import Ioscpp.ByteStreamSimulation
import Ioscpp.ProcessControlRuns
import Ioscpp.Protocol.KeyedArchiveReaders

/-!
# Process control against a service

A service is what a device does with a selector and its arguments.  A device reads
each question with the reader of the standard format, asks its service, and
archives the process identifier that is the answer.  The calls then return what
the service answers, as if they were made on it directly.

## Main results

- `readQuestion_encode`: a device reads the selector and the arguments of a call.
- `results_turnsOf`: the turns give the answers of the service.
- `performAll_served`: calls made through a connection return what the service
  answers.
-/

namespace Ioscpp.ProcessControl

open Ioscpp.Support
open Ioscpp.Protocol
open Ioscpp.Protocol.Plist
open Ioscpp.Protocol.KeyedArchive
open Ioscpp.DtxConnection (Turn Answers transcript questions numbered nextAfter
  askAll leftOver)

/-! ## What a device does -/

/-- What is done with a question, a selector and its arguments, in a state of the
device: a refusal or a number, and the state behind it. -/
abbrev Service (δ : Type) := δ → Bytes → List Plist → Option UInt64 × δ

/-- An argument, which a call archives. -/
def readArgument : DtxValue → Result Plist
  | .buffer bytes => unarchiveWith Standard.readHead bytes
  | _ => .error (.error (protocolError "the argument is not archived"))

/-- A question as it is read: the message, its selector and its arguments. -/
def readQuestion (bytes : Bytes) : Result (Dtx × Bytes × List Plist) := do
  let message ← Dtx.parse bytes
  let selector ← unarchiveWith Standard.readHead message.payload
  let arguments ← message.auxiliary.mapM readArgument
  return (message, selector.stringOr [], arguments)

/-- The reply to a question. -/
def replyTo (message : Dtx) : Option UInt64 → Dtx
  | none =>
    { identifier := message.identifier
      conversationIndex := message.conversationIndex + 1
      channelCode := message.channelCode
      messageType := .error }
  | some value =>
    { identifier := message.identifier
      conversationIndex := message.conversationIndex + 1
      channelCode := message.channelCode
      messageType := .object
      payload := archive (.integer value.toInt64) }

/-- What a device sends for its questions, each with the messages of its own that
it sends before the reply.  A question that it cannot read has no reply. -/
def sends {δ : Type} (service : Service δ) : δ → List (Bytes × List Dtx) → List Dtx
  | _, [] => []
  | state, (bytes, own) :: rest =>
      match readQuestion bytes with
      | .error _ => own ++ sends service state rest
      | .ok (message, selector, arguments) =>
          own ++ replyTo message (service state selector arguments).1 ::
            sends service (service state selector arguments).2 rest

/-! ## What the calls are for -/

/-- What a call returns for the service's answer. -/
def Call.takes (answer : Option UInt64) : Call → Result Answer
  | .launch .. =>
      match answer with
      | none => .error (.error (deviceError (ascii "the launch" ++ ascii " was refused")))
      | some pid => .ok (.pid pid)
  | .processIdentifier _ =>
      match answer with
      | none => .error (.error
          (deviceError (ascii "the process lookup" ++ ascii " was refused")))
      | some pid => .ok (.pid pid)
  | .isRunning _ =>
      match answer with
      | none => .error (.error
          (deviceError (ascii "the process lookup" ++ ascii " was refused")))
      | some pid => .ok (.running (pid ≠ 0))
  | .kill _ =>
      match answer with
      | none => .error (.error (deviceError (ascii "the signal was refused")))
      | some _ => .ok .killed

/-- The calls made on the service itself. -/
def served {δ : Type} (service : Service δ) : δ → List Call → List (Result Answer)
  | _, [] => []
  | state, call :: rest =>
      call.takes (service state call.selector call.arguments).1 ::
        served service (service state call.selector call.arguments).2 rest

/-! ## Reading a question -/

/-- A leaf that is no reference, and that the standard reader reads as it is. -/
def Plain (leaf : Plist) : Prop := Standard.IsStandard leaf ∧ IsScalar leaf

theorem built_string {text : Bytes} (h : ∀ byte ∈ text, byte < 0x80) :
    Built Plain (.string text) :=
  built_leaf trivial ⟨h, trivial⟩

theorem built_integer {value : Int64} (h : ¬ Standard.ShortNegative value) :
    Built Plain (.integer value) :=
  built_leaf trivial ⟨h, trivial⟩

/-- The calls whose texts are ASCII, and whose numbers are written in the standard
form. -/
def Call.IsPlain : Call → Prop
  | .launch bundleId arguments _ _ => (∀ byte ∈ bundleId, byte < 0x80) ∧
      ∀ argument ∈ arguments, ∀ byte ∈ argument, byte < 0x80
  | .processIdentifier bundleId | .isRunning bundleId =>
      ∀ byte ∈ bundleId, byte < 0x80
  | .kill pid => ¬ Standard.ShortNegative pid.toInt64

/-- What an archive gives back to a device. -/
def IsRead (argument : Plist) : Prop :=
  Built Plain argument ∧ nesting argument ≤ kMaxNesting

theorem isRead_leaf {leaf : Plist} (hleaf : leaf.IsLeaf) (h : Built Plain leaf) :
    IsRead leaf :=
  ⟨h, by rw [nesting_leaf hleaf]; exact Nat.zero_le _⟩

theorem isRead_strings {texts : List Bytes}
    (h : ∀ text ∈ texts, ∀ byte ∈ text, byte < 0x80) :
    IsRead (.array (texts.map .string)) := by
  constructor
  · rw [built_array]
    intro item hmem
    obtain ⟨text, htext, rfl⟩ := List.mem_map.mp hmem
    exact built_string (h text htext)
  · rw [nesting_array_le]
    intro item hmem
    obtain ⟨text, -, rfl⟩ := List.mem_map.mp hmem
    have htext : nesting (.string text) = 0 := nesting_leaf trivial
    rw [htext]
    decide

/-- A dictionary of leaves. -/
theorem isRead_ofEntries {entries : List (Bytes × Plist)}
    (h : ∀ entry ∈ entries, (∀ byte ∈ entry.1, byte < 0x80) ∧
      entry.2.IsLeaf ∧ Built Plain entry.2) :
    IsRead (.dictionary (SortedMap.ofEntries entries)) := by
  constructor
  · exact built_ofEntries (fun entry hmem => ⟨(h entry hmem).1, trivial⟩)
      fun entry hmem => (h entry hmem).2.2
  · rw [nesting_dictionary_le]
    intro entry hmem
    rw [nesting_leaf (h entry (SortedMap.mem_ofEntries hmem)).2.1]
    decide

theorem ascii_plain (text : String)
    (h : (ascii text).all (· < 0x80) = true) : ∀ byte ∈ ascii text, byte < 0x80 := by
  simpa using h

theorem isRead_flag (flag : Bool) :
    Built Plain (.integer (if flag then 1 else 0)) := by
  refine built_integer ?_
  unfold Standard.ShortNegative
  cases flag <;> decide

theorem isRead_selector (call : Call) : IsRead (.string call.selector) := by
  refine isRead_leaf trivial (built_string ?_)
  cases call <;> exact ascii_plain _ (by decide +kernel)

theorem isRead_arguments {call : Call} (h : call.IsPlain) :
    ∀ argument ∈ call.arguments, IsRead argument := by
  cases call with
  | launch bundleId arguments killExisting startSuspended =>
      obtain ⟨hbundle, harguments⟩ := h
      simp only [Call.arguments, launchArguments, List.forall_mem_cons]
      refine ⟨?_, ?_, ?_, ?_, ?_, by simp⟩
      · exact isRead_leaf trivial (built_string (ascii_plain _ (by decide +kernel)))
      · exact isRead_leaf trivial (built_string hbundle)
      · refine isRead_ofEntries ?_
        simp only [List.forall_mem_cons]
        exact ⟨⟨ascii_plain _ (by decide +kernel), trivial,
          built_string (ascii_plain _ (by decide +kernel))⟩, by simp⟩
      · exact isRead_strings harguments
      · refine isRead_ofEntries ?_
        simp only [List.forall_mem_cons]
        exact ⟨⟨ascii_plain _ (by decide +kernel), trivial, isRead_flag _⟩,
          ⟨ascii_plain _ (by decide +kernel), trivial, isRead_flag _⟩, by simp⟩
  | processIdentifier bundleId =>
      simp only [Call.arguments, List.forall_mem_cons]
      exact ⟨isRead_leaf trivial (built_string h), by simp⟩
  | isRunning bundleId =>
      simp only [Call.arguments, List.forall_mem_cons]
      exact ⟨isRead_leaf trivial (built_string h), by simp⟩
  | kill pid =>
      simp only [Call.arguments, List.forall_mem_cons]
      refine ⟨isRead_leaf trivial (built_integer ?_),
        isRead_leaf trivial (built_integer h), by simp⟩
      unfold Standard.ShortNegative
      decide

theorem unarchiveWith_isRead {argument : Plist} (h : IsRead argument)
    (hfits : FitsVector (archive argument)) :
    unarchiveWith Standard.readHead (archive argument) = .ok argument := by
  obtain ⟨⟨hwell, hleaves⟩, hnesting⟩ := h
  have hstandard : argument.AllLeaves Standard.IsStandard :=
    hleaves.imp fun _ h => h.1
  have hscalars : argument.AllLeaves IsScalar := hleaves.imp fun _ h => h.2
  rw [unarchiveWith_standard hwell hstandard hscalars hfits, if_pos hnesting]

/-! ### Sizes -/

theorem length_encodeValue_ge (value : DtxValue) (out : Bytes) :
    out.length ≤ (Dtx.encodeValue value out).length := by
  cases value <;> simp [Dtx.encodeValue, Dtx.appendU32, Dtx.appendU64]

/-- An auxiliary buffer is a part of the auxiliary body. -/
theorem length_buffer_le {auxiliary : List DtxValue} {bytes : Bytes}
    (h : .buffer bytes ∈ auxiliary) :
    bytes.length ≤ (Dtx.encodeAuxiliaryBody auxiliary).length := by
  have hstep : ∀ (values : List DtxValue) (out : Bytes),
      out.length ≤ (values.foldl (fun body value => Dtx.encodeValue value
        (Dtx.appendU32 body DtxValue.null.type)) out).length ∧
      (.buffer bytes ∈ values → bytes.length ≤
        (values.foldl (fun body value => Dtx.encodeValue value
          (Dtx.appendU32 body DtxValue.null.type)) out).length) := by
    intro values
    induction values with
    | nil => intro out; simp
    | cons value rest ih =>
        intro out
        obtain ⟨hgrows, hholds⟩ := ih (Dtx.encodeValue value
          (Dtx.appendU32 out DtxValue.null.type))
        have hvalue := length_encodeValue_ge value
          (Dtx.appendU32 out DtxValue.null.type)
        have hnull : out.length ≤
            (Dtx.appendU32 out DtxValue.null.type).length := by
          simp [Dtx.appendU32]
        refine ⟨by rw [List.foldl_cons]; omega, fun hmem => ?_⟩
        rw [List.foldl_cons]
        rcases List.mem_cons.mp hmem with rfl | hmem
        · refine le_trans ?_ hgrows
          simp only [Dtx.encodeValue, Dtx.appendU32, List.length_append]
          omega
        · exact hholds hmem
  exact (hstep auxiliary []).2 h

/-- What a frame holds fits a vector. -/
theorem fits_of_framed {message : Dtx} (h : message.Framed) :
    FitsVector message.payload ∧
      ∀ bytes, .buffer bytes ∈ message.auxiliary → FitsVector bytes := by
  have hsmall := h.small
  have hmax : kDtxMaxMessageSize < 2 ^ 63 := by decide
  rw [Dtx.messageLength, Dtx.totalSize] at hsmall
  unfold FitsVector
  refine ⟨by omega, fun bytes hmem => ?_⟩
  have hbuffer := length_buffer_le hmem
  have hauxiliary : message.auxiliarySize = kDtxAuxiliaryHeaderSize +
      (Dtx.encodeAuxiliaryBody message.auxiliary).length := by
    rw [Dtx.auxiliarySize, if_neg]
    rw [List.isEmpty_iff]
    exact List.ne_nil_of_mem hmem
  omega

theorem framed_question {code : Int32} {call : Call}
    (h : (call.request code).Framed) (next : UInt32) (index : Nat) :
    (question next code call index).Framed :=
  ⟨h.unfragmented, h.small⟩

theorem payload_question (next : UInt32) (code : Int32) (call : Call) (index : Nat) :
    (question next code call index).payload = archive (.string call.selector) := rfl

theorem auxiliary_question (next : UInt32) (code : Int32) (call : Call)
    (index : Nat) : (question next code call index).auxiliary =
      call.arguments.map fun argument => .buffer (archive argument) := rfl

/-- A device reads the selector and the arguments of a call from the frame that the
library writes, with the standard reader of property lists. -/
theorem readQuestion_encode {code : Int32} {call : Call} (hplain : call.IsPlain)
    (hframed : (call.request code).Framed) (next : UInt32) (index : Nat) :
    readQuestion (question next code call index).encode =
      .ok (question next code call index, call.selector, call.arguments) := by
  have hquestion := framed_question hframed next index
  obtain ⟨hpayload, hbuffers⟩ := fits_of_framed hquestion
  have hparse : Dtx.parse (question next code call index).encode =
      .ok (question next code call index) := by
    rw [Dtx.parse_encode_eq _ hquestion.unfragmented hquestion.small]
    rfl
  have hselector : unarchiveWith Standard.readHead
      (question next code call index).payload = .ok (.string call.selector) := by
    rw [payload_question] at hpayload ⊢
    exact unarchiveWith_isRead (isRead_selector call) hpayload
  have harguments : (question next code call index).auxiliary.mapM readArgument =
      .ok call.arguments := by
    rw [auxiliary_question] at hbuffers ⊢
    refine ObjectGraph.mapM_eq_ok_iff.mpr (List.forall₂_map_left_iff.mpr ?_)
    refine List.forall₂_same.mpr fun argument hmem => ?_
    exact unarchiveWith_isRead (isRead_arguments hplain argument hmem)
      (hbuffers _ (List.mem_map_of_mem hmem))
  rw [readQuestion, hparse, ok_bind, hselector, ok_bind, harguments, ok_bind]
  rfl

/-! ## Taking an answer -/

/-- The service answers with numbers that the library reads back. The encoder shortens a
number whose high bit is then taken for a sign. -/
def Readable {δ : Type} (service : Service δ) : Prop :=
  ∀ state selector arguments value,
    (service state selector arguments).1 = some value → ¬ HighBitInt value.toInt64

theorem replyPid_replyTo {message : Dtx} {value : UInt64}
    (hvalue : ¬ HighBitInt value.toInt64)
    (hframed : (replyTo message (some value)).Framed) (what : Bytes) :
    replyPid (replyTo message (some value)).received what = .ok value := by
  have hpayload := (fits_of_framed hframed).1
  have hleaf : (Plist.integer value.toInt64).IsLeaf := trivial
  have hunarchive : unarchive (archive (.integer value.toInt64)) =
      .ok (.integer value.toInt64) := by
    rw [unarchive_archive_scalars (.leaf hleaf) (.leaf hleaf hvalue)
      (.leaf hleaf trivial) hpayload, nesting_leaf hleaf, if_pos (Nat.zero_le _)]
  have hnotError : (replyTo message (some value)).received.messageType ≠ .error := by
    change Dtx.wireMessageType .object ≠ .error
    decide
  have hreceived : (replyTo message (some value)).received.payload =
      archive (.integer value.toInt64) := rfl
  rw [replyPid, if_neg hnotError, hreceived, hunarchive, ok_bind]
  simp

/-- A call takes the service's answer from the reply. -/
theorem verdict_replyTo {message : Dtx} {answer : Option UInt64}
    (hvalue : ∀ value, answer = some value → ¬ HighBitInt value.toInt64)
    (hframed : (replyTo message answer).Framed) (call : Call) :
    call.verdict (replyTo message answer).received = call.takes answer := by
  cases answer with
  | none => cases call <;> rfl
  | some value =>
      have hpid := replyPid_replyTo (hvalue value rfl) hframed
      cases call with
      | launch => rw [Call.verdict, hpid]; rfl
      | processIdentifier => rw [Call.verdict, hpid]; rfl
      | isRunning => rw [Call.verdict, hpid]; rfl
      | kill => rfl

/-! ## A run against a service -/

/-- A turn takes the first message that answers its question. -/
theorem cut_append {asked reply : Dtx} {own : List Dtx} (rest : List Dtx)
    (hown : ∀ message ∈ own, ¬ Answers asked.identifier message)
    (hreply : Answers asked.identifier reply) :
    Turn.cut asked (own ++ reply :: rest) = ⟨asked, own, some reply⟩ := by
  induction own with
  | nil => simp [Turn.cut, hreply]
  | cons message own ih =>
      obtain ⟨hmessage, hothers⟩ := List.forall_mem_cons.mp hown
      have hrest := ih hothers
      rw [Turn.cut, Turn.mk.injEq] at hrest
      rw [List.cons_append, Turn.cut, Turn.mk.injEq,
        List.takeWhile_cons_of_pos (by simpa using hmessage),
        List.find?_cons_of_neg (by simpa using hmessage)]
      exact ⟨rfl, congrArg _ hrest.2.1, hrest.2.2⟩

/-- The questions of calls, as they are written, each with what the device sends
before its reply. -/
def asked (next : UInt32) (code : Int32) :
    List (Call × List Dtx) → Nat → List (Bytes × List Dtx)
  | [], _ => []
  | (call, own) :: rest, index =>
      ((question next code call index).encode, own) ::
        asked next code rest (index + 1)

/-- A device's own messages do not answer the question that they come after. -/
def OwnMessages (next : UInt32) : List (Call × List Dtx) → Nat → Prop
  | [], _ => True
  | (_, own) :: rest, index =>
      (∀ message ∈ own, ¬ Answers (next + UInt32.ofNat index) message) ∧
        OwnMessages next rest (index + 1)

/-- Calls that a device can read from their questions, when it sends these messages
of its own. -/
structure Askable (next : UInt32) (code : Int32)
    (exchanges : List (Call × List Dtx)) : Prop where
  plain : ∀ exchange ∈ exchanges, exchange.1.IsPlain
  framed : ∀ exchange ∈ exchanges, (exchange.1.request code).Framed
  own : OwnMessages next exchanges 0

section Served

variable {δ : Type} {service : Service δ} {code : Int32} {next : UInt32}
  {exchanges : List (Call × List Dtx)}

/-- What the device sends for a call that it reads. -/
theorem sends_cons {call : Call} {own : List Dtx} (hplain : call.IsPlain)
    (hframed : (call.request code).Framed) (state : δ) (index : Nat) :
    sends service state (asked next code ((call, own) :: exchanges) index) =
      own ++ replyTo (question next code call index)
          (service state call.selector call.arguments).1 ::
        sends service (service state call.selector call.arguments).2
          (asked next code exchanges (index + 1)) := by
  rw [asked, sends, readQuestion_encode hplain hframed]

/-- The turns of a run against a service. -/
def turnsOf (service : Service δ) (next : UInt32) (code : Int32) :
    δ → List (Call × List Dtx) → Nat → List Turn
  | _, [], _ => []
  | state, (call, own) :: rest, index =>
      let (answer, after) := service state call.selector call.arguments
      ⟨question next code call index, own,
          some (replyTo (question next code call index) answer)⟩ ::
        turnsOf service next code after rest (index + 1)

theorem transcript_sends (hplain : ∀ exchange ∈ exchanges, exchange.1.IsPlain)
    (hframed : ∀ exchange ∈ exchanges, (exchange.1.request code).Framed)
    {state : δ} {index : Nat} (hown : OwnMessages next exchanges index) :
    transcript (next + UInt32.ofNat index)
        (exchanges.map fun exchange => exchange.1.request code)
        (sends service state (asked next code exchanges index)) =
      (turnsOf service next code state exchanges index, []) := by
  induction exchanges generalizing state index with
  | nil => rfl
  | cons exchange rest ih =>
      obtain ⟨call, own⟩ := exchange
      obtain ⟨hcall, hcalls⟩ := List.forall_mem_cons.mp hplain
      obtain ⟨hquestion, hquestions⟩ := List.forall_mem_cons.mp hframed
      obtain ⟨hfirst, hlater⟩ := hown
      rw [sends_cons hcall hquestion, turnsOf]
      set answer := service state call.selector call.arguments with hanswer
      set reply := replyTo (question next code call index) answer.1 with hreplyTo
      have hreply : Answers (question next code call index).identifier reply := by
        rw [hreplyTo]
        have hpos : (0 : UInt32) < 0 + 1 := by decide
        cases answer.1 <;> exact ⟨rfl, hpos⟩
      have hcut := cut_append (sends service answer.2
        (asked next code rest (index + 1))) hfirst hreply
      have hnext : nextAfter (next + UInt32.ofNat index) (call.request code) =
          next + UInt32.ofNat (index + 1) := by
        rw [nextAfter_request, UInt32.ofNat_add, UInt32.add_assoc]
        rfl
      have hnumbered : numbered (next + UInt32.ofNat index) (call.request code) =
        question next code call index := rfl
      have hleft : leftOver ⟨question next code call index, own, some reply⟩
          (own ++ reply :: sends service answer.2
            (asked next code rest (index + 1))) =
          sends service answer.2 (asked next code rest (index + 1)) := by
        simp [leftOver, Turn.taken]
      rw [List.map_cons, transcript, hnumbered, hcut, hnext, hleft,
        ih hcalls hquestions hlater]

theorem replied_turnsOf {state : δ} {index : Nat} {turn : Turn}
    (h : turn ∈ turnsOf service next code state exchanges index) :
    ∃ reply, turn.reply = some reply := by
  induction exchanges generalizing state index with
  | nil => cases h
  | cons exchange rest ih =>
      rcases List.mem_cons.mp h with rfl | h
      · exact ⟨_, rfl⟩
      · exact ih h

/-- The turns give the answers of the service: each call takes from its reply the
number, or the refusal, that the service said. -/
theorem results_turnsOf (hreadable : Readable service) {state : δ} {index : Nat}
    (hframed : ∀ turn ∈ turnsOf service next code state exchanges index,
      ∀ reply ∈ turn.reply, reply.Framed) :
    List.zipWith Call.result (exchanges.map Prod.fst)
        (turnsOf service next code state exchanges index) =
      served service state (exchanges.map Prod.fst) := by
  induction exchanges generalizing state index with
  | nil => rfl
  | cons exchange rest ih =>
      obtain ⟨call, own⟩ := exchange
      rw [turnsOf] at hframed ⊢
      obtain ⟨hreply, hlater⟩ := List.forall_mem_cons.mp hframed
      have hverdict := verdict_replyTo
        (fun value hvalue => hreadable _ _ _ value hvalue) (hreply _ rfl) call
      rw [List.map_cons, served, List.zipWith_cons_cons, ih hlater]
      exact congrArg (· :: _) hverdict

/-- What a run against a service writes: the questions, each with an
acknowledgement of each message that came before its reply and expects one. -/
theorem bytes_turnsOf (state : δ) (index : Nat) :
    (turnsOf service next code state exchanges index).flatMap Turn.bytes =
      (asked next code exchanges index).flatMap fun question =>
        question.1 ++ question.2.flatMap Dtx.ackBytes := by
  induction exchanges generalizing state index with
  | nil => rfl
  | cons exchange rest ih =>
      obtain ⟨call, own⟩ := exchange
      have hreply (answer : Option UInt64) :
          Dtx.ackBytes (replyTo (question next code call index) answer) = [] := by
        cases answer <;> rfl
      rw [turnsOf, asked, List.flatMap_cons, List.flatMap_cons, ih, Turn.bytes,
        Turn.taken]
      simp [hreply]

/-- Calls that are made through a connection return what the service answers, as if
they were made on it directly: the device reads each call from the bytes of its
question, and each answer comes back to the call that it is for, whatever the
device sends in between and whatever stream carries the bytes. -/
theorem performAll_served {σ : Type} [ByteStream σ]
    {R : σ → MemoryByteStream → Prop} (hR : CarriesBytes R)
    {control : ProcessControl σ} (hattached : control.channel.attached = true)
    (hreadable : Readable service)
    (hask : Askable control.connection.nextIdentifier control.channel.code exchanges)
    {state : δ} {messages : List Dtx} {written : Bytes}
    (hmessages : messages = sends service state (asked
      control.connection.nextIdentifier control.channel.code exchanges 0))
    (hsent : ∀ message ∈ messages, message.Framed)
    (hstream : R control.connection.stream
      ⟨messages.flatMap Dtx.encode, written⟩)
    {fuel : Nat} (hfuel : messages.length < fuel) :
    (performAll fuel (exchanges.map Prod.fst) control).1 =
        served service state (exchanges.map Prod.fst) ∧
      R (performAll fuel (exchanges.map Prod.fst) control).2.connection.stream
        ⟨[], written ++ (asked control.connection.nextIdentifier
          control.channel.code exchanges 0).flatMap fun question =>
            question.1 ++ question.2.flatMap Dtx.ackBytes⟩ := by
  obtain ⟨connection, channel⟩ := control
  dsimp only at *
  have hturns := @transcript_sends δ service channel.code
    connection.nextIdentifier exchanges hask.plain hask.framed state 0 hask.own
  have htaken := DtxConnection.taken_transcript
    (connection.nextIdentifier + UInt32.ofNat 0)
    (exchanges.map fun exchange => exchange.1.request channel.code) messages
  have hzero : connection.nextIdentifier + UInt32.ofNat 0 =
      connection.nextIdentifier := by simp
  rw [hzero, ← hmessages] at hturns
  rw [hzero, hturns, List.append_nil] at htaken
  -- the run in memory, which the stream follows
  have hmemory := @DtxConnection.run_askAll
    { connection with stream := ⟨messages.flatMap Dtx.encode, written⟩ }
    (exchanges.map fun exchange => exchange.1.request channel.code) messages fuel
    hsent rfl hfuel
  dsimp only at hmemory
  rw [hturns] at hmemory
  obtain ⟨hresults, hlast⟩ := @DtxConnection.askAll_carried σ _ R hR fuel
    (exchanges.map fun exchange => exchange.1.request channel.code) connection
    { connection with stream := ⟨messages.flatMap Dtx.encode, written⟩ }
    ⟨hstream, rfl, rfl, rfl⟩ (by
      rw [hmemory]
      intro result hmem
      obtain ⟨turn, hturn, rfl⟩ := List.mem_map.mp hmem
      obtain ⟨reply, hreply⟩ := replied_turnsOf hturn
      exact ⟨reply.received, by rw [Turn.outcome, hreply]⟩)
  rw [hmemory] at hresults hlast
  rw [performAll_eq hattached, List.map_map]
  constructor
  · have hserved := @results_turnsOf δ service channel.code
      connection.nextIdentifier exchanges hreadable state 0 (by
        intro turn hturn reply hreply
        refine hsent reply ?_
        rw [← htaken]
        refine List.mem_flatMap_of_mem hturn ?_
        rw [Turn.taken, Option.mem_def.mp hreply]
        simp)
    change List.zipWith _ _ (askAll fuel (exchanges.map fun exchange =>
      exchange.1.request channel.code) connection).1 = _
    rw [hresults, List.zipWith_map_right]
    exact hserved
  · have hstream' := hlast.stream
    dsimp only at hstream'
    rw [bytes_turnsOf] at hstream'
    exact hstream'

end Served

end Ioscpp.ProcessControl
