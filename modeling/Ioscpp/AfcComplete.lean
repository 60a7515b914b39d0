import Ioscpp.AfcTransfer

/-!
# Transfers that report success

What a device accepted and what it served are read off the stream: each packet
is paired with the two reads that followed it, the header and the data of its
answer.  A push that succeeds wrote the chunks of the local file, up to the first
read that returned nothing; a pull that succeeds handed everything that was
served to `std::fwrite`.  So a transfer is complete for every device exactly when
no read error looks like the end of the file, and closing the local file loses
nothing.

## Main results

- `triple_push_logged`: a push that succeeds had the chunks of the local file
  accepted.
- `triple_pull_logged`: after a pull that succeeds the local file holds what was
  served, but for what closing it lost.
- `transfers_complete_iff`: for every device, when a transfer that reports success is
  complete.
-/

namespace Ioscpp

open Ioscpp.Support
open Ioscpp.Support.Action

/-! ## The exchanges of a stream -/

namespace Afc

/-- A packet, with the header and the data of its answer, as the two reads behind it
returned them. -/
structure Exchange where
  request : Bytes
  header : Bytes
  data : Bytes
  deriving DecidableEq, Repr

/-- Pairs each packet with two reads. -/
def exchanges : List Bytes → List Bytes → List Exchange
  | request :: sent, header :: data :: received =>
      ⟨request, header, data⟩ :: exchanges sent received
  | _, _ => []

/-- The payload of the request: what follows the part that `this_length`
covers. -/
def Exchange.payload (exchange : Exchange) : Bytes :=
  exchange.request.drop (word exchange.request 16).toNat

/-- A write whose answer reports no error. -/
def Exchange.IsAcceptedWrite (exchange : Exchange) : Prop :=
  word exchange.request 32 = kOpFileWrite ∧
    ¬ (word exchange.header 32 = kOpStatus ∧ word exchange.data 0 ≠ 0)

/-- A read whose answer is data and not a status. -/
def Exchange.IsServedRead (exchange : Exchange) : Prop :=
  word exchange.request 32 = kOpFileRead ∧ word exchange.header 32 ≠ kOpStatus

instance (exchange : Exchange) : Decidable exchange.IsAcceptedWrite :=
  inferInstanceAs (Decidable (_ ∧ _))

instance (exchange : Exchange) : Decidable exchange.IsServedRead :=
  inferInstanceAs (Decidable (_ ∧ _))

theorem exchanges_append {sent received : List Bytes}
    (h : received.length = 2 * sent.length) (sent' received' : List Bytes) :
    exchanges (sent ++ sent') (received ++ received') =
      exchanges sent received ++ exchanges sent' received' := by
  induction sent generalizing received with
  | nil =>
      obtain rfl := List.eq_nil_of_length_eq_zero h
      rfl
  | cons request sent ih =>
      match received, h with
      | header :: data :: received, h =>
          have hlength : received.length = 2 * sent.length := by
            simp only [List.length_cons] at h
            omega
          rw [List.cons_append, List.cons_append, List.cons_append, exchanges,
            ih hlength, exchanges, List.cons_append]

/-- Every exchange has one of the packets. -/
theorem request_mem_of_exchanges {sent received : List Bytes}
    {exchange : Exchange} (h : exchange ∈ exchanges sent received) :
    exchange.request ∈ sent := by
  induction sent generalizing received with
  | nil => cases h
  | cons request sent ih =>
      match received, h with
      | [], h => cases h
      | [header], h => cases h
      | header :: data :: received, h =>
          rcases List.mem_cons.mp h with rfl | hmem
          · exact List.mem_cons_self
          · exact List.mem_cons_of_mem _ (ih hmem)

end Afc

namespace AfcLink

open Afc

/-- The payloads of the writes that the device accepted. -/
def accepted (link : AfcLink) : List Bytes :=
  ((exchanges link.sent link.received).filter (·.IsAcceptedWrite)).map
    Exchange.payload

/-- What the device served for the file. -/
def served (link : AfcLink) : List Bytes :=
  ((exchanges link.sent link.received).filter (·.IsServedRead)).map
    Exchange.data

/-- Every packet has its two reads. -/
def Paired (link : AfcLink) : Prop :=
  link.received.length = 2 * link.sent.length

theorem triple_write (link : AfcLink) (packet : Bytes) :
    Triple (fun state => state = link) (ByteStream.write packet)
      (fun _ state => ∃ reply, state = link.asked packet reply)
      (fun _ state => state = link) := by
  change Triple _ (write packet) _ _
  refine Triple.get_bind fun state hstate => ?_
  subst hstate
  cases hrespond : state.respond (state.sent ++ [packet]) with
  | none => exact Triple.fail fun _ heq => heq
  | some reply =>
      rintro _ rfl
      exact ⟨reply, rfl⟩

theorem triple_readExact (link : AfcLink) (count : Nat) :
    Triple (fun state => state = link) (ByteStream.readExact count)
      (fun data state => data.length = count ∧ state = link.took data)
      (fun _ state => state = link) := by
  change Triple _ (readExact count) _ _
  refine Triple.get_bind fun state hstate => ?_
  subst hstate
  refine Triple.ite (fun hle => ?_) fun _ => Triple.fail fun _ heq => heq
  rintro _ rfl
  exact ⟨List.length_take_of_le hle, rfl⟩

end AfcLink

/-! ## What an exchange adds -/

namespace Afc

/-- What is accepted is the answer itself. -/
theorem eq_of_checkAnswer {packet answer : Packet}
    (h : checkAnswer packet = .ok answer) : answer = packet := by
  rw [checkAnswer] at h
  split at h
  · split at h
    · cases h
    · rw [getLe64_eq (by omega), ok_bind] at h
      split at h
      · cases h
      · cases h
        rfl
  · split at h
    · cases h
    · cases h
      rfl

theorem operation_of_parseHeader {packetNum : UInt64} {header : Bytes}
    {fields : UInt64 × Nat} (hlength : header.length = kHeaderSize)
    (h : parseHeader packetNum header = .ok fields) :
    fields.1 = word header 32 := by
  rw [parseHeader_eq packetNum hlength] at h
  split at h
  · cases h
  split at h
  · cases h
  split at h
  · cases h
  · cases h
    rfl

theorem triple_onStream_readExact (link : AfcLink) (client : Afc) (count : Nat) :
    Triple (fun state => state = (link, client))
      (onStream (ByteStream.readExact count))
      (fun data state => data.length = count ∧ state = (link.took data, client))
      (fun _ state => state = (link, client)) := by
  refine Triple.zoom fun state hstate => ?_
  subst hstate
  exact (AfcLink.triple_readExact link count).imp_post
    (fun data part hpart => ⟨hpart.1, by rw [hpart.2]⟩)
    fun fault part hpart => by rw [hpart]

/-- What a receive reads: the header and the data of the answer, or a part of
them when it fails. -/
theorem triple_receive (link : AfcLink) (client : Afc) :
    Triple (fun state => state = (link, client)) receive
      (fun answer state => ∃ header, answer.operation = word header 32 ∧
        state.1 = (link.took header).took answer.data)
      (fun _ state => state.1.sent = link.sent ∧
        ∃ received, state.1.received = link.received ++ received) := by
  have hheader := triple_onStream_readExact link client kHeaderSize
  refine Triple.bind (hheader.imp_post (fun _ _ hpost => hpost) ?_) fun header => ?_
  · rintro _ _ rfl
    exact ⟨rfl, [], (List.append_nil _).symm⟩
  refine Triple.get_bind fun state hstate => ?_
  obtain ⟨hlength, rfl⟩ := hstate
  cases hparse : parseHeader client.packetNum header with
  | error fault =>
      rintro _ rfl
      exact ⟨rfl, [header], rfl⟩
  | ok fields =>
      have hoperation := operation_of_parseHeader hlength hparse
      refine Triple.lift_ok_bind ?_
      rw [resize]
      split
      · rintro _ rfl
        exact ⟨rfl, [header], rfl⟩
      refine Triple.lift_ok_bind ?_
      have hdata := triple_onStream_readExact (link.took header) client fields.2
      refine Triple.bind (hdata.imp_post (fun _ _ hpost => hpost) ?_) fun data => ?_
      · rintro _ _ rfl
        exact ⟨rfl, [header], rfl⟩
      · rintro state ⟨-, rfl⟩
        exact ⟨header, hoperation, rfl⟩

theorem triple_send (operation : UInt64) (extra payload : Bytes)
    (link : AfcLink) (number : UInt64) :
    Triple (fun state => state = (link, (⟨number⟩ : Afc)))
      (send operation extra payload)
      (fun _ state => ∃ reply, state =
        (link.asked (requestPacket (number + 1) operation extra payload) reply,
          ⟨number + 1⟩))
      (fun _ state => state.1 = link) := by
  refine Triple.bind_of_run (run_modify _ _) ?_
  refine Triple.bind_of_run (run_get _) ?_
  refine Triple.zoom fun state hstate => ?_
  subst hstate
  refine (AfcLink.triple_write link _).imp_post ?_ fun _ _ hpart => hpart
  rintro _ part ⟨reply, rfl⟩
  exact ⟨reply, rfl⟩

/-- After an exchange with any device: when there is an answer, the packet has
its two reads; in any case there is no other packet. -/
theorem triple_transact_any (operation : UInt64) (extra payload : Bytes)
    (link : AfcLink) (number : UInt64) {packet : Bytes}
    (hpacket : packet = requestPacket (number + 1) operation extra payload) :
    Triple (fun state => state = (link, (⟨number⟩ : Afc)))
      (transact operation extra payload)
      (fun answer state => checkAnswer answer = .ok answer ∧
        ∃ reply header, answer.operation = word header 32 ∧
          state.1 = ((link.asked packet reply).took header).took answer.data)
      (fun _ state => ∃ sent received, (∀ other ∈ sent, other = packet) ∧
        state.1.sent = link.sent ++ sent ∧
        state.1.received = link.received ++ received) := by
  subst hpacket
  refine Triple.bind ((triple_send operation extra payload link number).imp_post
    (fun _ _ hpost => hpost) ?_) fun _ => Triple.of_state fun state hstate => ?_
  · rintro _ state rfl
    exact ⟨[], [], by simp, by simp, by simp⟩
  obtain ⟨reply, rfl⟩ := hstate
  refine Triple.bind ((triple_receive _ _).imp_post (fun _ _ hpost => hpost) ?_)
    fun answer => ?_
  · rintro _ state ⟨hsent, received, hreceived⟩
    exact ⟨[_], received, by simp, hsent, hreceived⟩
  refine Triple.lift ?_ ?_
  · rintro checked hchecked state ⟨header, hoperation, hstate⟩
    obtain rfl := eq_of_checkAnswer hchecked
    exact ⟨hchecked, reply, header, hoperation, hstate⟩
  · rintro fault - state ⟨header, hoperation, hstate⟩
    rw [hstate]
    exact ⟨[_], [header, answer.data], by simp, rfl, by simp [AfcLink.took, AfcLink.asked]⟩

/-! ## What is accepted and served -/

/-- A stream whose packets have their answers, with what was accepted and served
so far. -/
structure Logged (accepted served : List Bytes) (state : AfcLink × Afc) :
    Prop where
  paired : state.1.Paired
  accepted : state.1.accepted = accepted
  served : state.1.served = served

theorem accepts_of_checkAnswer {answer : Packet}
    (h : checkAnswer answer = .ok answer) :
    ¬ (answer.operation = kOpStatus ∧ word answer.data 0 ≠ 0) := by
  rintro ⟨hstatus, hcode⟩
  rw [checkAnswer, if_pos hstatus] at h
  split at h
  · cases h
  · rw [getLe64_eq (by omega), ok_bind, if_pos hcode] at h
    cases h

theorem operation_packet (number operation : UInt64) (extra payload : Bytes) :
    word (requestPacket number operation extra payload) 32 = operation :=
  Request.word_packet ⟨operation, extra, payload⟩ number

/-- The payload of a request with a handle. -/
theorem payload_packet (number operation : UInt64) {extra : Bytes}
    (payload : Bytes) (h : extra.length = 8) :
    (requestPacket number operation extra payload).drop
      (word (requestPacket number operation extra payload) 16).toNat =
      payload := by
  have hword : word (requestPacket number operation extra payload) 16 =
      UInt64.ofNat (UInt64.ofNat (kHeaderSize + extra.length)).toNat := by
    refine word_eq (kMagic ++ putLe64 (UInt64.ofNat
      (kHeaderSize + extra.length + payload.length)))
      (putLe64 number ++ putLe64 operation ++ extra ++ payload) ?_ ?_
    · simp only [requestPacket, putLe64, List.append_assoc]
    · simp [length_kMagic]
  rw [hword, h]
  refine List.drop_left' ?_
  simp [length_kMagic, h, kHeaderSize]

section Append

variable {link next : AfcLink}

theorem accepted_append {more : List Exchange}
    (h : exchanges next.sent next.received =
      exchanges link.sent link.received ++ more) :
    next.accepted = link.accepted ++
      (more.filter (·.IsAcceptedWrite)).map Exchange.payload := by
  rw [AfcLink.accepted, h, List.filter_append, List.map_append,
    AfcLink.accepted]

theorem served_append {more : List Exchange}
    (h : exchanges next.sent next.received =
      exchanges link.sent link.received ++ more) :
    next.served = link.served ++
      (more.filter (·.IsServedRead)).map Exchange.data := by
  rw [AfcLink.served, h, List.filter_append, List.map_append, AfcLink.served]

/-- Packets that are neither writes nor reads add nothing, whatever was read. -/
theorem log_append (hpaired : link.Paired) {sent received : List Bytes}
    (hsent : next.sent = link.sent ++ sent)
    (hreceived : next.received = link.received ++ received)
    (h : ∀ packet ∈ sent, word packet 32 ≠ kOpFileWrite ∧
      word packet 32 ≠ kOpFileRead) :
    next.accepted = link.accepted ∧ next.served = link.served := by
  have hexchanges : exchanges next.sent next.received =
      exchanges link.sent link.received ++ exchanges sent received := by
    rw [hsent, hreceived, exchanges_append hpaired]
  have haccepted : (exchanges sent received).filter (·.IsAcceptedWrite) = [] := by
    refine List.filter_eq_nil_iff.mpr fun exchange hmem haccepted => ?_
    exact (h _ (request_mem_of_exchanges hmem)).1 (of_decide_eq_true haccepted).1
  have hserved : (exchanges sent received).filter (·.IsServedRead) = [] := by
    refine List.filter_eq_nil_iff.mpr fun exchange hmem hserved => ?_
    exact (h _ (request_mem_of_exchanges hmem)).2 (of_decide_eq_true hserved).1
  rw [accepted_append hexchanges, served_append hexchanges, haccepted, hserved]
  exact ⟨List.append_nil _, List.append_nil _⟩

end Append

/-- What one exchange is to the log. -/
theorem filter_exchange {exchange : Exchange} {operation : UInt64}
    {payload : Bytes} (hoperation : word exchange.request 32 = operation)
    (hpayload : operation = kOpFileWrite → exchange.payload = payload)
    (haccepts : ¬ (word exchange.header 32 = kOpStatus ∧
      word exchange.data 0 ≠ 0)) :
    ([exchange].filter (·.IsAcceptedWrite)).map Exchange.payload =
        (if operation = kOpFileWrite then [payload] else []) ∧
      ([exchange].filter (·.IsServedRead)).map Exchange.data =
        if operation = kOpFileRead ∧ word exchange.header 32 ≠ kOpStatus then
          [exchange.data] else [] := by
  have hwrite : exchange.IsAcceptedWrite ↔ operation = kOpFileWrite := by
    rw [← hoperation]
    exact ⟨fun h => h.1, fun h => ⟨h, haccepts⟩⟩
  have hread : exchange.IsServedRead ↔
      operation = kOpFileRead ∧ word exchange.header 32 ≠ kOpStatus := by
    rw [← hoperation]
    exact Iff.rfl
  refine ⟨?_, ?_⟩
  · rw [List.filter_singleton]
    by_cases h : operation = kOpFileWrite
    · rw [if_pos h, decide_eq_true (hwrite.mpr h), ← hpayload h]
      rfl
    · rw [if_neg h, decide_eq_false fun hmem => h (hwrite.mp hmem)]
      rfl
  · rw [List.filter_singleton]
    by_cases h : operation = kOpFileRead ∧ word exchange.header 32 ≠ kOpStatus
    · rw [if_pos h, decide_eq_true (hread.mpr h)]
      rfl
    · rw [if_neg h, decide_eq_false fun hmem => h (hread.mp hmem)]
      rfl

/-- What an exchange adds to the log. -/
theorem triple_transact_logged {accepted served : List Bytes}
    {operation : UInt64} {extra payload : Bytes}
    (h : operation = kOpFileWrite → extra.length = 8) :
    Triple (Logged accepted served) (transact operation extra payload)
      (fun answer => Logged
        (accepted ++ if operation = kOpFileWrite then [payload] else [])
        (served ++ if operation = kOpFileRead ∧ answer.operation ≠ kOpStatus then
          [answer.data] else []))
      (fun _ _ => True) := by
  rintro ⟨link, ⟨number⟩⟩ hlog
  have hany := triple_transact_any operation extra payload link number rfl
  have hoperation := operation_packet (number + 1) operation extra payload
  have hpayload := fun hwrite =>
    payload_packet (number + 1) operation payload (h hwrite)
  generalize requestPacket (number + 1) operation extra payload = packet at *
  refine (hany.imp_post ?_ fun _ _ _ => trivial) _ rfl
  rintro answer ⟨next, client⟩ ⟨hcheck, reply, header, hanswer,
    hnext : next = _⟩
  have haccepts := accepts_of_checkAnswer hcheck
  rw [hanswer] at haccepts
  have hsent : next.sent = link.sent ++ [packet] := by
    rw [hnext]
    rfl
  have hreceived : next.received = link.received ++ [header, answer.data] := by
    rw [hnext]
    exact List.append_assoc _ _ _
  have hexchanges : exchanges next.sent next.received =
      exchanges link.sent link.received ++ [⟨packet, header, answer.data⟩] := by
    rw [hsent, hreceived, exchanges_append hlog.paired]
    rfl
  obtain ⟨hwrite, hread⟩ := @filter_exchange ⟨packet, header, answer.data⟩
    operation payload hoperation hpayload haccepts
  refine ⟨?_, ?_, ?_⟩
  · have hpaired := hlog.paired
    unfold AfcLink.Paired at *
    rw [hsent, hreceived, List.length_append, List.length_append, hpaired]
    simp only [List.length_cons, List.length_nil]
    omega
  · rw [accepted_append hexchanges, hwrite, hlog.accepted]
  · rw [served_append hexchanges, hread, hlog.served, hanswer]

/-! ## What the transfers add -/

section Transfers

variable {φ : Type} {accepted served : List Bytes}

theorem triple_openFile_logged (path : Bytes) (mode : UInt64) :
    Triple (Logged accepted served) (openFile path mode)
      (fun _ => Logged accepted served) (fun _ _ => True) := by
  have hopen := @triple_transact_logged accepted served kOpFileOpen
    (appendPath (putLe64 mode) path) [] fun h => absurd h (by decide)
  refine hopen.bind fun answer => ?_
  rw [if_neg (by decide), if_neg (fun h => absurd h.1 (by decide)),
    List.append_nil, List.append_nil]
  exact Triple.ite (fun _ => Triple.fail fun _ _ => trivial)
    fun _ => Triple.lift (fun _ _ _ h => h) fun _ _ _ _ => trivial

/-- The close adds nothing, whatever becomes of it. -/
theorem triple_close_logged (handle : UInt64) (file : φ) :
    Triple (fun state => Logged accepted served state.1 ∧ state.2 = file)
      (outcome (onClient (transact kOpFileClose (putLe64 handle) [])))
      (fun _ state => state.1.1.accepted = accepted ∧
        state.1.1.served = served ∧ state.2 = file) (fun _ _ => True) := by
  refine (Triple.outcome_any (R := fun state => state.1.1.accepted = accepted ∧
    state.1.1.served = served ∧ state.2 = file) ?_).imp_post
    (fun _ _ hpost => hpost) fun _ _ _ => trivial
  refine Triple.zoom fun state hstate => ?_
  obtain ⟨⟨link, ⟨number⟩⟩, part⟩ := state
  obtain ⟨hlog, rfl⟩ := hstate
  have hoperation := operation_packet (number + 1) kOpFileClose
    (putLe64 handle) []
  have hother : ∀ next : AfcLink, ∀ sent received : List Bytes,
      (∀ other ∈ sent, other =
        requestPacket (number + 1) kOpFileClose (putLe64 handle) []) →
      next.sent = link.sent ++ sent → next.received = link.received ++ received →
      next.accepted = accepted ∧ next.served = served ∧ part = part := by
    intro next sent received hsent hnext hreceived
    obtain ⟨haccepted, hserved⟩ := log_append hlog.paired hnext hreceived
      fun packet hmem => by
        rw [hsent packet hmem, hoperation]
        decide
    exact ⟨haccepted.trans hlog.accepted, hserved.trans hlog.served, rfl⟩
  refine (triple_transact_any kOpFileClose (putLe64 handle) [] link number
    rfl).imp_post ?_ ?_
  · rintro answer ⟨next, client⟩ ⟨-, reply, header, -, rfl : next = _⟩
    exact hother _ [_] [header, answer.data] (by simp) rfl (List.append_assoc _ _ _)
  · rintro fault ⟨next, client⟩ ⟨sent, received, hsent, hnext, hreceived⟩
    exact hother next sent received hsent hnext hreceived

/-- The loop has the chunks of the file accepted. -/
theorem triple_pushLoop_logged (handle : UInt64) (fuel : Nat)
    (file : SourceFile) :
    Triple (fun state => Logged accepted served state.1 ∧ state.2 = file)
      (pushLoop handle fuel)
      (fun _ state => Logged (accepted ++ file.chunks fuel) served state.1)
      (fun _ _ => True) := by
  induction fuel generalizing file accepted with
  | zero => exact Triple.lift (fun _ h => by cases h) fun _ _ _ _ => trivial
  | succ fuel ih =>
      rw [pushLoop, SourceFile.chunks]
      refine (triple_onFile file.run_fread).bind fun chunk => ?_
      refine Triple.ite (fun hempty => ?_) fun hnonempty => ?_
      · rintro state ⟨rfl, hlog, -⟩
        rw [if_pos hempty, List.append_nil]
        exact hlog
      · refine Triple.of_state fun state hstate => ?_
        obtain ⟨rfl, hlog, hfile⟩ := hstate
        have hwrite := triple_onClient (@triple_transact_logged accepted served
          kOpFileWrite (putLe64 handle) file.next fun _ => length_putLe64 _)
          file.rest
        rw [if_neg hnonempty, List.append_cons]
        refine Triple.bind (hwrite.at_state ⟨hlog, hfile⟩) fun answer => ?_
        rw [if_pos rfl, if_neg (fun h => absurd h.1 (by decide)), List.append_nil]
        exact ih file.rest

/-- A push that succeeds, to any device, has the chunks of the file accepted: each chunk
was sent in a write, and the device answered that write without an error. -/
theorem triple_push_logged (remote : Bytes) (file : SourceFile) :
    Triple (fun state => Logged accepted served state.1 ∧ state.2 = file)
      (push remote)
      (fun _ state => state.1.1.accepted =
        accepted ++ file.chunks (file.unread.length + 1))
      (fun _ _ => True) := by
  refine Triple.get_bind fun state hstate => ?_
  rw [hstate.2]
  refine Triple.ite (fun _ => ?_) fun _ => Triple.fail fun _ _ => trivial
  have hopen := triple_onClient (@triple_openFile_logged accepted served remote
    kFopenWr) file
  refine Triple.bind (hopen.at_state hstate) fun handle => ?_
  refine Triple.bind (triple_pushLoop_logged handle _ file).outcome
    fun result => ?_
  cases result with
  | ok =>
      refine Triple.of_state fun state hlog => ?_
      refine Triple.bind ((triple_close_logged handle state.2).at_state
        ⟨hlog, rfl⟩) fun _ => ?_
      exact Triple.lift (fun _ _ _ hpost => hpost.1) fun _ _ _ _ => trivial
  | error fault =>
      refine Triple.bind (Q := fun _ _ => True) ?_
        fun _ => Triple.lift (fun _ h => by cases h) fun _ _ _ _ => trivial
      exact fun state _ => by split <;> trivial

theorem TargetFile.run_fwrite_any (file : TargetFile) (data : Bytes) :
    (TargetFile.fwrite data).run file =
      (.ok (min data.length (file.writes file.calls)),
        file.take (data.take (min data.length (file.writes file.calls)))) := rfl

/-- The loop hands what is served to the local file. -/
theorem triple_pullLoop_logged (handle : UInt64) (fuel : Nat)
    (file : TargetFile) :
    Triple (fun state => Logged accepted served state.1 ∧ state.2 = file)
      (pullLoop handle fuel)
      (fun _ state => ∃ more, Logged accepted (served ++ more) state.1 ∧
        state.2.taken = file.taken ++ more.flatten ∧
        state.2.lost = file.lost ∧
        (file.writes file.calls = 0 → more.flatten = []))
      (fun _ _ => True) := by
  induction fuel generalizing file served with
  | zero => exact Triple.lift (fun _ h => by cases h) fun _ _ _ _ => trivial
  | succ fuel ih =>
      have hread := triple_onClient (@triple_transact_logged accepted served
        kOpFileRead (putLe64 handle ++ putLe64 (UInt64.ofNat kChunkSize)) []
        fun h => absurd h (by decide)) file
      refine hread.bind fun answer => ?_
      rw [if_neg (by decide), List.append_nil]
      refine Triple.ite (fun hend => ?_) fun hgoes => ?_
      · -- the data of the last answer is empty, or it is a status
        rintro state ⟨hlog, rfl⟩
        have hnothing : (if kOpFileRead = kOpFileRead ∧
            answer.operation ≠ kOpStatus then [answer.data] else []).flatten =
            [] := by
          rcases hend with hstatus | hempty
          · simp [hstatus]
          · simp [hempty]
        refine ⟨_, hlog, ?_, rfl, fun _ => hnothing⟩
        rw [hnothing, List.append_nil]
      · obtain ⟨hstatus, hdata⟩ := not_or.mp hgoes
        rw [if_pos ⟨rfl, hstatus⟩]
        refine (triple_onFile (file.run_fwrite_any answer.data)).bind
          fun count => ?_
        refine Triple.of_state fun state hstate => ?_
        obtain ⟨rfl, hlog, hfile⟩ := hstate
        refine Triple.ite (fun _ => Triple.fail fun _ _ => trivial) fun hwhole => ?_
        rw [not_not] at hwhole
        rw [hwhole, List.take_length] at hfile
        refine ((ih (file.take answer.data)).at_state ⟨hlog, hfile⟩).imp_post
          ?_ fun _ _ _ => trivial
        rintro _ state ⟨more, hlog, htaken, hlost, -⟩
        refine ⟨[answer.data] ++ more, ?_, ?_, hlost, fun hzero => ?_⟩
        · rw [← List.append_assoc]
          exact hlog
        · rw [htaken]
          simp [TargetFile.take]
        · rw [hzero, Nat.min_zero] at hwhole
          exact absurd (List.eq_nil_of_length_eq_zero hwhole.symm) hdata

/-- After a pull that succeeds the local file holds what was served, but for what
was lost when it was closed. -/
theorem triple_pull_logged (turns : Nat) (remote : Bytes) (file : TargetFile) :
    Triple (fun state => Logged accepted [] state.1 ∧ state.2 = file)
      (pull turns remote)
      (fun _ state => file.opens = true ∧
        state.2.taken = state.1.1.served.flatten ∧
        state.2.content =
          state.2.taken.take (state.2.taken.length - file.lost) ∧
        (file.writes file.calls = 0 → state.1.1.served.flatten = []))
      (fun _ _ => True) := by
  have hopen := triple_onClient (@triple_openFile_logged accepted [] remote
    kFopenRdonly) file
  refine hopen.bind fun handle => ?_
  by_cases hopens : file.opens = true
  · refine (triple_onFile (TargetFile.run_fopen hopens)).bind fun opened => ?_
    refine Triple.of_state fun state hstate => ?_
    obtain ⟨rfl, hstate⟩ := hstate
    rw [if_pos rfl]
    refine Triple.bind ((triple_pullLoop_logged handle turns
      file.opened).outcome.at_state hstate) fun result => ?_
    cases result with
    | ok =>
        refine Triple.of_state fun state hstate => ?_
        obtain ⟨more, hlog, htaken, hlost, hnone⟩ := hstate
        refine Triple.bind ((triple_onFile (TargetFile.run_fclose
          state.2)).at_state ⟨hlog, rfl⟩) fun _ => ?_
        refine Triple.of_state fun next hnext => ?_
        refine Triple.bind ((triple_close_logged handle next.2).at_state
          ⟨hnext.2.1, rfl⟩) fun _ => ?_
        refine Triple.lift (fun _ _ last hlast => ?_) fun _ _ _ _ => trivial
        obtain ⟨-, hserved, hfile⟩ := hlast
        rw [hserved, hfile, hnext.2.2, TargetFile.closed, hlost]
        exact ⟨hopens, htaken, rfl, hnone⟩
    | error fault =>
        refine Triple.bind (Q := fun _ _ => True) (fun _ _ => trivial) fun _ => ?_
        refine Triple.bind (Q := fun _ _ => True) ?_ fun _ =>
          Triple.lift (fun _ h => by cases h) fun _ _ _ _ => trivial
        exact fun state _ => by split <;> trivial
  · have hfopen : TargetFile.fopen.run file = (.ok false, file) := by
      rw [TargetFile.fopen, run_bind_ok (run_get file), if_neg hopens, run_pure]
    refine (triple_onFile hfopen).bind fun opened => ?_
    refine Triple.of_state fun state hstate => ?_
    obtain ⟨rfl, -⟩ := hstate
    rw [if_neg (by decide)]
    exact Triple.fail fun _ _ => trivial

end Transfers

/-! ## When transfers are complete -/

open Finset in
/-- A read that returns nothing finds the file read to its end: none fails before, for
`push` cannot tell an error of `std::fread` from the end of the file. -/
def SourceFile.ReadsWhole (file : SourceFile) : Prop :=
  ∀ i, file.reads (file.calls + i) = 0 → file.unread.length ≤
    ∑ j ∈ range i, min kChunkSize (file.reads (file.calls + j))

theorem SourceFile.readsWhole_rest {file : SourceFile} (h : file.next ≠ []) :
    file.rest.ReadsWhole ↔ file.ReadsWhole := by
  have hzero : file.reads file.calls ≠ 0 := by
    intro hzero
    rw [SourceFile.next, hzero, Nat.min_zero, List.take_zero] at h
    exact h rfl
  have hlength : file.rest.unread.length =
      file.unread.length - min kChunkSize (file.reads file.calls) := by
    rw [SourceFile.rest, List.length_drop, SourceFile.next, List.length_take]
    omega
  have hshift : ∀ i, file.calls + 1 + i = file.calls + (i + 1) := fun i => by omega
  refine ⟨fun hrest i hi => ?_, fun hfile i hi => ?_⟩
  · cases i with
    | zero => exact absurd hi hzero
    | succ i =>
        have hbound := hrest i ((hshift i).symm ▸ hi)
        rw [hlength] at hbound
        simp only [SourceFile.rest, hshift] at hbound
        rw [Finset.sum_range_succ', Nat.add_zero]
        omega
  · have hbound := hfile (i + 1) (hshift i ▸ hi)
    rw [Finset.sum_range_succ', Nat.add_zero] at hbound
    rw [hlength]
    simp only [SourceFile.rest, hshift]
    omega

/-- The chunks are the whole file exactly then. -/
theorem SourceFile.flatten_chunks_iff {fuel : Nat} {file : SourceFile}
    (hfuel : file.unread.length < fuel) :
    (file.chunks fuel).flatten = file.unread ↔ file.ReadsWhole := by
  induction fuel generalizing file with
  | zero => omega
  | succ fuel ih =>
      rw [SourceFile.chunks]
      by_cases hempty : file.next = []
      · rw [if_pos hempty, List.flatten_nil]
        refine ⟨fun hnil i _ => by simp [← hnil], fun hwhole => ?_⟩
        rw [SourceFile.next, List.take_eq_nil_iff] at hempty
        rcases hempty with hzero | hnil
        · have hreads : file.reads (file.calls + 0) = 0 := by
            have hsize : kChunkSize = 32768 := rfl
            rw [Nat.add_zero]
            omega
          have hbound := hwhole 0 hreads
          rw [Finset.sum_range_zero] at hbound
          exact (List.eq_nil_of_length_eq_zero (by omega)).symm
        · exact hnil.symm
      · rw [if_neg hempty, ← SourceFile.readsWhole_rest hempty,
          ← ih (SourceFile.length_rest hempty hfuel), List.flatten_cons]
        have hnext := file.next_append
        refine ⟨fun h => List.append_cancel_left (h.trans hnext.symm),
          fun h => ?_⟩
        rw [h, hnext]

/-- A new stream to any device. -/
theorem logged_start (respond : List Bytes → Option Bytes) (number : UInt64) :
    Logged [] [] (({ respond } : AfcLink), (⟨number⟩ : Afc)) :=
  ⟨rfl, rfl, rfl⟩

/-- A push that reports success had the whole file accepted, whatever the
device does, exactly if the local file opens and a read that returns nothing
finds its end, or it does not open; a pull that reports success has what was
served in the local file exactly if closing it loses nothing, or nothing can be
written to it. -/
theorem transfers_complete_iff (source : SourceFile) (target : TargetFile) :
    ((∀ respond number remote state,
        (push remote).run ((({ respond } : AfcLink), (⟨number⟩ : Afc)), source) =
          (.ok (), state) →
        state.1.1.accepted.flatten = source.unread) ↔
      (source.opens = true → source.ReadsWhole)) ∧
    ((∀ respond number turns remote state,
        (pull turns remote).run
          ((({ respond } : AfcLink), (⟨number⟩ : Afc)), target) =
            (.ok (), state) →
        state.2.content = state.1.1.served.flatten) ↔
      (target.opens = true → target.writes target.calls ≠ 0 →
        target.lost = 0)) := by
  refine ⟨⟨fun h hopens => ?_, fun hreads respond number remote state hrun => ?_⟩,
    ⟨fun h hopens hwrites => ?_,
      fun hlost respond number turns remote state hrun => ?_⟩⟩
  · have hstart : Sent storing [] (connected storing, source).1 ∧
        (connected storing, source).2 = source := ⟨sent_connected storing, rfl⟩
    obtain ⟨⟨⟩, state, hrun, -⟩ := (triple_push acceptsWrites_storing
      (storing_opens [] kFopenWr) hopens).exists_ok hstart
    have haccepted := (triple_push_logged [] source).of_ok
      ⟨logged_start _ _, rfl⟩ hrun
    have hwhole := h _ _ _ state hrun
    rw [haccepted, List.nil_append] at hwhole
    exact (SourceFile.flatten_chunks_iff (Nat.lt_succ_self _)).mp hwhole
  · have hopens : source.opens = true := by
      by_contra hclosed
      rw [push, run_bind_ok (run_get _), if_neg hclosed] at hrun
      cases hrun
    have haccepted := (triple_push_logged remote source).of_ok
      ⟨logged_start respond number, rfl⟩ hrun
    rw [haccepted, List.nil_append]
    exact (SourceFile.flatten_chunks_iff (Nat.lt_succ_self _)).mpr (hreads hopens)
  · have hstart : Sent storing [] (connected storing, target).1 ∧
        (connected storing, target).2 = target := ⟨sent_connected storing, rfl⟩
    obtain ⟨⟨⟩, state, hrun, -, htaken, hcontent⟩ := (triple_pull servesReads_storing rfl
      (storing_opens [] kFopenRdonly) hopens (by simp)
      ⟨Nat.one_le_iff_ne_zero.mpr hwrites, trivial⟩
      (show [[0x61]].length < 2 by decide)).exists_ok hstart
    have hserved := ((triple_pull_logged 2 [] target).of_ok
      ⟨logged_start _ _, rfl⟩ hrun).2.1
    have hwhole := h _ _ _ _ state hrun
    rw [← hserved, htaken, hcontent] at hwhole
    have hlength := congrArg List.length hwhole
    rw [List.length_take] at hlength
    simp only [List.flatten_cons, List.flatten_nil, List.append_nil,
      List.length_singleton] at hlength
    omega
  · obtain ⟨hopens, htaken, hcontent, hnone⟩ := (triple_pull_logged turns remote target).of_ok
      ⟨logged_start respond number, rfl⟩ hrun
    by_cases hwrites : target.writes target.calls = 0
    · rw [hcontent, htaken, hnone hwrites, List.take_nil]
    · rw [hcontent, hlost hopens hwrites, Nat.sub_zero, List.take_length, htaken]

/-- A file whose second read fails. -/
def failingSource : SourceFile where
  unread := [1, 2, 3]
  reads := fun i => if i = 1 then 0 else 2

/-- A file that loses its last byte when it is closed. -/
def losingTarget : TargetFile where
  writes := fun _ => 9
  lost := 1

/-- The push reports success with two of three bytes accepted, and the pull
reports success with an empty file. -/
theorem not_transfers_complete :
    (((push [0x66]).run (connected storing, failingSource)).1 = .ok () ∧
      ((push [0x66]).run (connected storing, failingSource)).2.1.1.accepted =
        [[1, 2]] ∧ failingSource.unread = [1, 2, 3]) ∧
    ((pull 2 [0x66]).run (connected storing, losingTarget)).1 = .ok () ∧
      ((pull 2 [0x66]).run (connected storing, losingTarget)).2.1.1.served =
        [[0x61]] ∧
      ((pull 2 [0x66]).run (connected storing, losingTarget)).2.2.content = [] := by
  refine ⟨⟨?_, ?_, rfl⟩, ?_, ?_, ?_⟩
  · decide +kernel
  · decide +kernel
  · decide +kernel
  · decide +kernel
  · decide +kernel

end Afc

end Ioscpp
