import Ioscpp.Support.Agreement
import Ioscpp.TcpLinkEvents
import Ioscpp.TcpLinkKeeps

/-!
# Finished links

After its FIN or a reset of the peer a link should send no more bytes, and after
a reset nothing at all.  What each call adds to the log of a link is one of a few
shapes: what a write sends, what a read does with the segments that come, what
waiting for a SYN|ACK does.  For each of them this module says when it keeps a log
silent, and shows that the call adds it.

The segments to come are those that the tunnel brings to the link if it does
nothing about them; a read passes over the idle ones, and ends with the first that
is not.

## Main results

* `silent_writes`, `silent_reads`, `silent_greets`: when what a call adds keeps a
  log silent.
* `Logged.triple_write`, `Logged.triple_connect`, `Logged.triple_close`: what these
  calls add.
* `Logged.triple_read`, `Logged.triple_read_still`: what a read adds, said of the
  segments to come; a link that is closed or holds bytes takes none.
-/

namespace Ioscpp.TcpLink

open Ioscpp.Support
open Ioscpp.Protocol

/-! ## Silent logs -/

/-- A FIN was handed to the tunnel. -/
def FinSent (log : List LinkEvent) : Prop :=
  ∃ flags payload, .sent flags payload ∈ log ∧ flags &&& TcpFin ≠ 0

/-- A reset was taken. -/
def RstTaken (log : List LinkEvent) : Prop :=
  ∃ segment, .took segment ∈ log ∧ segment.flags &&& TcpRst ≠ 0

/-- The log of a link that is silent when it is finished: behind its FIN it sends no
bytes and no other FIN, and behind a RST that it took it sends nothing. -/
structure Silent (log : List LinkEvent) : Prop where
  /-- No bytes are sent after the FIN or a reset. -/
  payload : ∀ front flags payload back,
    log = front ++ .sent flags payload :: back →
      FinSent front ∨ RstTaken front → payload = []
  /-- One FIN is sent at most. -/
  fin : ∀ front flags payload back,
    log = front ++ .sent flags payload :: back →
      FinSent front → flags &&& TcpFin = 0
  /-- Nothing is sent after a reset. -/
  reset : ∀ front flags payload back,
    log = front ++ .sent flags payload :: back → ¬ RstTaken front

/-- The next segment to be sent keeps a log silent. -/
def Allowed (log : List LinkEvent) (flags : UInt8) (payload : Bytes) : Prop :=
  ¬ RstTaken log ∧ (FinSent log → payload = [] ∧ flags &&& TcpFin = 0)

section Log

variable {log more : List LinkEvent}

theorem not_finSent_nil : ¬ FinSent [] := by
  rintro ⟨flags, payload, hmem, -⟩
  cases hmem

theorem finSent_append :
    FinSent (log ++ more) ↔ FinSent log ∨ FinSent more := by
  simp only [FinSent, List.mem_append, or_and_right, exists_or]

theorem rstTaken_append :
    RstTaken (log ++ more) ↔ RstTaken log ∨ RstTaken more := by
  simp only [RstTaken, List.mem_append, or_and_right, exists_or]

theorem silent_nil : Silent [] := by
  constructor <;> (intro front flags payload back h; simp at h)

private theorem concat_eq_split {event other : LinkEvent}
    {front back : List LinkEvent} (h : log ++ [event] = front ++ other :: back) :
    (∃ rest, log = front ++ other :: rest) ∨ front = log ∧ other = event := by
  rcases List.eq_nil_or_concat back with rfl | ⟨rest, last, rfl⟩
  · obtain ⟨hfront, hother⟩ := List.append_inj' h rfl
    exact .inr ⟨hfront.symm, (List.cons.inj hother).1.symm⟩
  · rw [List.concat_eq_append, ← List.cons_append, ← List.append_assoc] at h
    exact .inl ⟨rest, (List.append_inj' h rfl).1⟩

/-- A log is silent when its front is and its last event was allowed. -/
theorem silent_took (segment : Segment) :
    Silent (log ++ [.took segment]) ↔ Silent log := by
  constructor
  · intro h
    exact ⟨fun front flags payload back heq => h.payload front flags payload
        (back ++ [.took segment]) (by rw [heq, List.append_assoc]; rfl),
      fun front flags payload back heq => h.fin front flags payload
        (back ++ [.took segment]) (by rw [heq, List.append_assoc]; rfl),
      fun front flags payload back heq => h.reset front flags payload
        (back ++ [.took segment]) (by rw [heq, List.append_assoc]; rfl)⟩
  · intro h
    refine ⟨?_, ?_, ?_⟩ <;>
      (intro front flags payload back heq
       rcases concat_eq_split heq with ⟨rest, hlog⟩ | ⟨-, hevent⟩)
    · exact h.payload front flags payload rest hlog
    · cases hevent
    · exact h.fin front flags payload rest hlog
    · cases hevent
    · exact h.reset front flags payload rest hlog
    · cases hevent

theorem silent_sent (flags : UInt8) (payload : Bytes) :
    Silent (log ++ [.sent flags payload]) ↔
      Silent log ∧ Allowed log flags payload := by
  constructor
  · intro h
    refine ⟨⟨fun front flags' payload' back heq => h.payload front flags' payload'
        (back ++ [.sent flags payload]) (by rw [heq, List.append_assoc]; rfl),
      fun front flags' payload' back heq => h.fin front flags' payload'
        (back ++ [.sent flags payload]) (by rw [heq, List.append_assoc]; rfl),
      fun front flags' payload' back heq => h.reset front flags' payload'
        (back ++ [.sent flags payload]) (by rw [heq, List.append_assoc]; rfl)⟩,
      h.reset log flags payload [] rfl, fun hfin => ?_⟩
    exact ⟨h.payload log flags payload [] rfl (.inl hfin),
      h.fin log flags payload [] rfl hfin⟩
  · rintro ⟨h, hreset, hfin⟩
    refine ⟨?_, ?_, ?_⟩ <;>
      (intro front flags' payload' back heq
       rcases concat_eq_split heq with ⟨rest, hlog⟩ | ⟨rfl, hevent⟩)
    · exact h.payload front flags' payload' rest hlog
    · cases hevent
      exact fun hover => (hfin (hover.resolve_right hreset)).1
    · exact h.fin front flags' payload' rest hlog
    · cases hevent
      exact fun hover => (hfin hover).2
    · exact h.reset front flags' payload' rest hlog
    · cases hevent
      exact hreset

end Log

/-! ## The segments of a call -/

/-- A segment that a read answers: one with bytes or a FIN, which is acknowledged. A RST
is not, whatever else the segment has. -/
def Answered (segment : Segment) : Prop :=
  segment.flags &&& TcpRst = 0 ∧
    (segment.flags &&& TcpFin ≠ 0 ∨ segment.payload ≠ [])

instance (segment : Segment) : Decidable (Answered segment) :=
  inferInstanceAs (Decidable (_ ∧ _))

/-- A segment that a read takes note of: a reset, or one that it answers. -/
def Heeded (segment : Segment) : Prop :=
  segment.flags &&& TcpRst ≠ 0 ∨ Answered segment

instance (segment : Segment) : Decidable (Heeded segment) :=
  inferInstanceAs (Decidable (_ ∨ _))

/-- What a read does with the segments that come, and whether the link ends there.
It passes over those that it takes no note of, up to one that it does. -/
inductive Reads : List Segment → List LinkEvent → Bool → Prop where
  | none : Reads [] [] false
  | skip {segment : Segment} {rest : List Segment} {more : List LinkEvent}
      {closed : Bool} (hidle : ¬ Heeded segment) (hmore : Reads rest more closed) :
      Reads (segment :: rest) (.took segment :: more) closed
  | reset {segment : Segment} {rest : List Segment}
      (hrst : segment.flags &&& TcpRst ≠ 0) :
      Reads (segment :: rest) [.took segment] true
  | fin {segment : Segment} {rest : List Segment}
      (hanswered : Answered segment) :
      Reads (segment :: rest) [.took segment, .sent (TcpAck ||| TcpFin) []] true
  | data {segment : Segment} {rest : List Segment}
      (hanswered : Answered segment) :
      Reads (segment :: rest) [.took segment, .sent TcpAck []] false

/-- What waiting for a SYN|ACK does with segments. -/
inductive Greets : List LinkEvent → Prop where
  | none : Greets []
  | skip {segment : Segment} {more : List LinkEvent}
      (hrst : segment.flags &&& TcpRst = 0) (hmore : Greets more) :
      Greets (.took segment :: more)
  | reset {segment : Segment} (hrst : segment.flags &&& TcpRst ≠ 0) :
      Greets [.took segment]
  | synAck {segment : Segment} (hrst : segment.flags &&& TcpRst = 0) :
      Greets [.took segment, .sent TcpAck []]

/-- What a write sends: segments with bytes. -/
def Writes (more : List LinkEvent) : Prop :=
  ∀ event ∈ more, ∃ payload, payload ≠ [] ∧ event = .sent TcpAck payload

section Calls

variable {log more : List LinkEvent} {segments : List Segment} {closed : Bool}

theorem rstTaken_took (segment : Segment) :
    RstTaken (log ++ [.took segment]) ↔
      RstTaken log ∨ segment.flags &&& TcpRst ≠ 0 := by
  rw [rstTaken_append]
  refine or_congr_right ⟨?_, fun h => ⟨segment, List.mem_singleton.mpr rfl, h⟩⟩
  rintro ⟨other, hmem, hrst⟩
  rw [List.mem_singleton, LinkEvent.took.injEq] at hmem
  rwa [← hmem]

theorem rstTaken_sent (flags : UInt8) (payload : Bytes) :
    RstTaken (log ++ [.sent flags payload]) ↔ RstTaken log := by
  rw [rstTaken_append]
  refine or_iff_left ?_
  rintro ⟨other, hmem, -⟩
  rw [List.mem_singleton] at hmem
  cases hmem

theorem finSent_took (segment : Segment) :
    FinSent (log ++ [.took segment]) ↔ FinSent log := by
  rw [finSent_append]
  refine or_iff_left ?_
  rintro ⟨flags, payload, hmem, -⟩
  rw [List.mem_singleton] at hmem
  cases hmem

theorem finSent_sent (flags : UInt8) (payload : Bytes) :
    FinSent (log ++ [.sent flags payload]) ↔
      FinSent log ∨ flags &&& TcpFin ≠ 0 := by
  rw [finSent_append]
  refine or_congr_right
    ⟨?_, fun h => ⟨flags, payload, List.mem_singleton.mpr rfl, h⟩⟩
  rintro ⟨other, payload', hmem, hfin⟩
  rw [List.mem_singleton, LinkEvent.sent.injEq] at hmem
  rwa [← hmem.1]

/-- A write keeps the log silent when it sends nothing or the link is not
finished. -/
theorem silent_writes (h : Writes more) :
    Silent (log ++ more) ↔
      Silent log ∧ (more ≠ [] → ¬ (FinSent log ∨ RstTaken log)) := by
  induction more generalizing log with
  | nil => simp
  | cons event more ih =>
      rw [Writes, List.forall_mem_cons] at h
      obtain ⟨⟨payload, hpayload, rfl⟩, hmore⟩ := h
      have hack : TcpAck &&& TcpFin = 0 := by decide
      rw [List.append_cons, ih hmore, silent_sent, finSent_sent, rstTaken_sent]
      constructor
      · rintro ⟨⟨hlog, hreset, hfin⟩, -⟩
        refine ⟨hlog, fun _ hover => ?_⟩
        rcases hover with hover | hover
        · exact hpayload (hfin hover).1
        · exact hreset hover
      · rintro ⟨hlog, hopen⟩
        have hnone := hopen (List.cons_ne_nil _ _)
        refine ⟨⟨hlog, fun hover => hnone (.inr hover),
          fun hover => absurd (.inl hover) hnone⟩, fun _ hover => ?_⟩
        rcases hover with (hover | hover) | hover
        · exact hnone (.inl hover)
        · exact hover hack
        · exact hnone (.inr hover)

private theorem silent_answer {segment : Segment} (h : Answered segment)
    (flags : UInt8) (hfin : ¬ FinSent log) :
    Silent (log ++ [.took segment, .sent flags []]) ↔
      Silent log ∧ ¬ RstTaken log := by
  rw [List.append_cons, silent_sent, silent_took, Allowed, rstTaken_took,
    finSent_took, or_iff_left (not_not_intro h.1)]
  exact and_congr_right fun _ => and_iff_left fun hover => absurd hover hfin

/-- A read keeps the log silent when, after a reset, the first segment that it
takes note of is a reset again. -/
theorem silent_reads (h : Reads segments more closed)
    (hfin : more ≠ [] → ¬ FinSent log) :
    Silent (log ++ more) ↔ Silent log ∧ (RstTaken log →
      ∀ segment, segments.find? (Heeded ·) = some segment →
        ¬ Answered segment) := by
  induction h generalizing log with
  | none => simp
  | @skip segment rest more closed hidle hmore ih =>
      have hnone := hfin (List.cons_ne_nil _ _)
      have hrst : ¬ segment.flags &&& TcpRst ≠ 0 := fun hrst => hidle (.inl hrst)
      rw [List.append_cons, ih fun _ => by rwa [finSent_took], silent_took,
        rstTaken_took, or_iff_left hrst, List.find?_cons_of_neg (by simpa using hidle)]
  | @reset segment rest hrst =>
      rw [silent_took, List.find?_cons_of_pos (by simpa using .inl hrst)]
      refine (and_iff_left fun _ other hother hanswered => ?_).symm
      obtain rfl := Option.some.inj hother
      exact hrst hanswered.1
  | @fin segment rest hanswered =>
      rw [silent_answer hanswered _ (hfin (by simp)),
        List.find?_cons_of_pos (by simpa using .inr hanswered)]
      exact and_congr_right fun _ => ⟨fun hnone hover => absurd hover hnone,
        fun hall hover => hall hover segment rfl hanswered⟩
  | @data segment rest hanswered =>
      rw [silent_answer hanswered _ (hfin (by simp)),
        List.find?_cons_of_pos (by simpa using .inr hanswered)]
      exact and_congr_right fun _ => ⟨fun hnone hover => absurd hover hnone,
        fun hall hover => hall hover segment rfl hanswered⟩

/-- Waiting for a SYN|ACK keeps the log silent when no reset was taken before: all that
it sends is the acknowledgement of the answer. -/
theorem silent_greets (h : Greets more) (hrst : ¬ RstTaken log) :
    Silent (log ++ more) ↔ Silent log := by
  induction h generalizing log with
  | none => rw [List.append_nil]
  | skip hsegment hmore ih =>
      rw [List.append_cons, ih, silent_took]
      rw [rstTaken_took, not_or]
      exact ⟨hrst, not_not_intro hsegment⟩
  | reset => exact silent_took _
  | synAck hsegment =>
      rw [List.append_cons, silent_sent, silent_took]
      refine and_iff_left ⟨?_, fun _ => ⟨rfl, by decide⟩⟩
      rw [rstTaken_took, not_or]
      exact ⟨hrst, not_not_intro hsegment⟩

end Calls

/-! ## What the calls log -/

/-- The segments that the tunnel brings to the link, of the packets that are its
own: `fuel` of them at most, up to the first that cannot be received. -/
def toCome {τ : Type} [Transport τ] : Nat → τ × TcpLink → List Segment
  | 0, _ => []
  | fuel + 1, state =>
      match (receiveSegment (fuel + 1)).run state with
      | (.ok segment, next) => segment :: toCome fuel next
      | (.error _, _) => []

namespace Logged

variable {τ : Type} [Transport τ] {log : List LinkEvent} {base : TcpLink}

/-- The link, but for its framer and the number of the next segment. -/
def Alike (base link : TcpLink) : Prop :=
  link = { base with framer := link.framer, sendSeq := link.sendSeq }

/-- A link that sent and received, beside the log. -/
def At (base : TcpLink) (log : List LinkEvent)
    (state : (τ × TcpLink) × List LinkEvent) : Prop :=
  Alike base state.1.2 ∧ state.2 = log

omit [Transport τ] in
theorem at_start (state : τ × TcpLink) (log : List LinkEvent) :
    At state.2 log (state, log) :=
  ⟨rfl, rfl⟩

omit [Transport τ] in
private theorem keeps_onFramer {α : Type}
    (x : Action Error (τ × Ipv6Framer) α) :
    Action.Keeps (fun state : τ × TcpLink => Alike base state.2) (onFramer x) := by
  refine Action.keeps_zoom fun state part h => ?_
  rw [Alike] at h ⊢
  rw [h]

private theorem keeps_sendSegment (flags : UInt8) (payload : Bytes) :
    Action.Keeps (fun state : τ × TcpLink => Alike base state.2)
      (TcpLink.sendSegment flags payload) := by
  refine Action.Keeps.get_bind fun state => (keeps_onFramer _).bind fun _ => ?_
  refine Action.keeps_modify fun other h => ?_
  rw [Alike] at h ⊢
  rw [h]

omit [Transport τ] in
/-- An operation that is not observed leaves the log. -/
private theorem triple_quiet {α : Type} {x : Action Error (τ × TcpLink) α}
    (h : Action.Keeps (fun state : τ × TcpLink => Alike base state.2) x) :
    Action.Keeps (At base log) (Action.quiet x : LoggedAction τ α) := by
  refine Action.Triple.zoom fun state hstate => ?_
  refine ((h.imp_pre fun part hpart => ?_).imp_post ?_ ?_)
  · rw [hpart]
    exact hstate.1
  · exact fun _ part hpart => ⟨hpart, hstate.2⟩
  · exact fun _ part hpart => ⟨hpart, hstate.2⟩

theorem triple_sendSegment (flags : UInt8) (payload : Bytes) :
    Action.Triple (At base log)
      (sendSegment flags payload : LoggedAction τ Unit)
      (fun _ => At base (log ++ [.sent flags payload]))
      (fun _ => At base (log ++ [.sent flags payload])) := by
  have hnote : Action.Triple (At base log)
      (Action.note (.sent flags payload) : LoggedAction τ PUnit)
      (fun _ => At base (log ++ [.sent flags payload]))
      (fun _ => At base (log ++ [.sent flags payload])) :=
    Action.Triple.modify fun state h => ⟨h.1, by rw [h.2]⟩
  exact hnote.bind fun _ => triple_quiet (keeps_sendSegment flags payload)

theorem triple_receiveSegment (fuel : Nat) :
    Action.Triple (At base log)
      (receiveSegment fuel : LoggedAction τ Segment)
      (fun segment => At base (log ++ [.took segment]))
      (fun _ => At base log) := by
  have hnote (segment : Segment) : Action.Triple (At base log)
      (Action.note (.took segment) : LoggedAction τ PUnit)
      (fun _ => At base (log ++ [.took segment])) (fun _ => At base log) :=
    Action.Triple.modify fun state h => ⟨h.1, by rw [h.2]⟩
  exact Action.Triple.bind (triple_quiet
    (keeps_receiveSegment (keeps_onFramer _) fuel))
    fun segment => (hnote segment).bind fun _ =>
      Action.Triple.pure fun _ h => h

/-- What is received depends on the tunnel, the framer and the ports. -/
structure SameIncoming (state other : τ × TcpLink) : Prop where
  tunnel : state.1 = other.1
  framer : state.2.framer = other.2.framer
  ports : state.2.ports = other.2.ports

theorem agrees_receiveSegment (fuel : Nat) :
    Action.Agrees (SameIncoming (τ := τ)) (TcpLink.receiveSegment fuel)
      (TcpLink.receiveSegment fuel) := by
  induction fuel with
  | zero => exact Action.Agrees.lift _
  | succ fuel ih =>
      refine Action.Agrees.bind ?_ fun packet => Action.Agrees.get_bind
        fun state other h => ?_
      · have hpart : Action.Agrees Eq (Ipv6Framer.readPacket (τ := τ))
            Ipv6Framer.readPacket :=
          fun _ _ h => ⟨h ▸ rfl, h ▸ rfl⟩
        refine hpart.zoom (fun state other h => Prod.ext h.tunnel h.framer) ?_
        rintro state other part _ h rfl
        exact ⟨rfl, rfl, h.ports⟩
      · rw [h.ports]
        refine (Action.Agrees.lift _).bind fun segment => ?_
        cases segment with
        | none => exact ih
        | some segment => exact Action.Agrees.pure _

/-- So the segments to come are the same. -/
theorem toCome_eq (fuel : Nat) {state other : τ × TcpLink}
    (h : SameIncoming state other) :
    TcpLink.toCome fuel state = TcpLink.toCome fuel other := by
  induction fuel generalizing state other with
  | zero => rfl
  | succ fuel ih =>
      obtain ⟨hresult, hnext⟩ := agrees_receiveSegment (fuel + 1) h
      rw [TcpLink.toCome, TcpLink.toCome]
      rcases hstate : (TcpLink.receiveSegment (fuel + 1)).run state with
        ⟨e | segment, next⟩ <;>
      rcases hother : (TcpLink.receiveSegment (fuel + 1)).run other with
        ⟨e' | segment', next'⟩ <;>
      rw [hstate, hother] at hresult hnext
      · cases hresult
      · cases hresult
      · cases hresult
        exact congrArg (segment :: ·) (ih hnext)

/-- A link beside the log, and the segments that its tunnel still brings. -/
def AtFront (base : TcpLink) (log : List LinkEvent) (fuel : Nat)
    (segments : List Segment) (state : (τ × TcpLink) × List LinkEvent) : Prop :=
  At base log state ∧ TcpLink.toCome fuel state.1 = segments

/-- Receiving takes the first of the segments to come. -/
theorem triple_receiveSegment_front (fuel : Nat) (segments : List Segment) :
    Action.Triple (AtFront base log (fuel + 1) segments)
      (receiveSegment (fuel + 1) : LoggedAction τ Segment)
      (fun segment state => ∃ rest, segments = segment :: rest ∧
        AtFront base (log ++ [.took segment]) fuel rest state)
      (fun _ state => segments = [] ∧ At base log state) := by
  rintro state ⟨hat, rfl⟩
  have hreceive := @triple_receiveSegment τ _ log base (fuel + 1) state hat
  have hrun : (receiveSegment (fuel + 1)).run state =
      match (TcpLink.receiveSegment (fuel + 1)).run state.1 with
      | (.ok segment, next) => (.ok segment, (next, state.2 ++ [.took segment]))
      | (.error e, next) => (.error e, (next, state.2)) := by
    rw [receiveSegment, Action.run_bind, Action.quiet, Action.run_zoom]
    rcases (TcpLink.receiveSegment (fuel + 1)).run state.1 with ⟨_ | _, _⟩ <;> rfl
  rw [TcpLink.toCome]
  rcases hsegment : (TcpLink.receiveSegment (fuel + 1)).run state.1 with
    ⟨e | segment, next⟩
  · rw [hrun, hsegment] at hreceive ⊢
    exact ⟨rfl, hreceive⟩
  · rw [hrun, hsegment] at hreceive ⊢
    exact ⟨_, rfl, hreceive, rfl⟩

omit [Transport τ] in
/-- A change of the link that is not observed. -/
theorem triple_update {f : TcpLink → TcpLink}
    (hf : ∀ framer sendSeq,
      Alike (f base) (f { base with framer := framer, sendSeq := sendSeq })) :
    Action.Triple (At base log)
      (Action.quiet (update f) : LoggedAction τ PUnit)
      (fun _ => At (f base) log) (fun _ _ => False) := by
  rintro state ⟨halike, hlog⟩
  refine ⟨?_, hlog⟩
  rw [Alike] at halike
  change Alike (f base) (f state.1.2)
  rw [halike]
  exact hf _ _

omit [Transport τ] in
theorem triple_update_bind {α : Type} {f : TcpLink → TcpLink}
    {g : PUnit → LoggedAction τ α}
    {Q : α → (τ × TcpLink) × List LinkEvent → Prop}
    {E : Fault Error → (τ × TcpLink) × List LinkEvent → Prop}
    (hf : ∀ framer sendSeq,
      Alike (f base) (f { base with framer := framer, sendSeq := sendSeq }))
    (h : Action.Triple (At (f base) log) (g PUnit.unit) Q E) :
    Action.Triple (At base log) (Action.quiet (update f) >>= g) Q E :=
  ((triple_update hf).imp_post (fun _ _ hq => hq) fun _ _ he => he.elim).bind
    fun _ => h

omit [Transport τ] in
theorem triple_get : Action.Triple (At base log)
    (Action.quiet get : LoggedAction τ (τ × TcpLink))
    (fun state next => Alike base state.2 ∧ At base log next)
    (fun _ _ => False) :=
  fun _ h => ⟨h.1, h⟩

/-- A write that has data sends segments, which have bytes. -/
theorem triple_write (hmss : 0 < base.mss) (data : Bytes) :
    Action.Triple (At base log) (write data : LoggedAction τ Unit)
      (fun _ state => ∃ more, Writes more ∧ (more = [] ↔ data = []) ∧
        At base (log ++ more) state)
      (fun _ state => ∃ more, Writes more ∧ (more = [] ↔ data = []) ∧
        At base (log ++ more) state) := by
  have hnone (log : List LinkEvent) (state : (τ × TcpLink) × List LinkEvent)
      (h : At base log state) : ∃ more, Writes more ∧
        (more = [] ↔ ([] : Bytes) = []) ∧ At base (log ++ more) state :=
    ⟨[], by simp [Writes], by simp, by rwa [List.append_nil]⟩
  rw [write]
  obtain ⟨fuel, hfuel⟩ : ∃ fuel, data.length = fuel := ⟨_, rfl⟩
  rw [hfuel]
  replace hfuel := Nat.le_of_eq hfuel
  induction fuel generalizing data log with
  | zero =>
      obtain rfl : data = [] := List.eq_nil_of_length_eq_zero (by omega)
      exact Action.Triple.pure (hnone log)
  | succ fuel ih =>
      refine Action.Triple.ite (fun hdata => ?_) fun hdata => ?_
      · subst hdata
        exact Action.Triple.pure (hnone log)
      have hpos := List.length_pos_iff.mpr hdata
      refine (triple_get.imp_post (fun _ _ h => h) fun _ _ h => h.elim).bind
        fun state => ?_
      refine Action.Triple.of_state fun current hcurrent => ?_
      obtain ⟨hstate, hcurrent⟩ := hcurrent
      have hsame : state.2.mss = base.mss := by
        rw [Alike] at hstate
        rw [hstate]
      dsimp only
      rw [hsame]
      obtain ⟨chunk, hchunk⟩ : ∃ chunk, min base.mss data.length = chunk :=
        ⟨_, rfl⟩
      rw [hchunk]
      have hpayload : data.take chunk ≠ [] := by
        refine List.ne_nil_of_length_pos ?_
        rw [List.length_take]
        omega
      have hsent := (@triple_sendSegment τ _ log base TcpAck
        (data.take chunk)).imp_pre
          fun other (h : other = current) => h ▸ hcurrent
      refine (hsent.imp_post (fun _ _ h => h) ?_).bind fun _ => ?_
      · intro _ next hnext
        refine ⟨[.sent TcpAck (data.take chunk)], ?_, by simp [hdata], hnext⟩
        exact List.forall_mem_singleton.mpr ⟨_, hpayload, rfl⟩
      · have hshort : (data.drop chunk).length ≤ fuel := by
          rw [List.length_drop]
          omega
        have hmore (next : (τ × TcpLink) × List LinkEvent)
            (h : ∃ more, Writes more ∧ (more = [] ↔ data.drop chunk = []) ∧
              At base (log ++ [.sent TcpAck (data.take chunk)] ++ more) next) :
            ∃ more, Writes more ∧ (more = [] ↔ data = []) ∧
              At base (log ++ more) next := by
          obtain ⟨more, hwrites, -, hnext⟩ := h
          refine ⟨.sent TcpAck (data.take chunk) :: more, ?_, by simp [hdata], ?_⟩
          · exact List.forall_mem_cons.mpr ⟨⟨_, hpayload, rfl⟩, hwrites⟩
          · rwa [List.append_cons]
        exact (ih _ hshort).imp_post (fun _ => hmore) fun _ => hmore

/-- The link has the segment size and the flag of the end that it had. -/
def Steady (base : TcpLink) (closed : Bool) (link : TcpLink) : Prop :=
  link.mss = base.mss ∧ link.closed = closed

omit [Transport τ] in
theorem At.steady {state : (τ × TcpLink) × List LinkEvent}
    (h : At base log state) : Steady base base.closed state.1.2 := by
  have halike := h.1
  rw [Alike] at halike
  rw [halike]
  exact ⟨rfl, rfl⟩

theorem triple_awaitSynAck (fuel : Nat) :
    Action.Triple (At base log) (awaitSynAck fuel : LoggedAction τ Unit)
      (fun _ state => ∃ more, Greets more ∧ state.2 = log ++ more ∧
        Steady base base.closed state.1.2)
      (fun _ state => ∃ more, Greets more ∧ state.2 = log ++ more ∧
        Steady base base.closed state.1.2) := by
  have hnone (log : List LinkEvent) (state : (τ × TcpLink) × List LinkEvent)
      (h : At base log state) : ∃ more, Greets more ∧ state.2 = log ++ more ∧
        Steady base base.closed state.1.2 :=
    ⟨[], .none, by rw [h.2, List.append_nil], h.steady⟩
  induction fuel generalizing log with
  | zero => exact Action.Triple.lift (fun _ h => by cases h) fun _ _ => hnone log
  | succ fuel ih =>
      refine ((triple_receiveSegment _).imp_post (fun _ _ h => h)
        fun _ => hnone log).bind fun segment => ?_
      refine Action.Triple.ite (fun hrst => Action.Triple.fail ?_) fun hrst => ?_
      · exact fun state h =>
          ⟨[.took segment], .reset hrst, h.2, h.steady⟩
      have hrst := not_not.mp hrst
      refine Action.Triple.ite (fun _ => ?_) fun _ => ?_
      · have hsynAck (base' : TcpLink) (hsame : Steady base base.closed base')
            (state : (τ × TcpLink) × List LinkEvent)
            (h : At base' (log ++ [.took segment] ++ [.sent TcpAck []]) state) :
            ∃ more, Greets more ∧ state.2 = log ++ more ∧
              Steady base base.closed state.1.2 := by
          refine ⟨[.took segment, .sent TcpAck []], .synAck hrst, ?_, ?_⟩
          · rw [h.2, List.append_assoc]
            rfl
          · exact ⟨h.steady.1.trans hsame.1, h.steady.2.trans hsame.2⟩
        refine triple_update_bind (by intros; rfl) ?_
        refine ((triple_sendSegment _ _).imp_post (fun _ _ h => h)
          fun _ => hsynAck _ (by exact ⟨rfl, rfl⟩)).bind fun _ => ?_
        exact (triple_update (by intros; rfl)).imp_post
          (fun _ => hsynAck _ (by exact ⟨rfl, rfl⟩)) fun _ _ h => h.elim
      · have hmore (state : (τ × TcpLink) × List LinkEvent)
            (h : ∃ more, Greets more ∧
              state.2 = log ++ [.took segment] ++ more ∧
              Steady base base.closed state.1.2) :
            ∃ more, Greets more ∧ state.2 = log ++ more ∧
              Steady base base.closed state.1.2 := by
          obtain ⟨more, hgreets, hlog, hsame⟩ := h
          exact ⟨.took segment :: more, .skip hrst hgreets,
            by rw [hlog, ← List.append_cons], hsame⟩
        exact ih.imp_post (fun _ => hmore) fun _ => hmore

/-- The link gets as far as its SYN. -/
def Connects (link : TcpLink) (address : Bytes) : Prop :=
  link.sourceValid = true ∧ (parseIpv6 address).isOk = true

/-- A connect sends a SYN when both addresses are valid, and then what `Greets` says;
otherwise nothing. It leaves the flag of the end as it was. -/
theorem triple_connect (fuel : Nat) (address : Bytes) (port : UInt16) :
    Action.Triple (At base log)
      (connect fuel address port : LoggedAction τ Unit)
      (fun _ state => Steady base base.closed state.1.2 ∧
        Connects base address ∧
          ∃ more, Greets more ∧ state.2 = log ++ .sent TcpSyn [] :: more)
      (fun _ state => Steady base base.closed state.1.2 ∧
        (¬ Connects base address ∧ state.2 = log ∨ Connects base address ∧
          ∃ more, Greets more ∧ state.2 = log ++ .sent TcpSyn [] :: more)) := by
  refine (triple_get.imp_post (fun _ _ h => h) fun _ _ h => h.elim).bind
    fun state => ?_
  refine Action.Triple.of_state fun current hcurrent => ?_
  obtain ⟨hstate, hcurrent⟩ := hcurrent
  have hvalid : state.2.sourceValid = base.sourceValid := by
    rw [Alike] at hstate
    rw [hstate]
  rw [hvalid]
  have hrefused (h : ¬ Connects base address) :
      Steady base base.closed current.1.2 ∧
        (¬ Connects base address ∧ current.2 = log ∨ Connects base address ∧
          ∃ more, Greets more ∧ current.2 = log ++ .sent TcpSyn [] :: more) :=
    ⟨hcurrent.steady, .inl ⟨h, hcurrent.2⟩⟩
  refine Action.Triple.ite (fun hinvalid => Action.Triple.fail ?_) fun hsource => ?_
  · rintro _ rfl
    refine hrefused fun h => ?_
    rw [h.1] at hinvalid
    cases hinvalid
  · have hsource : base.sourceValid = true := by simpa using hsource
    cases hparse : parseIpv6 address with
    | error fault =>
        refine Action.Triple.bind (Q := fun _ _ => False)
          (Action.Triple.lift (fun _ h => by cases h) ?_) fun _ _ h => h.elim
        rintro _ _ _ rfl
        refine hrefused fun h => ?_
        have hok := h.2
        rw [hparse] at hok
        cases hok
    | ok destination =>
        have hconnects : Connects base address :=
          ⟨hsource, by rw [hparse]; rfl⟩
        refine (Action.Triple.lift_ok_bind ?_).imp_pre
          fun other (h : other = current) => h ▸ hcurrent
        refine triple_update_bind (by intros; rfl) ?_
        have hsyn (base' : TcpLink) (hsame : Steady base base.closed base')
            (state : (τ × TcpLink) × List LinkEvent)
            (h : ∃ more, Greets more ∧
              state.2 = log ++ [.sent TcpSyn []] ++ more ∧
              Steady base' base'.closed state.1.2) :
            Steady base base.closed state.1.2 ∧ Connects base address ∧
              ∃ more, Greets more ∧
                state.2 = log ++ .sent TcpSyn [] :: more := by
          obtain ⟨more, hgreets, hlog, hsteady⟩ := h
          refine ⟨⟨hsteady.1.trans hsame.1, hsteady.2.trans hsame.2⟩, hconnects,
            more, hgreets, ?_⟩
          rw [hlog, ← List.append_cons]
        refine ((triple_sendSegment _ _).imp_post (fun _ _ h => h) ?_).bind
          fun _ => (triple_awaitSynAck fuel).imp_post ?_ ?_
        · intro _ next hnext
          have hfirst := hsyn _ (by exact ⟨rfl, rfl⟩) next
            ⟨[], .none, by rw [hnext.2, List.append_nil], hnext.steady⟩
          exact ⟨hfirst.1, .inr hfirst.2⟩
        · exact fun _ => hsyn _ (by exact ⟨rfl, rfl⟩)
        · intro _ next hnext
          have hall := hsyn _ (by exact ⟨rfl, rfl⟩) next hnext
          exact ⟨hall.1, .inr hall.2⟩

theorem triple_attempt_sendSegment (flags : UInt8) (payload : Bytes) :
    Action.Triple (At base log)
      (Action.attempt (sendSegment flags payload) :
        LoggedAction τ (Result Unit))
      (fun _ => At base (log ++ [.sent flags payload])) (fun _ _ => False) := by
  intro state h
  have hsent := @triple_sendSegment τ _ log base flags payload state h
  rw [Action.run_attempt]
  rcases hrun : (sendSegment flags payload).run state with ⟨_ | _, next⟩ <;>
    (rw [hrun] at hsent; exact hsent)

/-- The outcome of a read that receives: it did with the segments to come what a
read does, and the link is closed if that ended it. -/
def ReadsTo (base : TcpLink) (log : List LinkEvent) (segments : List Segment)
    (state : (τ × TcpLink) × List LinkEvent) : Prop :=
  ∃ more closed, Reads segments more closed ∧ state.2 = log ++ more ∧
    Steady base closed state.1.2

omit [Transport τ] in
/-- The outcome when no segment comes. -/
theorem At.readsTo {base' : TcpLink} {state : (τ × TcpLink) × List LinkEvent}
    (h : At base' log state) (hmss : base'.mss = base.mss)
    (hopen : base'.closed = false) : ReadsTo base log [] state :=
  ⟨[], false, .none, by rw [h.2, List.append_nil],
    h.steady.1.trans hmss, h.steady.2.trans hopen⟩

omit [Transport τ] in
/-- The outcome of the reading loop after a first segment. -/
theorem ReadsTo.of_took {base' : TcpLink} {segment : Segment}
    {rest : List Segment} {more : List LinkEvent} {closed : Bool}
    {state : (τ × TcpLink) × List LinkEvent}
    (hreads : Reads (segment :: rest) (.took segment :: more) closed)
    (hat : At base' (log ++ [.took segment] ++ more) state)
    (hmss : base'.mss = base.mss) (hclosed : base'.closed = closed) :
    ReadsTo base log (segment :: rest) state :=
  ⟨.took segment :: more, closed, hreads,
    by rw [hat.2, ← List.append_cons],
    hat.steady.1.trans hmss, hat.steady.2.trans hclosed⟩

theorem triple_awaitIncoming_held (fuel : Nat)
    (hheld : base.incomingOffset ≠ base.incoming.length) :
    Action.Triple (At base log) (awaitIncoming fuel : LoggedAction τ Bool)
      (fun _ => At base log) (fun _ _ => False) := by
  have hgoes (state : τ × TcpLink) (hstate : Alike base state.2) :
      state.2.incomingOffset ≠ state.2.incoming.length := by
    rw [Alike] at hstate
    rw [hstate]
    exact hheld
  cases fuel with
  | zero =>
      refine triple_get.bind fun state => Action.Triple.ite
        (fun _ => Action.Triple.pure fun _ h => h.2) fun hdone => ?_
      exact fun current hcurrent => absurd (hgoes state hcurrent.1) hdone
  | succ fuel =>
      refine triple_get.bind fun state => Action.Triple.ite
        (fun _ => Action.Triple.pure fun _ h => h.2) fun hdone => ?_
      exact fun current hcurrent => absurd (hgoes state hcurrent.1) hdone

/-- A read of a link that is closed, or that holds bytes, takes no segment. -/
theorem triple_awaitIncoming_still (fuel : Nat)
    (h : base.closed = true ∨ base.incomingOffset ≠ base.incoming.length) :
    Action.Triple (At base log) (awaitIncoming fuel : LoggedAction τ Bool)
      (fun _ state => state.2 = log ∧ Steady base base.closed state.1.2)
      (fun _ state => state.2 = log ∧ Steady base base.closed state.1.2) := by
  by_cases hheld : base.incomingOffset ≠ base.incoming.length
  · exact (triple_awaitIncoming_held fuel hheld).imp_post
      (fun _ _ hat => ⟨hat.2, hat.steady⟩) fun _ _ hfalse => hfalse.elim
  have hclosed := h.resolve_right hheld
  cases fuel with
  | zero =>
      refine (triple_get.imp_post (fun _ _ h => h) fun _ _ h => h.elim).bind
        fun state => Action.Triple.ite
          (fun _ => Action.Triple.pure fun _ h => ⟨h.2.2, h.2.steady⟩) fun _ => ?_
      exact Action.Triple.lift (fun _ h => by cases h)
        fun _ _ _ h => ⟨h.2.2, h.2.steady⟩
  | succ fuel =>
      refine (triple_get.imp_post (fun _ _ h => h) fun _ _ h => h.elim).bind
        fun state => Action.Triple.ite
          (fun _ => Action.Triple.pure fun _ h => ⟨h.2.2, h.2.steady⟩) fun _ => ?_
      refine Action.Triple.of_state fun current hcurrent => ?_
      obtain ⟨hstate, hcurrent⟩ := hcurrent
      have hsame : state.2.closed = true := by
        rw [Alike] at hstate
        rw [hstate]
        exact hclosed
      rw [hsame]
      refine (triple_update_bind (by intros; rfl) ?_).imp_pre
        fun other (h : other = current) => h ▸ hcurrent
      exact Action.Triple.ite (fun _ => Action.Triple.pure
        fun other h => ⟨h.2, h.steady⟩) fun hopen => absurd rfl hopen

theorem triple_handleSegment {segment : Segment} {rest : List Segment}
    (fuel : Nat) {base' : TcpLink} (hmss : base'.mss = base.mss)
    (hclosed : base'.closed = false) (hoffset : base'.incomingOffset = 0)
    (hidle : ¬ Heeded segment → Action.Triple
      (AtFront base' (log ++ [.took segment]) fuel rest)
      (awaitIncoming fuel : LoggedAction τ Bool)
      (fun _ => ReadsTo base log (segment :: rest))
      (fun _ => ReadsTo base log (segment :: rest))) :
    Action.Triple (AtFront base' (log ++ [.took segment]) fuel rest)
      (handleSegment segment (awaitIncoming fuel) : LoggedAction τ Bool)
      (fun _ => ReadsTo base log (segment :: rest))
      (fun _ => ReadsTo base log (segment :: rest)) := by
  have hheld (payload : Bytes) (h : payload ≠ []) :
      base'.incomingOffset ≠ payload.length := by
    rw [hoffset]
    exact (List.length_pos_iff.mpr h).ne
  refine Action.Triple.ite (fun hrst => Action.Triple.imp_pre ?_ fun _ h => h.1)
    fun hrst => ?_
  · refine triple_update_bind (by intros; rfl) (Action.Triple.fail ?_)
    intro state h
    have hat := h
    rw [← List.append_nil (log ++ _)] at hat
    exact ReadsTo.of_took (.reset hrst) hat (by exact hmss) (by rfl)
  have hrst := not_not.mp hrst
  refine Action.Triple.ite (fun hfin => Action.Triple.imp_pre ?_ fun _ h => h.1)
    fun hfin => ?_
  · have hanswered : Answered segment := ⟨hrst, .inl hfin⟩
    refine triple_update_bind (by intros; rfl) ?_
    refine ((triple_attempt_sendSegment _ _).imp_post (fun _ _ h => h)
      fun _ _ h => h.elim).bind fun _ => ?_
    refine triple_update_bind (by intros; rfl) ?_
    refine Action.Triple.ite (fun _ => Action.Triple.pure ?_) fun hpayload => ?_
    · exact fun state h => ReadsTo.of_took (.fin hanswered) h
          (by exact hmss) (by rfl)
    · refine triple_update_bind (by intros; rfl) ?_
      exact (triple_awaitIncoming_held fuel
        (by exact hheld _ hpayload)).imp_post
        (fun _ state h => ReadsTo.of_took (.fin hanswered) h
          (by exact hmss) (by rfl))
        fun _ _ h => h.elim
  refine Action.Triple.ite (fun hpayload =>
    Action.Triple.imp_pre ?_ fun _ h => h.1) fun hpayload => ?_
  · have hanswered : Answered segment := ⟨hrst, .inr hpayload⟩
    refine triple_update_bind (by intros; rfl) ?_
    refine ((triple_sendSegment _ _).imp_post (fun _ _ h => h) ?_).bind
      fun _ => ?_
    · exact fun _ state h => ReadsTo.of_took (.data hanswered) h
          (by exact hmss) (by exact hclosed)
    · refine triple_update_bind (by intros; rfl) ?_
      exact (triple_awaitIncoming_held fuel
        (by exact hheld _ hpayload)).imp_post
        (fun _ state h => ReadsTo.of_took (.data hanswered) h
          (by exact hmss) (by exact hclosed))
        fun _ _ h => h.elim
  · refine hidle fun hheeded => ?_
    rcases hheeded with h | ⟨-, h | h⟩
    · exact h hrst
    · exact hfin h
    · exact hpayload h

/-- A read of an open link that holds no bytes does with the segments to come what
a read does. -/
theorem triple_awaitIncoming (fuel : Nat) {segments : List Segment}
    (hopen : base.closed = false)
    (hdone : base.incomingOffset = base.incoming.length) :
    Action.Triple (AtFront base log fuel segments)
      (awaitIncoming fuel : LoggedAction τ Bool)
      (fun _ => ReadsTo base log segments)
      (fun _ => ReadsTo base log segments) := by
  have hsame (state : τ × TcpLink) (hstate : Alike base state.2) :
      ¬ state.2.incomingOffset ≠ state.2.incoming.length ∧
        state.2.closed = false := by
    rw [Alike] at hstate
    rw [hstate]
    exact ⟨not_not_intro hdone, hopen⟩
  induction fuel generalizing base log segments with
  | zero =>
      rintro state ⟨hat, rfl⟩
      have hzero := hsame state.1 hat.1
      rw [awaitIncoming, Action.run_bind_ok (show (Action.quiet get :
        LoggedAction τ (τ × TcpLink)).run state = (.ok state.1, state) from rfl),
        if_neg hzero.1]
      exact hat.readsTo rfl hopen
  | succ fuel ih =>
      refine Action.Triple.of_state fun current hcurrent => ?_
      obtain ⟨hat, hcome⟩ := hcurrent
      obtain ⟨hnone, hclosed⟩ := hsame current.1 hat.1
      refine Action.Triple.bind_of_run (show (Action.quiet get :
        LoggedAction τ (τ × TcpLink)).run current = (.ok current.1, current)
          from rfl) ?_
      rw [if_neg hnone, hclosed]
      refine Action.Triple.bind_of_run (show (Action.quiet (update fun link =>
        { link with incoming := [], incomingOffset := 0 }) :
          LoggedAction τ PUnit).run current = (.ok (), ((current.1.1,
            { current.1.2 with incoming := [], incomingOffset := 0 }),
              current.2)) from rfl) ?_
      refine Action.Triple.ite (fun h => absurd h Bool.false_ne_true) fun _ => ?_
      have hat' : At { base with incoming := [], incomingOffset := 0 } log
          ((current.1.1, { current.1.2 with incoming := [], incomingOffset := 0 }),
            current.2) := by
        refine ⟨?_, hat.2⟩
        have halike := hat.1
        rw [Alike] at halike ⊢
        dsimp only
        rw [halike]
      have hcome' : TcpLink.toCome (fuel + 1) (current.1.1,
          { current.1.2 with incoming := [], incomingOffset := 0 }) = segments := by
        rw [← hcome]
        exact toCome_eq (fuel + 1) ⟨rfl, rfl, rfl⟩
      have hreceive := (triple_receiveSegment_front (τ := τ) fuel segments).at_state
        ⟨hat', hcome'⟩
      refine (hreceive.imp_post (fun _ _ h => h) ?_).bind fun segment => ?_
      · rintro _ other ⟨rfl, h⟩
        exact h.readsTo rfl hopen
      · refine Action.Triple.of_state fun other hother => ?_
        obtain ⟨rest, rfl, hfront⟩ := hother
        refine (@triple_handleSegment τ _ log base segment rest fuel
          { base with incoming := [], incomingOffset := 0 } rfl hopen rfl
            fun hidle => ?_).imp_pre fun state (h : state = other) => h ▸ hfront
        have hmore (next : (τ × TcpLink) × List LinkEvent)
            (h : ReadsTo { base with incoming := [], incomingOffset := 0 }
              (log ++ [.took segment]) rest next) :
            ReadsTo base log (segment :: rest) next := by
          obtain ⟨more, closed, hreads, hlog, hsteady⟩ := h
          exact ⟨.took segment :: more, closed, .skip hidle hreads,
            by rw [hlog, ← List.append_cons], hsteady⟩
        refine (@ih (log ++ [.took segment])
          { base with incoming := [], incomingOffset := 0 } rest hopen rfl
            fun state hstate => ?_).imp_post (fun _ => hmore) fun _ => hmore
        rw [Alike] at hstate
        rw [hstate]
        exact ⟨not_not_intro rfl, hopen⟩

omit [Transport τ] in
/-- Taking bytes of the last payload changes neither the log nor the flags. -/
theorem keeps_takeIncoming (count : Nat)
    {I : (τ × TcpLink) × List LinkEvent → Prop}
    (h : ∀ tunnel link log offset, I ((tunnel, link), log) →
      I ((tunnel, { link with incomingOffset := offset }), log)) :
    Action.Keeps I (Action.quiet (takeIncoming count) : LoggedAction τ Bytes) := by
  refine Action.Triple.zoom ?_
  rintro ⟨⟨tunnel, link⟩, log⟩ hstate part rfl
  exact h _ _ _ _ hstate

/-- A read of a link that has ended, or that holds bytes, takes no segment and sends
nothing. -/
theorem triple_read_still (count fuel : Nat)
    (h : base.closed = true ∨ base.incomingOffset ≠ base.incoming.length) :
    Action.Triple (At base log) (read count fuel : LoggedAction τ Bytes)
      (fun _ state => state.2 = log ∧ Steady base base.closed state.1.2)
      (fun _ state => state.2 = log ∧ Steady base base.closed state.1.2) := by
  refine (triple_awaitIncoming_still fuel h).bind fun more => ?_
  cases more with
  | false => exact Action.keeps_pure _
  | true => exact keeps_takeIncoming count fun _ _ _ _ h => h

/-- A read of an open link that holds no bytes takes the segments to come, up to one
that ends the wait, and answers it as `ReadsTo` says. -/
theorem triple_read (count fuel : Nat) {segments : List Segment}
    (hopen : base.closed = false)
    (hdone : base.incomingOffset = base.incoming.length) :
    Action.Triple (AtFront base log fuel segments)
      (read count fuel : LoggedAction τ Bytes)
      (fun _ => ReadsTo base log segments)
      (fun _ => ReadsTo base log segments) := by
  refine (triple_awaitIncoming fuel hopen hdone).bind fun more => ?_
  cases more with
  | false => exact Action.keeps_pure _
  | true => exact keeps_takeIncoming count fun _ _ _ _ h => h

/-- Closing sends a FIN when the link is connected and not closed yet. -/
theorem triple_close :
    Action.Triple (At base log) (close : LoggedAction τ Unit)
      (fun _ state => Steady base true state.1.2 ∧ state.2 =
        if base.closed = false ∧ base.established = true then
          log ++ [.sent (TcpFin ||| TcpAck) []] else log)
      (fun _ _ => False) := by
  refine triple_get.bind fun state => ?_
  refine Action.Triple.of_state fun current hcurrent => ?_
  obtain ⟨hstate, hcurrent⟩ := hcurrent
  have hclosed : state.2.closed = base.closed := by
    rw [Alike] at hstate
    rw [hstate]
  have hestablished : state.2.established = base.established := by
    rw [Alike] at hstate
    rw [hstate]
  rw [hclosed, hestablished]
  refine Action.Triple.ite (fun hdone => Action.Triple.pure ?_) fun hopen => ?_
  · rintro _ rfl
    refine ⟨⟨hcurrent.steady.1, hcurrent.steady.2.trans hdone⟩, ?_⟩
    rw [hdone, if_neg (by simp), hcurrent.2]
  · have hopen : base.closed = false := by simpa using hopen
    refine (triple_update_bind (by intros; rfl) ?_).imp_pre
      fun other (h : other = current) => h ▸ hcurrent
    refine Action.Triple.ite (fun hconnected => ?_) fun hconnected => ?_
    · refine (triple_attempt_sendSegment _ _).bind fun _ =>
        Action.Triple.pure fun other h => ⟨h.steady, ?_⟩
      rw [h.2, if_pos ⟨hopen, hconnected⟩]
    · refine Action.Triple.pure fun other h => ⟨h.steady, ?_⟩
      rw [h.2, if_neg fun hboth => hconnected hboth.2]

end Logged

end Ioscpp.TcpLink
