import Ioscpp.TcpLinkSilent

/-!
# Calls that keep a finished link silent

A read and `close` look at the flag of a link that ended; `write` and `connect` do
not, and a reset that answers a SYN does not set it.  So the law of finished links
holds exactly as long as the callers keep away from a link that ended.

Whether a call has ended the link is read off the log of its calls: a close did, and
so did a read that took a reset or sent the FIN.  The flag of the link is shown to
be set exactly then.

## Main results

* `LinkCall.Sane.step`: a call keeps a log silent exactly when it is careful, and
  sets the flag exactly when it ends the link.
* `silent_iff_careful`: every log of a link's calls is silent exactly when all calls
  are careful.
-/

namespace Ioscpp.TcpLink

open Ioscpp.Support
open Ioscpp.Protocol

/-! ## Sequences of calls -/

/-- A call of the link's user, who may connect again. -/
inductive LinkCall where
  | connect (fuel : Nat) (address : Bytes) (port : UInt16)
  | read (count fuel : Nat)
  | write (data : Bytes)
  | close

namespace LinkCall

variable {τ : Type} [Transport τ]

def perform : LinkCall → Action Error (τ × TcpLink) Unit
  | .connect fuel address port => TcpLink.connect fuel address port
  | .read count fuel => do
      let _ ← TcpLink.read count fuel
      return ()
  | .write data => TcpLink.write data
  | .close => TcpLink.close

def logged : LinkCall → Logged.LoggedAction τ Unit
  | .connect fuel address port => Logged.connect fuel address port
  | .read count fuel => do
      let _ ← Logged.read count fuel
      return ()
  | .write data => Logged.write data
  | .close => Logged.close

theorem erases_logged (call : LinkCall) :
    Action.Erases (logged call : Logged.LoggedAction τ Unit) call.perform := by
  cases call with
  | connect fuel address port => exact Logged.erases_connect fuel address port
  | read count fuel =>
      exact (Logged.erases_read count fuel).bind fun _ => Action.erases_pure _
  | write data => exact Logged.erases_write data
  | close => exact Logged.erases_close

/-- Performs calls one after the other, whether or not they succeed. -/
def performAll (calls : List LinkCall) (state : τ × TcpLink) : τ × TcpLink :=
  calls.foldl (fun state call => (call.perform.run state).2) state

def loggedAll (calls : List LinkCall)
    (state : (τ × TcpLink) × List LinkEvent) :
    (τ × TcpLink) × List LinkEvent :=
  calls.foldl (fun state call => (call.logged.run state).2) state

/-- Without the log the calls are the link's. -/
theorem fst_loggedAll (calls : List LinkCall) (state : τ × TcpLink)
    (log : List LinkEvent) :
    (loggedAll calls (state, log)).1 = performAll calls state := by
  induction calls generalizing state log with
  | nil => rfl
  | cons call calls ih =>
      have hfirst := (call.erases_logged state log).2
      rcases hrun : call.logged.run (state, log) with ⟨result, next, log'⟩
      rw [hrun] at hfirst
      change (loggedAll calls (call.logged.run (state, log)).2).1 = _
      rw [hrun, ih]
      rw [show next = (call.perform.run state).2 from hfirst]
      rfl

/-- The call does nothing that a finished link should not do.  It writes no bytes
after a FIN or a reset.  After a reset it does not get as far as a SYN, and as long
as no call `ended` the link it does not close an established link, nor read, with no
bytes held, when the next segment to come that a read takes note of has to be
answered. -/
def Careful (call : LinkCall) (ended : Prop)
    (state : (τ × TcpLink) × List LinkEvent) : Prop :=
  match call with
  | .connect _ address _ =>
      RstTaken state.2 → ¬ Logged.Connects state.1.2 address
  | .read _ fuel => RstTaken state.2 → ¬ ended →
      state.1.2.incomingOffset = state.1.2.incoming.length →
        ∀ segment, (toCome fuel state.1).find? (Heeded ·) = some segment →
          ¬ Answered segment
  | .write data => FinSent state.2 ∨ RstTaken state.2 → data = []
  | .close => RstTaken state.2 → ¬ ended → state.1.2.established = false

/-- A call that did this has ended the link: it is a close, or a read that took a
reset or sent the FIN. -/
def Ends (call : LinkCall) (events : List LinkEvent) : Prop :=
  match call with
  | .connect _ _ _ => False
  | .read _ _ => RstTaken events ∨ FinSent events
  | .write _ => False
  | .close => True

/-- The events that a call adds to the log. -/
def events (call : LinkCall) (state : (τ × TcpLink) × List LinkEvent) :
    List LinkEvent :=
  (call.logged.run state).2.2.drop state.2.length

/-- Every call is careful, in the state before it; the calls before may have ended
the link. -/
def CarefulAll : List LinkCall → Prop → (τ × TcpLink) × List LinkEvent → Prop
  | [], _, _ => True
  | call :: calls, ended, state =>
      call.Careful ended state ∧
        CarefulAll calls (ended ∨ call.Ends (call.events state))
          (call.logged.run state).2

/-- A link is closed exactly when a call has ended it; then also its FIN may be
sent.  Its segments have bytes. -/
structure Sane (ended : Prop) (state : (τ × TcpLink) × List LinkEvent) :
    Prop where
  mss : 0 < state.1.2.mss
  closed : state.1.2.closed = true ↔ ended
  finSent : FinSent state.2 → ended

section Step

variable {ended : Prop} {state : (τ × TcpLink) × List LinkEvent}

theorem finSent_greets {more : List LinkEvent} (h : Greets more) :
    ¬ FinSent more := by
  rintro ⟨flags, payload, hmem, hfin⟩
  induction h with
  | none => cases hmem
  | skip _ _ ih => exact ih (by simpa using hmem)
  | reset => simp at hmem
  | synAck =>
      obtain ⟨rfl, -⟩ : flags = TcpAck ∧ payload = [] := by simpa using hmem
      exact hfin (by decide)

/-- A read ends the link exactly when it takes a reset or sends the FIN. -/
theorem reads_closed_iff {segments : List Segment} {more : List LinkEvent}
    {closed : Bool} (h : Reads segments more closed) :
    closed = true ↔ RstTaken more ∨ FinSent more := by
  have hnil : ¬ RstTaken [] := by
    rintro ⟨_, hmem, -⟩
    cases hmem
  induction h with
  | none => simp [hnil, not_finSent_nil]
  | @skip segment rest more closed hidle hmore ih =>
      have hrst : ¬ segment.flags &&& TcpRst ≠ 0 := fun hrst => hidle (.inl hrst)
      have hfirst : RstTaken (.took segment :: more) ↔ RstTaken more := by
        rw [← List.singleton_append, rstTaken_append, ← List.nil_append [_],
          rstTaken_took]
        simp [hnil, hrst]
      have hsent : FinSent (.took segment :: more) ↔ FinSent more := by
        rw [← List.singleton_append, finSent_append, ← List.nil_append [_],
          finSent_took]
        simp [not_finSent_nil]
      exact ih.trans (or_congr hfirst hsent).symm
  | @reset segment rest hrst =>
      exact iff_of_true rfl (.inl ⟨segment, List.mem_singleton.mpr rfl, hrst⟩)
  | @fin segment rest hanswered =>
      exact iff_of_true rfl (.inr ⟨TcpAck ||| TcpFin, [], by simp, by decide⟩)
  | @data segment rest hanswered =>
      refine iff_of_false Bool.false_ne_true ?_
      rintro (⟨other, hmem, hrst⟩ | ⟨flags, payload, hmem, hfin⟩)
      · obtain rfl : other = segment := by simpa using hmem
        exact hrst hanswered.1
      · obtain ⟨rfl, -⟩ : flags = TcpAck ∧ payload = [] := by simpa using hmem
        exact absurd (by decide) hfin

theorem finSent_writes {more : List LinkEvent} (h : Writes more) :
    ¬ FinSent more := by
  rintro ⟨flags, payload, hmem, hfin⟩
  obtain ⟨_, -, heq⟩ := h _ hmem
  rw [LinkEvent.sent.injEq] at heq
  rw [heq.1] at hfin
  exact hfin (by decide)

private theorem Sane.step_write (h : Sane ended state) (data : Bytes) :
    Sane ended ((Logged.write data).run state).2 ∧
      (Silent ((Logged.write data).run state).2.2 ↔
        Silent state.2 ∧ Careful (.write data) ended state) := by
  obtain ⟨more, hwrites, hmore, hat⟩ : ∃ more, Writes more ∧
      (more = [] ↔ data = []) ∧
        Logged.At state.1.2 (state.2 ++ more)
          ((Logged.write data).run state).2 := by
    have hpost := Logged.triple_write h.mss data state
      (Logged.at_start state.1 state.2)
    rcases hrun : (Logged.write data).run state with ⟨_ | _, next⟩ <;>
      (rw [hrun] at hpost; exact hpost)
  have hsteady := hat.steady
  refine ⟨⟨hsteady.1 ▸ h.mss, hsteady.2 ▸ h.closed, fun hfin => ?_⟩, ?_⟩
  · rw [hat.2, finSent_append, or_iff_left (finSent_writes hwrites)] at hfin
    exact h.finSent hfin
  · rw [hat.2, silent_writes hwrites, Ne, hmore, Careful]
    exact and_congr_right fun _ => not_imp_not

private theorem Sane.step_connect (h : Sane ended state) (fuel : Nat)
    (address : Bytes) (port : UInt16) :
    Sane ended ((Logged.connect fuel address port).run state).2 ∧
      (Silent ((Logged.connect fuel address port).run state).2.2 ↔
        Silent state.2 ∧ Careful (.connect fuel address port) ended state) := by
  obtain ⟨hsteady, hlog⟩ : Logged.Steady state.1.2 state.1.2.closed
      ((Logged.connect fuel address port).run state).2.1.2 ∧
      (¬ Logged.Connects state.1.2 address ∧
          ((Logged.connect fuel address port).run state).2.2 = state.2 ∨
        Logged.Connects state.1.2 address ∧ ∃ more, Greets more ∧
          ((Logged.connect fuel address port).run state).2.2 =
            state.2 ++ .sent TcpSyn [] :: more) := by
    have hpost := Logged.triple_connect fuel address port state
      (Logged.at_start state.1 state.2)
    rcases hrun : (Logged.connect fuel address port).run state with
      ⟨_ | _, next⟩
    · rw [hrun] at hpost
      exact hpost
    · rw [hrun] at hpost
      exact ⟨hpost.1, .inr hpost.2⟩
  have hfinSent (hfin :
      FinSent ((Logged.connect fuel address port).run state).2.2) :
      FinSent state.2 := by
    rcases hlog with ⟨-, hlog⟩ | ⟨-, more, hgreets, hlog⟩
    · rwa [hlog] at hfin
    · rw [hlog, List.append_cons, finSent_append, finSent_sent] at hfin
      rcases hfin with (hfin | hfin) | hfin
      · exact hfin
      · exact absurd (by decide) hfin
      · exact absurd hfin (finSent_greets hgreets)
  refine ⟨⟨hsteady.1 ▸ h.mss, hsteady.2 ▸ h.closed,
    fun hfin => h.finSent (hfinSent hfin)⟩, ?_⟩
  rcases hlog with ⟨hnone, hlog⟩ | ⟨hconnects, more, hgreets, hlog⟩
  · rw [hlog, Careful, and_iff_left fun _ => hnone]
  · rw [hlog, Careful]
    by_cases hrst : RstTaken state.2
    · refine iff_of_false (fun hsilent => ?_) fun hboth => hboth.2 hrst hconnects
      exact hsilent.reset state.2 _ _ _ rfl hrst
    · rw [List.append_cons, silent_greets hgreets (by rwa [rstTaken_sent]),
        silent_sent]
      refine and_congr_right fun _ => iff_of_true ⟨hrst, fun _ => ?_⟩
        fun hover => absurd hover hrst
      exact ⟨rfl, by decide⟩

/-- A read of a link that is closed, or that holds bytes, takes no segment. -/
private theorem Sane.step_read_still (h : Sane ended state) (count fuel : Nat)
    (hstill : state.1.2.closed = true ∨
      state.1.2.incomingOffset ≠ state.1.2.incoming.length) :
    Sane ended ((Logged.read count fuel).run state).2 ∧
      ((Logged.read count fuel).run state).2.2 = state.2 := by
  have hpost := Logged.triple_read_still count fuel hstill state
    (Logged.at_start state.1 state.2)
  obtain ⟨hlog, hsteady⟩ : ((Logged.read count fuel).run state).2.2 = state.2 ∧
      Logged.Steady state.1.2 state.1.2.closed
        ((Logged.read count fuel).run state).2.1.2 := by
    rcases hrun : (Logged.read count fuel).run state with ⟨_ | _, next⟩ <;>
      (rw [hrun] at hpost; exact hpost)
  refine ⟨⟨hsteady.1 ▸ h.mss, hsteady.2 ▸ h.closed, fun hfin => ?_⟩, hlog⟩
  rw [hlog] at hfin
  exact h.finSent hfin

/-- A read ends the link with a reset that it takes, and with the FIN. -/
private theorem Sane.step_read (h : Sane ended state) (count fuel : Nat) :
    Sane (ended ∨ Ends (.read count fuel)
        (((Logged.read count fuel).run state).2.2.drop state.2.length))
      ((Logged.read count fuel).run state).2 ∧
      (Silent ((Logged.read count fuel).run state).2.2 ↔
        Silent state.2 ∧ Careful (.read count fuel) ended state) := by
  by_cases hstill : state.1.2.closed = true ∨
      state.1.2.incomingOffset ≠ state.1.2.incoming.length
  · obtain ⟨hsane, hlog⟩ := h.step_read_still count fuel hstill
    have hnone : ¬ (RstTaken [] ∨ FinSent []) := by
      rintro (⟨_, hmem, -⟩ | ⟨_, _, hmem, -⟩) <;> cases hmem
    rw [hlog, List.drop_length, Ends, or_iff_left hnone]
    refine ⟨hsane, (and_iff_left fun _ hopen hdone => ?_).symm⟩
    exact absurd hstill (not_or.mpr
      ⟨fun hclosed => hopen (h.closed.mp hclosed), not_not_intro hdone⟩)
  obtain ⟨hopen, hdone⟩ := not_or.mp hstill
  replace hdone := not_not.mp hdone
  have hended : ¬ ended := fun hended => hopen (h.closed.mpr hended)
  obtain ⟨more, closed, hreads, hlog, hsteady⟩ :
      Logged.ReadsTo state.1.2 state.2 (toCome fuel state.1)
        ((Logged.read count fuel).run state).2 := by
    have hpost := Logged.triple_read count fuel
      (Bool.eq_false_of_not_eq_true hopen) hdone state
      ⟨Logged.at_start state.1 state.2, rfl⟩
    rcases hrun : (Logged.read count fuel).run state with ⟨_ | _, next⟩ <;>
      (rw [hrun] at hpost; exact hpost)
  have hclosed := reads_closed_iff hreads
  rw [hlog, List.drop_left, Ends]
  refine ⟨⟨hsteady.1 ▸ h.mss, ?_, fun hfin => ?_⟩, ?_⟩
  · rw [hsteady.2, hclosed, or_iff_right hended]
  · rw [hlog, finSent_append] at hfin
    exact hfin.imp h.finSent .inr
  · rw [silent_reads hreads fun _ hfin => hended (h.finSent hfin), Careful]
    exact and_congr_right fun _ => ⟨fun hall hover _ _ => hall hover,
      fun hall hover => hall hover hended hdone⟩

private theorem Sane.step_close (h : Sane ended state) :
    Sane True (Logged.close.run state).2 ∧
      (Silent (Logged.close.run state).2.2 ↔
        Silent state.2 ∧ Careful .close ended state) := by
  obtain ⟨⟨⟩, next, hrun, hsteady, hlog⟩ := Logged.triple_close.exists_ok
    (Logged.at_start state.1 state.2)
  rw [hrun]
  refine ⟨⟨hsteady.1 ▸ h.mss, iff_of_true hsteady.2 trivial, fun _ => trivial⟩, ?_⟩
  rw [hlog, Careful]
  by_cases hsends : state.1.2.closed = false ∧ state.1.2.established = true
  · have hopen : ¬ ended := fun hended => by
      rw [h.closed.mpr hended] at hsends
      cases hsends.1
    rw [if_pos hsends, silent_sent]
    refine and_congr_right fun _ => ⟨fun hallowed hover => absurd hover hallowed.1,
      fun hcareful => ⟨fun hover => ?_, fun hfin => absurd (h.finSent hfin) hopen⟩⟩
    have hnot := hcareful hover hopen
    rw [hsends.2] at hnot
    cases hnot
  · rw [if_neg hsends]
    refine (and_iff_left fun _ hopen => ?_).symm
    refine Bool.eq_false_of_not_eq_true fun hestablished => hsends ⟨?_, hestablished⟩
    exact Bool.eq_false_of_not_eq_true fun hclosed => hopen (h.closed.mp hclosed)

/-- A call keeps a log silent exactly when it is careful, and the link is closed
when it has ended it. -/
theorem Sane.step (h : Sane ended state) (call : LinkCall) :
    Sane (ended ∨ call.Ends (call.events state)) (call.logged.run state).2 ∧
      (Silent (call.logged.run state).2.2 ↔
        Silent state.2 ∧ call.Careful ended state) := by
  cases call with
  | connect fuel address port =>
      rw [Ends, or_false]
      exact h.step_connect fuel address port
  | read count fuel =>
      have hstate : ((LinkCall.read count fuel).logged.run state).2 =
          ((Logged.read count fuel).run state).2 := by
        rw [logged, Action.run_bind]
        rcases (Logged.read count fuel).run state with ⟨_ | _, next⟩ <;> rfl
      rw [events, hstate]
      exact h.step_read count fuel
  | write data =>
      rw [Ends, or_false]
      exact h.step_write data
  | close =>
      rw [Ends, or_true]
      exact h.step_close

theorem Sane.silent_loggedAll (h : Sane ended state) (calls : List LinkCall) :
    Silent (loggedAll calls state).2 ↔
      Silent state.2 ∧ CarefulAll calls ended state := by
  induction calls generalizing ended state with
  | nil => exact (and_iff_left trivial).symm
  | cons call calls ih =>
      obtain ⟨hsane, hstep⟩ := h.step call
      have hcalls := ih hsane
      rw [hstep, and_assoc] at hcalls
      exact hcalls

end Step

end LinkCall

/-- Over every sequence of calls of a link that was opened, whatever its tunnel does,
the link is silent when it is finished exactly when the calls are careful with a link
that is. Careful is said of the calls before a call, and of the segments that are to
come. -/
theorem silent_iff_careful {τ : Type} [Transport τ] {clientAddress : Bytes}
    {mtu nextSourcePort counter : UInt16} {link : TcpLink}
    (hopen : (openLink clientAddress mtu).run nextSourcePort = (.ok link, counter))
    (tunnel : τ) (calls : List LinkCall) :
    Silent (LinkCall.loggedAll calls ((tunnel, link), [])).2 ↔
      LinkCall.CarefulAll calls False ((tunnel, link), []) := by
  have hclosed : ¬ link.closed = true := by
    rw [(fresh_openLink hopen).closed]
    exact Bool.false_ne_true
  have hsane : LinkCall.Sane False ((tunnel, link), []) :=
    ⟨mss_pos_openLink hopen, iff_false_intro hclosed,
      fun hfin => absurd hfin not_finSent_nil⟩
  rw [hsane.silent_loggedAll calls]
  exact and_iff_right silent_nil

/-- A link is connected, closed, and written to. -/
private def closedThenWritten : List LinkCall := [
  .connect 9 (ascii "fe80::2") 54323,
  .close,
  .write [1]]

/-- A tunnel with the answer to its SYN. -/
private def answeringTunnel : ScriptedTransport where
  reads := [.ok (peerPacket ⟨49152, 54323⟩ (TcpSyn ||| TcpAck) 999 [])]

theorem silent_iff_careful_closedThenWritten :
    Silent (LinkCall.loggedAll closedThenWritten
        ((answeringTunnel, create (ascii "fe80::1") 1280 49152), [])).2 ↔
      LinkCall.CarefulAll closedThenWritten False
        ((answeringTunnel, create (ascii "fe80::1") 1280 49152), []) :=
  silent_iff_careful openLink_linkLocal answeringTunnel closedThenWritten

/-- The byte is sent after the FIN. -/
theorem not_silent_closedThenWritten :
    ¬ Silent (LinkCall.loggedAll closedThenWritten
      ((answeringTunnel, create (ascii "fe80::1") 1280 49152), [])).2 := by
  intro hsilent
  have hlog : (LinkCall.loggedAll closedThenWritten
      ((answeringTunnel, create (ascii "fe80::1") 1280 49152), [])).2 =
      [.sent TcpSyn [], .took ⟨TcpSyn ||| TcpAck, 999, []⟩, .sent TcpAck [],
        .sent (TcpFin ||| TcpAck) []] ++ .sent TcpAck [1] :: [] := by
    decide +kernel
  have hnone := hsilent.payload _ _ _ _ hlog (.inl
    ⟨TcpFin ||| TcpAck, [], by simp, by decide⟩)
  cases hnone

end Ioscpp.TcpLink
