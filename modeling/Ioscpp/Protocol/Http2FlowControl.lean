import Ioscpp.Protocol.Http2Flow

/-!
# The flow-control bounds

Two invariants of the flow-control machine.  The connection's window never
exceeds what the peer granted the connection less what was sent, so the bytes
sent stay within the grants.  One counter stands for the window of every stream:
it bounds what the peer granted all streams less what was sent on all of them,
which bounds a stream's own credit only while the other streams have none left.

## Main results

- `toInt32_grant`, `toInt32_spend`: what the 32-bit counters do, also when they wrap.
- `Http2.sentTotal_le`: the bound of the connection.
- `Http2.sentOn_le`: the bound of a stream, in sessions whose events are in credit.
-/

namespace Ioscpp.Protocol

open Ioscpp.Support
open Relation

/-! ## Counters -/

theorem toInt32_low (value : Int) : -2 ^ 31 ≤ toInt32 value := by
  unfold toInt32
  omega

theorem toInt32_high (value : Int) : toInt32 value < 2 ^ 31 := by
  unfold toInt32
  omega

theorem toInt32_le {value : Int} (h : -2 ^ 31 ≤ value) :
    toInt32 value ≤ value := by
  unfold toInt32
  omega

/-- A counter that is granted credit gains at most that, also when the addition wraps
around or the increment is taken for a negative one. -/
theorem toInt32_grant {window : Int} {increment : Nat}
    (hlow : -2 ^ 31 ≤ window) (h : increment < 2 ^ 32) :
    toInt32 (window + toInt32 increment) ≤ window + increment := by
  unfold toInt32
  omega

/-- A counter that has the credit spends it. -/
theorem toInt32_spend {window : Int} {count : Nat} (h : (count : Int) ≤ window)
    (hhigh : window < 2 ^ 31) : toInt32 (window - count) = window - count := by
  unfold toInt32
  omega

/-- A property holds at every point of a trace: of each of its beginnings, the empty one
and the whole trace among them. -/
def Always (P : List Http2Event → Prop) (trace : List Http2Event) : Prop :=
  ∀ front, front <+: trace → P front

theorem Always.now {P : List Http2Event → Prop} {trace : List Http2Event}
    (h : Always P trace) : P trace :=
  h trace (List.prefix_refl trace)

theorem Always.concat {P : List Http2Event → Prop} {trace : List Http2Event}
    {event : Http2Event} (h : Always P trace) (hevent : P (trace ++ [event])) :
    Always P (trace ++ [event]) := by
  intro front hfront
  rcases List.prefix_concat_iff.mp hfront with rfl | hfront
  · exact hevent
  · exact h front hfront

/-- What holds of every event of a trace, after those before it. -/
theorem forall_event_concat {P : List Http2Event → Http2Event → Prop}
    {trace : List Http2Event} {event : Http2Event} :
    (∀ front other, front ++ [other] <+: trace ++ [event] → P front other) ↔
      (∀ front other, front ++ [other] <+: trace → P front other) ∧
        P trace event := by
  constructor
  · intro h
    exact ⟨fun front other hfront =>
      h front other (hfront.trans (List.prefix_append _ _)),
      h trace event (List.prefix_refl _)⟩
  · rintro ⟨h, hevent⟩ front other hfront
    rcases List.prefix_concat_iff.mp hfront with heq | hfront
    · obtain ⟨rfl, hother⟩ := List.append_inj' heq rfl
      obtain rfl := (List.cons.inj hother).1
      exact hevent
    · exact h front other hfront

/-! ## The connection -/

/-- What was sent on the connection is within what the peer granted it. -/
def WithinConnection (trace : List Http2Event) : Prop :=
  sentTotal trace ≤ 65535 + grantedTo 0 trace

/-- The connection's window is within the peer's grants, now and before. -/
structure Flow.ConnectionBound (flow : Flow) : Prop where
  low : -2 ^ 31 ≤ flow.connectionWindow
  high : flow.connectionWindow < 2 ^ 31
  window : flow.connectionWindow ≤
    65535 + (grantedTo 0 flow.trace : Int) - sentTotal flow.trace
  sound : Always WithinConnection flow.trace

theorem Flow.connectionBound_start : Flow.start.ConnectionBound := by
  refine ⟨by decide, by decide, by decide, fun front hfront => ?_⟩
  obtain rfl := List.prefix_nil.mp hfront
  exact Nat.zero_le _

/-- An event that neither sends nor grants to the connection. -/
private theorem WithinConnection.concat_other {trace : List Http2Event}
    (h : WithinConnection trace) {event : Http2Event} (hsize : event.sentSize = 0) :
    WithinConnection (trace ++ [event]) := by
  unfold WithinConnection at h ⊢
  rw [sentTotal_concat, grantedTo_concat, hsize]
  omega

theorem Flow.ConnectionBound.step {flow next : Flow} (h : flow.ConnectionBound)
    (hstep : Flow.Step flow next) : next.ConnectionBound := by
  obtain ⟨hlow, hhigh, hwindow, hsound⟩ := h
  have hnow := hsound.now
  cases hstep with
  | @grantConnection increment hlt =>
      have hgrant := toInt32_grant hlow hlt
      refine ⟨toInt32_low _, toInt32_high _, ?_,
        hsound.concat (hnow.concat_other rfl)⟩
      rw [grantedTo_concat, sentTotal_concat]
      simp only [Http2Event.grantedBy, Http2Event.sentSize, if_true]
      push_cast
      omega
  | @grantStream stream increment hstream hlt =>
      refine ⟨hlow, hhigh, ?_, hsound.concat (hnow.concat_other rfl)⟩
      rw [grantedTo_concat, sentTotal_concat]
      simp only [Http2Event.grantedBy, Http2Event.sentSize, if_neg hstream]
      exact hwindow
  | @initialWindow value hlt =>
      refine ⟨hlow, hhigh, ?_, hsound.concat (hnow.concat_other rfl)⟩
      rw [grantedTo_concat, sentTotal_concat]
      exact hwindow
  | @send stream count hconnection hstream =>
      have hspend := toInt32_spend hconnection hhigh
      refine ⟨toInt32_low _, toInt32_high _, ?_, hsound.concat ?_⟩
      · rw [grantedTo_concat, sentTotal_concat]
        simp only [Http2Event.grantedBy, Http2Event.sentSize]
        push_cast
        omega
      · unfold WithinConnection
        rw [grantedTo_concat, sentTotal_concat]
        simp only [Http2Event.grantedBy, Http2Event.sentSize]
        omega

theorem Flow.connectionBound_of_reaches {flow : Flow}
    (h : ReflTransGen Flow.Step Flow.start flow) : flow.ConnectionBound := by
  induction h with
  | refl => exact Flow.connectionBound_start
  | tail _ hstep ih => exact ih.step hstep

/-- At every point of a session over any transport, however its calls end, the DATA
bytes sent on the connection are at most the 65535 of its first window and the
increments for stream 0 that were processed so far. -/
theorem Http2.sentTotal_le {τ : Type} [Transport τ] (transport : τ) (fuel : Nat)
    (calls : List (Nat × Http2.Call)) {front : List Http2Event}
    (h : front <+: (Http2.session transport fuel calls).2.trace) :
    sentTotal front ≤ 65535 + grantedTo 0 front :=
  (Flow.connectionBound_of_reaches
    (Http2.reaches_session transport fuel calls)).sound front h

/-- A peer that sets an initial window of 4 bytes and grants stream 3 ten more. -/
def grantingPeer : ScriptedTransport where
  reads := [.ok (appendFrame [] kSettings 0 0
      (appendSetting [] kSettingsInitialWindowSize 4)),
    .ok (windowUpdateFrame kHttp2ReplyStream 10)]

theorem Http2.sentTotal_le_grantingPeer :
    sentTotal (Http2.session grantingPeer 2
      [(3, .write kHttp2ControlStream [1, 2, 3, 4, 5, 6, 7, 8])]).2.trace ≤
      65535 + grantedTo 0 (Http2.session grantingPeer 2
        [(3, .write kHttp2ControlStream [1, 2, 3, 4, 5, 6, 7, 8])]).2.trace :=
  Http2.sentTotal_le grantingPeer 2 _ (List.prefix_refl _)

/-! ## The streams -/

/-- The bytes sent on the streams but one. -/
def sentElsewhere (stream : Nat) (trace : List Http2Event) : Nat :=
  sentTotal trace - sentOn stream trace

/-- The increments granted to the streams but one. -/
def grantedElsewhere (stream : Nat) (trace : List Http2Event) : Nat :=
  (trace.map fun event =>
    event.grantedSize - event.grantedBy stream).sum

/-- An event that leaves the shared counter within a stream's own credit: a
stream is sent on only while the others have no credit left, and the initial
window is set only before anything is sent. -/
def Http2Event.InCredit (front : List Http2Event) : Http2Event → Prop
  | .sent stream _ => grantedElsewhere stream front ≤ sentElsewhere stream front
  | .initialWindow _ => sentTotal front = 0
  | .granted _ _ => True

/-- Every event of a trace is such an event. -/
def InCredit (trace : List Http2Event) : Prop :=
  ∀ front event, front ++ [event] <+: trace → event.InCredit front

theorem inCredit_nil : InCredit [] := by
  intro front event hfront
  have hlength := hfront.length_le
  simp at hlength

theorem inCredit_concat {trace : List Http2Event} {event : Http2Event} :
    InCredit (trace ++ [event]) ↔ InCredit trace ∧ event.InCredit trace :=
  forall_event_concat

theorem sentOn_le_sentTotal (stream : Nat) (trace : List Http2Event) :
    sentOn stream trace ≤ sentTotal trace := by
  refine List.sum_le_sum fun event _ => ?_
  cases event with
  | sent other size =>
      simp only [Http2Event.sentBy, Http2Event.sentSize]
      split <;> omega
  | granted _ _ => exact Nat.le_refl _
  | initialWindow _ => exact Nat.le_refl _

theorem grantedTotal_le (stream : Nat) (trace : List Http2Event) :
    grantedTotal trace ≤ grantedTo stream trace + grantedElsewhere stream trace := by
  induction trace with
  | nil => exact Nat.le_refl _
  | cons event rest ih =>
      simp only [grantedTotal, grantedTo, grantedElsewhere, List.map_cons,
        List.sum_cons] at ih ⊢
      omega

/-- What was sent on a stream is within its own credit. -/
def WithinStream (stream : Nat) (trace : List Http2Event) : Prop :=
  sentOn stream trace ≤ latestWindow trace + grantedTo stream trace

/-- The shared counter is within what the peer granted all streams, and every
stream's traffic within its own credit, now and before. -/
structure Flow.StreamBound (flow : Flow) : Prop where
  low : -2 ^ 31 ≤ flow.streamWindow
  high : flow.streamWindow < 2 ^ 31
  window : flow.streamWindow ≤ (latestWindow flow.trace : Int) +
    grantedTotal flow.trace - sentTotal flow.trace
  sound : ∀ stream, Always (WithinStream stream) flow.trace

theorem Flow.streamBound_start : Flow.start.StreamBound := by
  refine ⟨by decide, by decide, by decide, fun stream front hfront => ?_⟩
  obtain rfl := List.prefix_nil.mp hfront
  exact Nat.zero_le _

theorem Flow.StreamBound.step {flow next : Flow} (h : flow.StreamBound)
    (hstep : Flow.Step flow next) (hcredit : InCredit next.trace) :
    next.StreamBound := by
  obtain ⟨hlow, hhigh, hwindow, hsound⟩ := h
  have hnow := fun stream => (hsound stream).now
  cases hstep with
  | @grantConnection increment hlt =>
      refine ⟨hlow, hhigh, ?_, fun stream => (hsound stream).concat ?_⟩
      · rw [latestWindow_concat, grantedTotal_concat, sentTotal_concat]
        exact hwindow
      · have hstream := hnow stream
        unfold WithinStream at hstream ⊢
        rw [sentOn_concat, latestWindow_concat, grantedTo_concat]
        simp only [Http2Event.sentBy]
        omega
  | @grantStream stream increment hstream hlt =>
      have hgrant := toInt32_grant hlow hlt
      refine ⟨toInt32_low _, toInt32_high _, ?_,
        fun stream => (hsound stream).concat ?_⟩
      · rw [latestWindow_concat, grantedTotal_concat, sentTotal_concat]
        simp only [Http2Event.grantedSize, Http2Event.sentSize, if_neg hstream]
        push_cast
        omega
      · have hstream := hnow stream
        unfold WithinStream at hstream ⊢
        rw [sentOn_concat, latestWindow_concat, grantedTo_concat]
        simp only [Http2Event.sentBy]
        omega
  | @initialWindow value hlt =>
      -- nothing was sent, so the new window forgets no traffic
      have hnone : sentTotal flow.trace = 0 :=
        hcredit flow.trace _ (List.prefix_refl _)
      have hvalue : toInt32 value ≤ value := toInt32_le (by omega)
      refine ⟨toInt32_low _, toInt32_high _, ?_,
        fun stream => (hsound stream).concat ?_⟩
      · rw [latestWindow_concat, grantedTotal_concat, sentTotal_concat, hnone]
        simp only [Http2Event.grantedSize, Http2Event.sentSize]
        push_cast
        omega
      · have hle := sentOn_le_sentTotal stream flow.trace
        unfold WithinStream
        rw [sentOn_concat, latestWindow_concat, grantedTo_concat]
        simp only [Http2Event.sentBy]
        omega
  | @send stream count hconnection hstream =>
      have hothers : grantedElsewhere stream flow.trace ≤
          sentElsewhere stream flow.trace :=
        hcredit flow.trace _ (List.prefix_refl _)
      have hspend := toInt32_spend hstream hhigh
      refine ⟨toInt32_low _, toInt32_high _, ?_,
        fun other => (hsound other).concat ?_⟩
      · rw [latestWindow_concat, grantedTotal_concat, sentTotal_concat]
        simp only [Http2Event.grantedSize, Http2Event.sentSize]
        push_cast
        omega
      · have hother := hnow other
        unfold WithinStream at hother ⊢
        rw [sentOn_concat, latestWindow_concat, grantedTo_concat]
        simp only [Http2Event.sentBy, Http2Event.grantedBy]
        split
        · rename_i heq
          subst heq
          have hsent := sentOn_le_sentTotal stream flow.trace
          have hgranted := grantedTotal_le stream flow.trace
          unfold sentElsewhere at hothers
          omega
        · omega

theorem Flow.streamBound_of_reaches {flow : Flow}
    (h : ReflTransGen Flow.Step Flow.start flow) (hcredit : InCredit flow.trace) :
    flow.StreamBound := by
  induction h with
  | refl => exact Flow.streamBound_start
  | tail _ hstep ih =>
      refine (ih ?_).step hstep hcredit
      cases hstep <;> exact (inCredit_concat.mp hcredit).1

/-- At every point of a session over any transport whose events are in credit, the DATA
bytes sent on a stream are within the stream's own window: the latest initial window and
the increments for the stream that were processed so far. -/
theorem Http2.sentOn_le {τ : Type} [Transport τ] (transport : τ) (fuel : Nat)
    (calls : List (Nat × Http2.Call))
    (hcredit : InCredit (Http2.session transport fuel calls).2.trace)
    (stream : Nat) {front : List Http2Event}
    (h : front <+: (Http2.session transport fuel calls).2.trace) :
    sentOn stream front ≤ latestWindow front + grantedTo stream front :=
  (Flow.streamBound_of_reaches (Http2.reaches_session transport fuel calls)
    hcredit).sound stream front h

/-- A session that sends four bytes in credit. -/
theorem Http2.sentOn_le_grantingPeer :
    sentOn 1 (Http2.session grantingPeer 2
      [(1, .write kHttp2ControlStream [1, 2, 3, 4])]).2.trace ≤ 4 := by
  have htrace : (Http2.session grantingPeer 2
      [(1, .write kHttp2ControlStream [1, 2, 3, 4])]).2.trace =
      [.initialWindow 4, .sent 1 4] := by
    decide +kernel
  have hcredit : InCredit (Http2.session grantingPeer 2
      [(1, .write kHttp2ControlStream [1, 2, 3, 4])]).2.trace := by
    rw [htrace]
    have hfirst : InCredit [.initialWindow 4] :=
      (@inCredit_concat [] _).mpr ⟨inCredit_nil, rfl⟩
    exact (@inCredit_concat [.initialWindow 4] _).mpr ⟨hfirst, Nat.le_refl 0⟩
  have hle := Http2.sentOn_le grantingPeer 2 _ hcredit 1 (List.prefix_refl _)
  rw [htrace] at hle ⊢
  exact hle

/-- Credit for stream 3 is spent on stream 1. -/
theorem Http2.sentOn_grantingPeer :
    ¬ ∀ (transport : ScriptedTransport) (fuel : Nat)
      (calls : List (Nat × Http2.Call)) (stream : Nat) (front : List Http2Event),
      front <+: (Http2.session transport fuel calls).2.trace →
      sentOn stream front ≤ latestWindow front + grantedTo stream front := by
  intro h
  have hle := h grantingPeer 2
    [(1, .openStream kHttp2ControlStream), (1, .openStream kHttp2ReplyStream),
      (3, .write kHttp2ControlStream [1, 2, 3, 4, 5, 6, 7, 8])] 1 _
    (List.prefix_refl _)
  revert hle
  decide +kernel

end Ioscpp.Protocol
