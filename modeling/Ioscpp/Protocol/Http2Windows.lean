import Ioscpp.Protocol.Http2FlowControl

/-!
# The windows as integers

What a peer's frames and the DATA sent define are integers: an increment is 31
bits wide, and a new initial window moves the streams' window by its difference
to the one before.  The connection counts in 32 bits and takes a new initial
window as it is.  The two agree at every point of a session exactly when every
frame of the peer's leaves the counters room.

## Main results

- `toInt32_grant_eq_iff`: when a counter takes a grant as it is.
- `Flow.exact_iff_of_reaches`: a run of the machine is exact exactly if every event
  leaves the counters room.
- `Http2.windows_exact_iff`: so is every session.
-/

namespace Ioscpp.Protocol

open Ioscpp.Support
open Relation

/-! ## Two ways to count -/

/-- The windows as integers: the connection's, the one that stands for the
streams, and the initial one. -/
structure Windows where
  connection : Int
  stream : Int
  initial : Int
  deriving DecidableEq

namespace Windows

def start : Windows := ⟨kDefaultWindowSize, kDefaultWindowSize, kDefaultWindowSize⟩

/-- What a frame does to the windows; the top bit of an increment is reserved. -/
def apply (windows : Windows) : Http2Event → Windows
  | .sent _ size =>
      { windows with
        connection := windows.connection - size
        stream := windows.stream - size }
  | .granted stream increment =>
      if stream = 0 then
        { windows with
          connection := windows.connection + (increment % 2 ^ 31 : Nat) }
      else
        { windows with stream := windows.stream + (increment % 2 ^ 31 : Nat) }
  | .initialWindow value =>
      { windows with
        stream := windows.stream + (value - windows.initial)
        initial := value }

def after (trace : List Http2Event) : Windows := trace.foldl apply start

theorem after_concat (trace : List Http2Event) (event : Http2Event) :
    after (trace ++ [event]) = (after trace).apply event := by
  rw [after, List.foldl_append]
  rfl

end Windows

namespace Flow

/-- What a frame does to the connection's counters. -/
def apply (flow : Flow) (event : Http2Event) : Flow :=
  match event with
  | .sent _ size =>
      ⟨toInt32 (flow.connectionWindow - size), toInt32 (flow.streamWindow - size),
        flow.trace ++ [event]⟩
  | .granted stream increment =>
      if stream = 0 then
        ⟨toInt32 (flow.connectionWindow + toInt32 increment), flow.streamWindow,
          flow.trace ++ [event]⟩
      else
        ⟨flow.connectionWindow, toInt32 (flow.streamWindow + toInt32 increment),
          flow.trace ++ [event]⟩
  | .initialWindow value =>
      ⟨flow.connectionWindow, toInt32 value, flow.trace ++ [event]⟩

/-- The connection's counters after the frames of a trace. -/
def after (trace : List Http2Event) : Flow := trace.foldl apply start

theorem after_concat (trace : List Http2Event) (event : Http2Event) :
    after (trace ++ [event]) = (after trace).apply event := by
  rw [after, List.foldl_append]
  rfl

theorem trace_apply (flow : Flow) (event : Http2Event) :
    (flow.apply event).trace = flow.trace ++ [event] := by
  cases event with
  | sent stream size => rfl
  | granted stream increment =>
      rw [apply]
      split
      · rfl
      · rfl
  | initialWindow value => rfl

/-- An event that can happen: what is read has 32 bits, and what is sent is
within the counters. -/
def Takes (flow : Flow) : Http2Event → Prop
  | .sent _ size =>
      (size : Int) ≤ flow.connectionWindow ∧ (size : Int) ≤ flow.streamWindow
  | .granted _ increment => increment < 2 ^ 32
  | .initialWindow value => value < 2 ^ 32

/-- A step of the machine is one event more. -/
theorem Step.eq_apply {flow next : Flow} (h : Step flow next) :
    ∃ event, flow.Takes event ∧ next = flow.apply event := by
  cases h with
  | @grantConnection increment hlt => exact ⟨.granted 0 increment, hlt, rfl⟩
  | @grantStream stream increment hstream hlt =>
      refine ⟨.granted stream increment, hlt, ?_⟩
      rw [apply, if_neg hstream]
  | @initialWindow value hlt => exact ⟨.initialWindow value, hlt, rfl⟩
  | @send stream count hconnection hstream =>
      exact ⟨.sent stream count, ⟨hconnection, hstream⟩, rfl⟩

/-- The counters have 32 bits. -/
structure Fit (flow : Flow) : Prop where
  connectionLow : -2 ^ 31 ≤ flow.connectionWindow
  connectionHigh : flow.connectionWindow < 2 ^ 31
  streamLow : -2 ^ 31 ≤ flow.streamWindow
  streamHigh : flow.streamWindow < 2 ^ 31

theorem fit_start : start.Fit :=
  ⟨by decide, by decide, by decide, by decide⟩

theorem Fit.apply {flow : Flow} (h : flow.Fit) (event : Http2Event) :
    (flow.apply event).Fit := by
  cases event with
  | sent stream size =>
      exact ⟨toInt32_low _, toInt32_high _, toInt32_low _, toInt32_high _⟩
  | granted stream increment =>
      rw [Flow.apply]
      split
      · exact ⟨toInt32_low _, toInt32_high _, h.streamLow, h.streamHigh⟩
      · exact ⟨h.connectionLow, h.connectionHigh, toInt32_low _, toInt32_high _⟩
  | initialWindow value =>
      rw [Flow.apply]
      exact ⟨h.connectionLow, h.connectionHigh, toInt32_low _, toInt32_high _⟩

end Flow

/-! ## When they agree -/

/-- The counters are the windows, of the connection and of the streams, and the initial
window is one that the protocol allows. -/
structure Exact (trace : List Http2Event) : Prop where
  connection : (Flow.after trace).connectionWindow = (Windows.after trace).connection
  stream : (Flow.after trace).streamWindow = (Windows.after trace).stream
  initial : (Windows.after trace).initial < 2 ^ 31

/-- An event that leaves the counters room: a grant has its reserved bit clear
and keeps the window below 2^31, and an initial window below 2^31 is set only
while the streams' window is still the initial one. -/
def Windows.Fits (windows : Windows) : Http2Event → Prop
  | .sent _ _ => True
  | .granted stream increment =>
      increment < 2 ^ 31 ∧
        (if stream = 0 then windows.connection else windows.stream) + increment <
          2 ^ 31
  | .initialWindow value => value < 2 ^ 31 ∧ windows.stream = windows.initial

/-- A grant is counted as the protocol means it if and only if it is one, of 31 bits,
and the counter has room for it. -/
theorem toInt32_grant_eq_iff {window : Int} {increment : Nat}
    (hlow : -2 ^ 31 ≤ window) (hhigh : window < 2 ^ 31)
    (hlt : increment < 2 ^ 32) :
    toInt32 (window + toInt32 increment) =
        window + ((increment % 2 ^ 31 : Nat) : Int) ↔
      increment < 2 ^ 31 ∧ window + increment < 2 ^ 31 := by
  unfold toInt32
  omega

/-- From counters that are exact, an event leaves them exact if and only if it
leaves them room. -/
theorem exact_concat_iff {trace : List Http2Event} {event : Http2Event}
    (h : Exact trace) (hfit : (Flow.after trace).Fit)
    (htakes : (Flow.after trace).Takes event) :
    Exact (trace ++ [event]) ↔ (Windows.after trace).Fits event := by
  obtain ⟨hconnection, hstream, hinitial⟩ := h
  obtain ⟨hclow, hchigh, hslow, hshigh⟩ := hfit
  have hexact : Exact (trace ++ [event]) ↔
      ((Flow.after trace).apply event).connectionWindow =
          ((Windows.after trace).apply event).connection ∧
        ((Flow.after trace).apply event).streamWindow =
          ((Windows.after trace).apply event).stream ∧
        ((Windows.after trace).apply event).initial < 2 ^ 31 := by
    rw [← Flow.after_concat, ← Windows.after_concat]
    exact ⟨fun h => ⟨h.connection, h.stream, h.initial⟩,
      fun h => ⟨h.1, h.2.1, h.2.2⟩⟩
  rw [hexact]
  clear hexact
  rw [hconnection] at hclow hchigh
  rw [hstream] at hslow hshigh
  cases event with
  | sent stream size =>
      obtain ⟨hsize, hsize'⟩ := htakes
      rw [hconnection] at hsize
      rw [hstream] at hsize'
      simp only [Flow.apply, Windows.apply, Windows.Fits, hconnection, hstream,
        iff_true]
      exact ⟨toInt32_spend hsize hchigh, toInt32_spend hsize' hshigh, hinitial⟩
  | granted stream increment =>
      have hlt : increment < 2 ^ 32 := htakes
      by_cases hzero : stream = 0
      · have hgrant := toInt32_grant_eq_iff hclow hchigh hlt
        simp only [Flow.apply, Windows.apply, Windows.Fits, hconnection, hstream,
          hzero, if_true]
        rw [hgrant]
        exact ⟨fun h => h.1, fun h => ⟨h, trivial, hinitial⟩⟩
      · have hgrant := toInt32_grant_eq_iff hslow hshigh hlt
        simp only [Flow.apply, Windows.apply, Windows.Fits, hconnection, hstream,
          hzero, if_false]
        rw [hgrant]
        exact ⟨fun h => h.2.1, fun h => ⟨trivial, h, hinitial⟩⟩
  | initialWindow value =>
      have hlt : value < 2 ^ 32 := htakes
      simp only [Flow.apply, Windows.apply, Windows.Fits, hconnection]
      have hkept : value < 2 ^ 31 → toInt32 value = value := by
        intro hhigh
        unfold toInt32
        omega
      constructor
      · rintro ⟨-, hset, hhigh⟩
        rw [hkept (by omega)] at hset
        exact ⟨by omega, by omega⟩
      · rintro ⟨hhigh, hsame⟩
        rw [hkept hhigh]
        exact ⟨trivial, by omega, by omega⟩

/-! ## Every session -/

/-- A run of the machine counts its events, and is exact at every point if and
only if every event leaves the counters room. -/
theorem Flow.exact_iff_of_reaches {flow : Flow}
    (h : ReflTransGen Flow.Step Flow.start flow) :
    flow = Flow.after flow.trace ∧ flow.Fit ∧
      (Always Exact flow.trace ↔ ∀ front event, front ++ [event] <+: flow.trace →
        (Windows.after front).Fits event) := by
  induction h with
  | refl =>
      refine ⟨rfl, Flow.fit_start, ⟨fun _ front event hfront => ?_, fun _ front hfront => ?_⟩⟩
      · have hlength := hfront.length_le
        simp [Flow.start] at hlength
      · obtain rfl := List.prefix_nil.mp hfront
        exact ⟨rfl, rfl, by decide⟩
  | @tail flow next _ hstep ih =>
      obtain ⟨hflow, hfit, hiff⟩ := ih
      obtain ⟨event, htakes, rfl⟩ := hstep.eq_apply
      rw [Flow.trace_apply, Flow.after_concat, ← hflow]
      refine ⟨rfl, hfit.apply event, ?_⟩
      rw [forall_event_concat, ← hiff]
      constructor
      · intro h
        have hbefore : Always Exact flow.trace := fun front hfront =>
          h front (hfront.trans (List.prefix_append _ _))
        refine ⟨hbefore, (exact_concat_iff hbefore.now ?_ ?_).mp h.now⟩
        · rw [← hflow]
          exact hfit
        · rw [← hflow]
          exact htakes
      · rintro ⟨hbefore, hevent⟩
        refine hbefore.concat ((exact_concat_iff hbefore.now ?_ ?_).mpr hevent)
        · rw [← hflow]
          exact hfit
        · rw [← hflow]
          exact htakes

/-- Over any transport, the windows of a session are the 32-bit counters of its
events.  At every point they are the windows as integers, and no initial window
is too large to be one, if and only if every event leaves the counters room. -/
theorem Http2.windows_exact_iff {τ : Type} [Transport τ] (transport : τ)
    (fuel : Nat) (calls : List (Nat × Http2.Call)) :
    (Http2.session transport fuel calls).2.flow =
        Flow.after (Http2.session transport fuel calls).2.trace ∧
      (Always Exact (Http2.session transport fuel calls).2.trace ↔
        ∀ front event,
          front ++ [event] <+: (Http2.session transport fuel calls).2.trace →
            (Windows.after front).Fits event) := by
  have h := Flow.exact_iff_of_reaches
    (Http2.reaches_session transport fuel calls)
  exact ⟨h.1, h.2.2⟩

/-- A peer that grants the connection more than 32 bits hold. -/
def lavishPeer : ScriptedTransport where
  reads := [.ok (settingsFrame false), .ok (windowUpdateFrame 0 (2 ^ 31 - 1))]

theorem Http2.not_windows_exact_lavishPeer :
    ¬ ∀ (transport : ScriptedTransport) (fuel : Nat)
      (calls : List (Nat × Http2.Call)),
      Always Exact (Http2.session transport fuel calls).2.trace := by
  intro h
  have hconnection := (h lavishPeer 1 [(1, .read)]).now.connection
  revert hconnection
  decide +kernel

end Ioscpp.Protocol
