import Ioscpp.Protocol.Http2Invariant
import Mathlib.Logic.Relation

/-!
# HTTP/2 flow control

The windows and the trace of a connection change in four ways: the peer grants
credit to the connection or to a stream, it sets the initial window, and a DATA
frame is sent within both windows.  `Flow.Step` is that machine.  Every function
of the connection takes such steps only, so what holds of the machine's runs
holds of the connection's, over any transport and at every point.

## Main results

- `invariant_reaches`: the parts of every call take steps of the flow-control machine.
- `reaches_session`: a session runs the machine from its start.
-/

namespace Ioscpp.Protocol

open Ioscpp.Support
open Ioscpp.Support.Action
open Relation

/-! ## Accounts -/

namespace Http2Event

/-- The bytes sent in DATA frames of a stream. -/
def sentBy (stream : Nat) : Http2Event → Nat
  | sent other size => if other = stream then size else 0
  | _ => 0

/-- The bytes sent in a DATA frame. -/
def sentSize : Http2Event → Nat
  | sent _ size => size
  | _ => 0

/-- What a stream is granted, or the connection when the stream is 0. -/
def grantedBy (stream : Nat) : Http2Event → Nat
  | granted other increment => if other = stream then increment else 0
  | _ => 0

/-- What a stream other than the connection is granted. -/
def grantedSize : Http2Event → Nat
  | granted other increment => if other = 0 then 0 else increment
  | _ => 0

end Http2Event

open Http2Event

/-- The bytes sent in DATA frames on the connection. -/
def sentTotal (trace : List Http2Event) : Nat := (trace.map sentSize).sum

/-- The bytes sent in DATA frames on a stream. -/
def sentOn (stream : Nat) (trace : List Http2Event) : Nat :=
  (trace.map (sentBy stream)).sum

/-- The increments granted to a stream, or to the connection. -/
def grantedTo (stream : Nat) (trace : List Http2Event) : Nat :=
  (trace.map (grantedBy stream)).sum

/-- The increments granted to all streams. -/
def grantedTotal (trace : List Http2Event) : Nat :=
  (trace.map grantedSize).sum

/-- The peer's latest initial window, which is 65535 before it sets one. -/
def latestWindow (trace : List Http2Event) : Nat :=
  trace.foldl (fun window event =>
    match event with
    | .initialWindow value => value
    | _ => window) 65535

section Accounts

variable (trace : List Http2Event) (event : Http2Event)

theorem sentTotal_concat :
    sentTotal (trace ++ [event]) = sentTotal trace + event.sentSize := by
  simp [sentTotal]

theorem sentOn_concat (stream : Nat) :
    sentOn stream (trace ++ [event]) =
      sentOn stream trace + event.sentBy stream := by
  simp [sentOn]

theorem grantedTo_concat (stream : Nat) :
    grantedTo stream (trace ++ [event]) =
      grantedTo stream trace + event.grantedBy stream := by
  simp [grantedTo]

theorem grantedTotal_concat :
    grantedTotal (trace ++ [event]) =
      grantedTotal trace + event.grantedSize := by
  simp [grantedTotal]

theorem latestWindow_concat :
    latestWindow (trace ++ [event]) =
      match event with
      | .initialWindow value => value
      | _ => latestWindow trace := by
  simp only [latestWindow, List.foldl_append]
  rfl

end Accounts

/-! ## The machine -/

/-- The windows of a connection, as the counters of 32 bits that they are in the source,
and the events that they answer for. -/
structure Flow where
  connectionWindow : Int
  streamWindow : Int
  trace : List Http2Event

/-- The windows before any frame. -/
def Flow.start : Flow := ⟨kDefaultWindowSize, kDefaultWindowSize, []⟩

/-- One change of the windows. -/
inductive Flow.Step : Flow → Flow → Prop
  /-- The peer grants credit to the connection. -/
  | grantConnection (flow : Flow) {increment : Nat} (h : increment < 2 ^ 32) :
      Step flow ⟨toInt32 (flow.connectionWindow + toInt32 increment),
        flow.streamWindow, flow.trace ++ [.granted 0 increment]⟩
  /-- The peer grants credit to a stream. -/
  | grantStream (flow : Flow) {stream increment : Nat} (hstream : stream ≠ 0)
      (h : increment < 2 ^ 32) :
      Step flow ⟨flow.connectionWindow,
        toInt32 (flow.streamWindow + toInt32 increment),
        flow.trace ++ [.granted stream increment]⟩
  /-- The peer sets the initial window. -/
  | initialWindow (flow : Flow) {value : Nat} (h : value < 2 ^ 32) :
      Step flow ⟨flow.connectionWindow, toInt32 value,
        flow.trace ++ [.initialWindow value]⟩
  /-- A DATA frame is sent. -/
  | send (flow : Flow) (stream : Nat) {count : Nat}
      (hconnection : (count : Int) ≤ flow.connectionWindow)
      (hstream : (count : Int) ≤ flow.streamWindow) :
      Step flow ⟨toInt32 (flow.connectionWindow - count),
        toInt32 (flow.streamWindow - count), flow.trace ++ [.sent stream count]⟩

namespace Http2

variable {τ : Type}

/-- The connection's part that the machine has. -/
def flow (http2 : Http2 τ) : Flow :=
  ⟨http2.connectionWindow, http2.streamWindow, http2.trace⟩

/-- A state whose windows and trace steps of the machine reach from `start`, whatever
else the connection holds. -/
def Reaches (start : Flow) (http2 : Http2 τ) : Prop :=
  ReflTransGen Flow.Step start http2.flow

/-! ## The connection runs the machine -/

theorem settingsEntries_lt {payload : Bytes} {entry : Nat × Nat}
    (h : entry ∈ settingsEntries payload) : entry.2 < 2 ^ 32 := by
  induction payload using settingsEntries.induct with
  | case1 a b c d e f rest ih =>
      rw [settingsEntries] at h
      rcases List.mem_cons.mp h with rfl | hmem
      · have hlt := beValue_lt [c, d, e, f]
        simpa using hlt
      · exact ih hmem
  | case2 payload hne =>
      rw [settingsEntries] at h
      · cases h
      · exact hne

/-- A big-endian word of four bytes. -/
private theorem readBe_four_lt {bytes : Bytes} {offset value : Nat}
    (h : (readBe bytes offset 4 : Result Nat) = .ok value) : value < 2 ^ 32 := by
  have hle := le_of_readBe (by decide) h
  rw [readBe_eq hle] at h
  obtain rfl := Except.ok.inj h
  have hlt := beValue_lt ((bytes.drop offset).take 4)
  have hlength : ((bytes.drop offset).take 4).length = 4 := by
    rw [List.length_take, List.length_drop]
    omega
  rw [hlength] at hlt
  omega

theorem reaches_applySetting {start : Flow} {http2 : Http2 τ}
    (h : Reaches start http2) {entry : Nat × Nat} (hvalue : entry.2 < 2 ^ 32) :
    Reaches start (applySetting http2 entry) := by
  rw [applySetting]
  split
  · exact h.tail (.initialWindow http2.flow hvalue)
  · exact h

theorem reaches_applySettings {start : Flow} {entries : List (Nat × Nat)}
    (hvalues : ∀ entry ∈ entries, entry.2 < 2 ^ 32) {http2 : Http2 τ}
    (h : Reaches start http2) :
    Reaches start (entries.foldl applySetting http2) := by
  induction entries generalizing http2 with
  | nil => exact h
  | cons entry rest ih =>
      exact ih (fun entry hmem => hvalues entry (List.mem_cons_of_mem _ hmem))
        (reaches_applySetting h (hvalues entry (by simp)))

/-- A change that leaves the windows alone. -/
theorem Reaches.of_eq {start : Flow} {http2 next : Http2 τ}
    (h : Reaches start http2) (heq : next.flow = http2.flow) :
    Reaches start next := by
  rw [Reaches, heq]
  exact h

section

variable {start : Flow}

theorem reaches_onTransport {α : Type} (x : Action Error τ α) :
    Keeps (Reaches start) (onTransport x) :=
  keeps_zoom fun _ _ h => h.of_eq rfl

theorem reaches_handleFailure (error : Result Error) :
    Keeps (Reaches start) (handleFailure error : Action Error (Http2 τ) Unit) :=
  (keeps_lift error).bind fun _ => keeps_modify fun _ h => h.of_eq rfl

theorem reaches_handleWindowUpdate (frame : Http2Frame) :
    Keeps (Reaches start)
      (handleWindowUpdate frame : Action Error (Http2 τ) Unit) := by
  refine Triple.bind (Q := fun increment http2 =>
    increment < 2 ^ 32 ∧ Reaches start http2) ?_ fun increment => ?_
  · refine Triple.lift (fun increment hread http2 hreach => ?_) fun _ _ _ h => h
    exact ⟨readBe_four_lt hread, hreach⟩
  · refine Triple.modify fun http2 ⟨hlt, hreach⟩ => ?_
    split
    · rename_i hzero
      rw [hzero]
      exact hreach.tail (.grantConnection http2.flow hlt)
    · rename_i hne
      have hstream : frame.stream.toNat ≠ 0 := by
        intro hzero
        exact hne (UInt32.toNat_inj.mp hzero)
      exact hreach.tail (.grantStream http2.flow hstream hlt)

/-- A frame within the windows is taken off them in a step. -/
theorem reaches_spend {http2 : Http2 τ} (hreach : Reaches start http2)
    (stream : UInt32) {count : Nat} (hcount : (count : Int) ≤ http2.budget) :
    Reaches start (spend stream count http2) := by
  have hconnection : (count : Int) ≤ http2.flow.connectionWindow := by
    unfold budget at hcount
    exact hcount.trans ((min_le_left _ _).trans (min_le_left _ _))
  have hstream : (count : Int) ≤ http2.flow.streamWindow := by
    unfold budget at hcount
    exact hcount.trans ((min_le_left _ _).trans (min_le_right _ _))
  exact hreach.tail
    (.send http2.flow (stream.toNat % 2 ^ 31) hconnection hstream)

variable [Transport τ]

theorem reaches_fill (count : Nat) :
    Keeps (Reaches start) (fill count : Action Error (Http2 τ) Unit) :=
  keeps_zoom fun _ _ h => h.of_eq rfl

theorem reaches_handleSettings (frame : Http2Frame) :
    Keeps (Reaches start)
      (handleSettings frame : Action Error (Http2 τ) Unit) := by
  refine keeps_ite (Keeps.bind ?_ fun _ => Keeps.bind ?_ fun _ => ?_)
    (keeps_pure _)
  · exact keeps_modify fun http2 hreach =>
      reaches_applySettings (fun entry => settingsEntries_lt) hreach
  · exact keeps_modify fun _ h => h.of_eq rfl
  · exact reaches_onTransport _

theorem reaches_handleFrame (frame : Http2Frame) :
    Keeps (Reaches start) (handleFrame frame : Action Error (Http2 τ) Unit) :=
  keeps_ite (keeps_ite (keeps_pure _) (keeps_modify fun _ h => h.of_eq rfl)) <|
    keeps_ite (reaches_handleSettings frame) <|
    keeps_ite (reaches_handleWindowUpdate frame) <|
    keeps_ite (keeps_ite (reaches_onTransport _) (keeps_pure _)) <|
    keeps_ite (reaches_handleFailure _) <|
    keeps_ite (reaches_handleFailure _) (keeps_pure _)

theorem reaches_readFrame :
    Keeps (Reaches start) (readFrame : Action Error (Http2 τ) Unit) :=
  (reaches_fill 9).bind fun _ => .get_bind fun _ =>
    (keeps_lift _).bind fun _ => (reaches_fill _).bind fun _ =>
      .get_bind fun _ => (keeps_lift _).bind fun _ =>
        (reaches_handleFrame _).bind fun _ =>
          keeps_modify fun _ h => h.of_eq rfl

end

/-- The parts of every call take steps of the machine. -/
theorem invariant_reaches [Transport τ] (start : Flow) :
    Invariant (fun _ => @Reaches τ start) where
  opening _ _ _ := reaches_onTransport _
  data _ http2 stream _ h _ hcount := by
    refine (triple_onTransport _ http2).imp_post ?_ ?_
    · rintro _ _ ⟨transport, rfl⟩
      exact reaches_spend (h.of_eq rfl) stream hcount
    · rintro _ _ ⟨transport, rfl⟩
      exact h.of_eq rfl
  readFrame _ := reaches_readFrame
  handOut _ _ _ _ h _ := h.of_eq rfl

/-- A session runs the machine from its start. -/
theorem reaches_session [Transport τ] (transport : τ) (fuel : Nat)
    (calls : List (Nat × Call)) :
    Reaches Flow.start (session transport fuel calls).2 :=
  (invariant_reaches Flow.start).session .refl fuel calls

end Http2

end Ioscpp.Protocol
