import Ioscpp.AfcComplete
import Ioscpp.Support.Settled

/-!
# Closing remote files

A transfer opens a remote file, and the device keeps the handle until a
`FILE_CLOSE` names it.  `Counts` follows how often that was asked for: an exchange
of another operation leaves the number as it is, and the exchange at the end of a
transfer adds one, whatever the device answers.  Only a pull that cannot create
its local file returns before that.

## Main results

- `keeps_counts_transact`, `triple_close_counts`: what one exchange adds to the number
  of closes.
- `handle_closed_iff`: for every device, when the handle of a call is closed once.
-/

namespace Ioscpp.Afc

open Ioscpp.Support
open Ioscpp.Support.Action

/-! ## Requests to close -/

/-- The packet asks to close the handle. -/
def IsClose (handle : UInt64) (packet : Bytes) : Prop :=
  word packet 32 = kOpFileClose ∧ word packet 40 = handle

instance (handle : UInt64) (packet : Bytes) : Decidable (IsClose handle packet) :=
  inferInstanceAs (Decidable (_ ∧ _))

/-- How many of the packets ask to close the handle. -/
def closes (handle : UInt64) (sent : List Bytes) : Nat :=
  sent.countP (IsClose handle)

theorem closes_concat (handle : UInt64) (sent : List Bytes) (packet : Bytes) :
    closes handle (sent ++ [packet]) =
      closes handle sent + if IsClose handle packet then 1 else 0 := by
  unfold closes
  rw [List.countP_append, List.countP_singleton]
  simp

/-- A request of another operation does not. -/
theorem not_isClose {operation : UInt64} (h : operation ≠ kOpFileClose)
    (handle number : UInt64) (extra payload : Bytes) :
    ¬ IsClose handle (requestPacket number operation extra payload) := by
  intro hclose
  apply h
  rw [← operation_packet number operation extra payload]
  exact hclose.1

/-- A request that closes a handle names it behind its header. -/
theorem isClose_closeRequest (handle number : UInt64) :
    IsClose handle (requestPacket number kOpFileClose (putLe64 handle) []) := by
  constructor
  · exact operation_packet number kOpFileClose (putLe64 handle) []
  · have hword : word (requestPacket number kOpFileClose (putLe64 handle) [])
        40 = UInt64.ofNat handle.toNat := by
      apply word_eq (kMagic ++ putLe64 (UInt64.ofNat
          (kHeaderSize + (putLe64 handle).length + ([] : Bytes).length)) ++
        putLe64 (UInt64.ofNat (kHeaderSize + (putLe64 handle).length)) ++
        putLe64 number ++ putLe64 kOpFileClose) []
      · simp only [requestPacket, putLe64, List.append_assoc]
      · simp [length_kMagic]
    rw [hword, UInt64.ofNat_toNat]

/-! ## Counting -/

/-- The stream can be written, whatever was sent before. -/
def Writable (respond : List Bytes → Option Bytes) : Prop :=
  ∀ history packet, (respond (history ++ [packet])).isSome

/-- A stream on which the handle was asked to be closed this often. -/
structure Counts (handle : UInt64) (count : Nat) (state : AfcLink × Afc) :
    Prop where
  writable : Writable state.1.respond
  closes : Afc.closes handle state.1.sent = count

section Exchanges

variable {handle : UInt64} {count : Nat}

/-- Reading adds no request. -/
theorem keeps_receive :
    Keeps (Counts handle count) (receive : Action Error (AfcLink × Afc) Packet) := by
  have hread (size : Nat) : Keeps (Counts handle count)
      (onStream (ByteStream.readExact size) : Action Error (AfcLink × Afc) Bytes) := by
    apply Triple.zoom
    rintro ⟨link, client⟩ hcounts
    apply (AfcLink.triple_readExact link size).imp_post
    · rintro data _ ⟨-, rfl⟩
      exact ⟨hcounts.writable, hcounts.closes⟩
    · rintro fault _ rfl
      exact hcounts
  unfold receive
  apply (hread kHeaderSize).bind
  intro header
  apply Keeps.get_bind
  intro state
  apply (keeps_lift _).bind
  intro fields
  apply (keeps_lift _).bind
  intro _
  apply (hread fields.2).bind
  intro data
  exact keeps_pure _

/-- An exchange adds one request, however it ends. -/
theorem triple_transact_counts {operation : UInt64} {extra payload : Bytes}
    {after : Nat}
    (h : ∀ number, count + (if IsClose handle
        (requestPacket number operation extra payload) then 1 else 0) = after) :
    Triple (Counts handle count) (transact operation extra payload)
      (fun _ => Counts handle after) (fun _ => Counts handle after) := by
  unfold transact
  apply Triple.bind (Q := fun _ => Counts handle after)
  · rintro ⟨link, ⟨number⟩⟩ hcounts
    obtain ⟨reply, hreply⟩ := Option.isSome_iff_exists.mp (hcounts.writable
      link.sent (requestPacket (number + 1) operation extra payload))
    have hwrite := AfcLink.run_write_some hreply
    have hrun : (send operation extra payload).run (link, (⟨number⟩ : Afc)) =
        (.ok (), (link.asked (requestPacket (number + 1) operation extra payload)
          reply, ⟨number + 1⟩)) := by
      unfold send
      rw [run_bind_ok (run_modify _ _), run_bind_ok (run_get _)]
      unfold onStream
      rw [run_zoom]
      dsimp only
      rw [hwrite]
    rw [hrun]
    constructor
    · exact hcounts.writable
    · have hconcat := closes_concat handle link.sent
        (requestPacket (number + 1) operation extra payload)
      rw [hcounts.closes, h] at hconcat
      exact hconcat
  · intro _
    apply keeps_receive.bind
    intro answer
    exact keeps_lift _

/-- An exchange of another operation than `FILE_CLOSE` adds nothing to the number of
closes, whether it succeeds or not. -/
theorem keeps_counts_transact {operation : UInt64}
    (h : operation ≠ kOpFileClose) (extra payload : Bytes) :
    Keeps (Counts handle count) (transact operation extra payload) := by
  apply triple_transact_counts
  intro number
  rw [if_neg (not_isClose h handle number extra payload), Nat.add_zero]

/-- The exchange that closes the handle adds one to the number of closes, whatever the
device answers: the request is written before an answer is read. -/
theorem triple_close_counts :
    Triple (Counts handle count) (transact kOpFileClose (putLe64 handle) [])
      (fun _ => Counts handle (count + 1))
      (fun _ => Counts handle (count + 1)) := by
  apply triple_transact_counts
  intro number
  rw [if_pos (isClose_closeRequest handle number)]

theorem keeps_counts_openFile (path : Bytes) (mode : UInt64) :
    Keeps (Counts handle count) (openFile path mode) := by
  unfold openFile
  apply (keeps_counts_transact (by decide) _ _).bind
  intro answer
  exact keeps_ite (keeps_fail _) (keeps_lift _)

end Exchanges

/-! ## Transfers -/

section Transfers

variable {φ : Type} {handle : UInt64} {count : Nat}

/-- The client's part of a state with a local file. -/
def Counted (handle : UInt64) (count : Nat) (state : (AfcLink × Afc) × φ) : Prop :=
  Counts handle count state.1

theorem triple_onClient_counted {α : Type} {x : Action Error (AfcLink × Afc) α}
    {after : Nat} (h : Triple (Counts handle count) x
      (fun _ => Counts handle after) (fun _ => Counts handle after)) :
    Triple (Counted handle count)
      (onClient x : Action Error ((AfcLink × Afc) × φ) α)
      (fun _ => Counted handle after) (fun _ => Counted handle after) := by
  apply Triple.zoom
  intro state hcounted
  exact (h.at_state hcounted).imp_post (fun _ _ h => h) fun _ _ h => h

/-- A read or a write of a chunk. -/
theorem keeps_counted_transact {operation : UInt64}
    (h : operation ≠ kOpFileClose) (extra payload : Bytes) :
    Keeps (Counted handle count) (onClient (transact operation extra payload) :
      Action Error ((AfcLink × Afc) × φ) Packet) :=
  triple_onClient_counted (keeps_counts_transact h extra payload)

theorem keeps_counted_onFile {α : Type} (y : Action Error φ α) :
    Keeps (Counted handle count) (onFile y) :=
  keeps_zoom fun _ _ h => h

theorem keeps_counted_pullLoop (fuel : Nat) :
    Keeps (Counted handle count) (pullLoop handle fuel) := by
  induction fuel with
  | zero => exact keeps_lift _
  | succ fuel ih =>
      unfold pullLoop
      apply (keeps_counted_transact (by decide) _ _).bind
      intro answer
      apply keeps_ite (keeps_pure _)
      apply (keeps_counted_onFile _).bind
      intro written
      exact keeps_ite (keeps_fail _) ih

theorem keeps_counted_pushLoop (fuel : Nat) :
    Keeps (Counted handle count) (pushLoop handle fuel) := by
  induction fuel with
  | zero => exact keeps_lift _
  | succ fuel ih =>
      unfold pushLoop
      apply (keeps_counted_onFile _).bind
      intro chunk
      apply keeps_ite (keeps_pure _)
      apply (keeps_counted_transact (by decide) _ _).bind
      intro _
      exact ih

/-- The end of a call that returns. -/
def Returned (P : (AfcLink × Afc) × φ → Prop) (fault : Fault Error)
    (state : (AfcLink × Afc) × φ) : Prop :=
  ∀ e, fault = .error e → P state

/-- A loop whose outcome is handed on. -/
theorem triple_outcome_returned {α : Type} {P R : (AfcLink × Afc) × φ → Prop}
    {x : Action Error ((AfcLink × Afc) × φ) α} (h : Keeps P x) :
    Triple P (outcome x) (fun _ => P) (Returned R) := by
  intro state hP
  have hstate := h.state hP
  rw [run_outcome]
  rcases hrun : x.run state with ⟨fault | a, next⟩
  · rw [hrun] at hstate
    cases fault with
    | error e => exact hstate
    | outOfBounds => exact fun e he => by cases he
    | exception => exact fun e he => by cases he
    | outOfFuel => exact fun e he => by cases he
  · rw [hrun] at hstate
    exact hstate

/-- The close at the end of a transfer, and its result. -/
theorem triple_close_returned (result : Result Unit) :
    Triple (Counted handle count)
      (do
        let _ ← outcome (onClient (transact kOpFileClose (putLe64 handle) []))
        Action.lift result : Action Error ((AfcLink × Afc) × φ) Unit)
      (fun _ => Counted handle (count + 1))
      (Returned (Counted handle (count + 1))) := by
  have hclose : Triple (Counted handle count)
      (onClient (transact kOpFileClose (putLe64 handle) []) :
        Action Error ((AfcLink × Afc) × φ) Packet)
      (fun _ => Counted handle (count + 1))
      (fun _ => Counted handle (count + 1)) :=
    triple_onClient_counted triple_close_counts
  apply Triple.bind (Q := fun _ => Counted handle (count + 1))
  · exact hclose.outcome_any.imp_post (fun _ _ h => h) fun _ _ h _ _ => h
  · intro _
    exact Triple.lift (fun _ _ _ h => h) fun _ _ _ h _ _ => h

/-- What follows the opening of both files in a pull. -/
theorem triple_pull_rest (fuel : Nat) :
    Triple (Counted handle count)
      (do
        let result ← outcome (pullLoop handle fuel)
        onFile TargetFile.fclose
        let _ ← outcome (onClient (transact kOpFileClose (putLe64 handle) []))
        Action.lift result : Action Error ((AfcLink × Afc) × TargetFile) Unit)
      (fun _ => Counted handle (count + 1))
      (Returned (Counted handle (count + 1))) := by
  apply (triple_outcome_returned (keeps_counted_pullLoop fuel)).bind
  intro result
  apply Triple.bind (Q := fun _ => Counted handle count)
  · rintro ⟨client, file⟩ hcounted
    exact hcounted
  · intro _
    exact triple_close_returned result

theorem triple_push_rest (fuel : Nat) :
    Triple (Counted handle count)
      (do
        let result ← outcome (pushLoop handle fuel)
        let _ ← outcome (onClient (transact kOpFileClose (putLe64 handle) []))
        Action.lift result : Action Error ((AfcLink × Afc) × SourceFile) Unit)
      (fun _ => Counted handle (count + 1))
      (Returned (Counted handle (count + 1))) := by
  apply (triple_outcome_returned (keeps_counted_pushLoop fuel)).bind
  intro result
  exact triple_close_returned result

end Transfers

/-! ## Handles -/

/-- The handle that `open_file` returns in a call, if it is called. -/
def Call.opened (state : AfcLink × Afc) : Call → Option UInt64
  | .pull remote _ _ => ((openFile remote kFopenRdonly).run state).1.toOption
  | .push file remote =>
      if file.opens then ((openFile remote kFopenWr).run state).1.toOption
      else none
  | _ => none

/-- If the call returns a value or an error, the device was asked once in it to close
the handle: the requests sent have one more `FILE_CLOSE` that names it than before. -/
def Call.ClosesHandle (call : Call) (state : AfcLink × Afc) (handle : UInt64) :
    Prop :=
  Settled (call.perform.run state).1 →
    closes handle (call.perform.run state).2.1.sent =
      closes handle state.1.sent + 1

/-- The local file of a pull can be created. The other calls create none, and a push
opens its local file before the remote one. -/
def Call.CreatesFile : Call → Prop
  | .pull _ file _ => file.opens = true
  | _ => True

/-- A transfer that opens its remote file and then ends as `triple_pull_rest` and
`triple_push_rest` say. -/
theorem closes_of_triple {φ : Type} {state next : AfcLink × Afc} {file file' : φ}
    {handle : UInt64} {x y : Action Error ((AfcLink × Afc) × φ) Unit}
    (hnext : Counts handle (closes handle state.1.sent) next)
    (hrun : x.run (state, file) = y.run (next, file'))
    (h : Triple (Counted handle (closes handle state.1.sent)) y
      (fun _ => Counted handle (closes handle state.1.sent + 1))
      (Returned (Counted handle (closes handle state.1.sent + 1))))
    (hsettled : Settled ((withFile file x).run state).1) :
    closes handle ((withFile file x).run state).2.1.sent =
      closes handle state.1.sent + 1 := by
  unfold withFile at hsettled ⊢
  rw [run_zoom, hrun] at hsettled ⊢
  have hpost := h (next, file') hnext
  rcases hy : y.run (next, file') with ⟨fault | _, last⟩
  · rw [hy] at hpost hsettled
    rcases hsettled with ⟨_, hok⟩ | ⟨e, herror⟩
    · cases hok
    · exact (hpost e (Except.error.inj herror)).closes
  · rw [hy] at hpost
    exact hpost.closes

theorem exists_of_toOption {α : Type} {x : Result α} {a : α}
    (h : x.toOption = some a) : x = .ok a := by
  cases x with
  | error fault => cases h
  | ok b =>
      cases h
      rfl

/-- What `open_file` leaves behind. -/
theorem exists_run_openFile {state : AfcLink × Afc}
    (hwritable : Writable state.1.respond) {path : Bytes} {mode handle : UInt64}
    (h : ((openFile path mode).run state).1.toOption = some handle) :
    ∃ next, (openFile path mode).run state = (.ok handle, next) ∧
      Counts handle (closes handle state.1.sent) next := by
  have hopen : Keeps (Counts handle (closes handle state.1.sent))
      (openFile path mode) := keeps_counts_openFile path mode
  have hkeeps := hopen.state ⟨hwritable, rfl⟩
  have hok := exists_of_toOption h
  rcases hrun : (openFile path mode).run state with ⟨result, next⟩
  rw [hrun] at hok hkeeps
  obtain rfl : result = .ok handle := hok
  exact ⟨next, rfl, hkeeps⟩

theorem run_onClient {φ α : Type} {x : Action Error (AfcLink × Afc) α}
    {state next : AfcLink × Afc} {result : Result α}
    (h : x.run state = (result, next)) (file : φ) :
    (onClient x).run (state, file) = (result, (next, file)) := by
  unfold onClient
  rw [run_zoom, h]

section Calls

variable {state : AfcLink × Afc} {handle : UInt64}

theorem closesHandle_pull (hwritable : Writable state.1.respond) {remote : Bytes}
    {file : TargetFile} (hopens : file.opens = true) {turns : Nat}
    (hopened : (Call.pull remote file turns).opened state = some handle) :
    (Call.pull remote file turns).ClosesHandle state handle := by
  intro hsettled
  obtain ⟨next, hopen, hnext⟩ := exists_run_openFile hwritable hopened
  have hrun : ∃ file' : TargetFile, (pull turns remote).run (state, file) =
      (do
        let result ← outcome (pullLoop handle turns)
        onFile TargetFile.fclose
        let _ ← outcome (onClient (transact kOpFileClose (putLe64 handle) []))
        Action.lift result : Action Error _ Unit).run (next, file') := by
    have hcreate := triple_onFile (P := fun client => client = next)
      (E := fun _ _ => False) (TargetFile.run_fopen hopens)
    have hstart : (next, file).1 = next ∧ (next, file).2 = file := ⟨rfl, rfl⟩
    obtain ⟨opened, last, hlast, rfl, hclient, hfile⟩ := hcreate.exists_ok hstart
    have hpair : last = (next, file.opened) := Prod.ext hclient hfile
    apply Exists.intro file.opened
    unfold pull
    rw [run_bind_ok (run_onClient hopen file), run_bind_ok hlast, if_pos rfl,
      hpair]
  obtain ⟨file', hrun⟩ := hrun
  exact closes_of_triple hnext hrun (triple_pull_rest turns) hsettled

/-- A pull whose local file cannot be created returns with the remote file
open. -/
theorem not_closesHandle_pull (hwritable : Writable state.1.respond)
    {remote : Bytes} {file : TargetFile} (hopens : ¬ file.opens = true)
    {turns : Nat}
    (hopened : (Call.pull remote file turns).opened state = some handle) :
    ¬ (Call.pull remote file turns).ClosesHandle state handle := by
  intro hcloses
  obtain ⟨next, hopen, hnext⟩ := exists_run_openFile hwritable hopened
  have hcreate : (onFile TargetFile.fopen).run (next, file) =
      (.ok false, (next, file)) := by
    unfold onFile TargetFile.fopen
    rw [run_zoom, run_bind_ok (run_get file), if_neg hopens, run_pure]
  have hrun : (Call.perform (.pull remote file turns)).run state =
      (.error (.error ⟨.io, ascii "the local file could not be created"⟩),
        next) := by
    show (withFile file (pull turns remote)).run _ = _
    unfold withFile pull
    rw [run_zoom, run_bind_ok (run_onClient hopen file), run_bind_ok hcreate,
      if_neg Bool.false_ne_true, run_fail]
  unfold Call.ClosesHandle at hcloses
  rw [hrun] at hcloses
  have hcount := hcloses (settled_error _)
  rw [hnext.closes] at hcount
  omega

theorem closesHandle_push (hwritable : Writable state.1.respond)
    {file : SourceFile} {remote : Bytes}
    (hopened : (Call.push file remote).opened state = some handle) :
    (Call.push file remote).ClosesHandle state handle := by
  intro hsettled
  dsimp only [Call.opened] at hopened
  by_cases hopens : file.opens = true
  · rw [if_pos hopens] at hopened
    obtain ⟨next, hopen, hnext⟩ := exists_run_openFile hwritable hopened
    have hrun : (push remote).run (state, file) =
        (do
          let result ← outcome (pushLoop handle (file.unread.length + 1))
          let _ ← outcome (onClient (transact kOpFileClose (putLe64 handle) []))
          Action.lift result : Action Error _ Unit).run (next, file) := by
      unfold push
      rw [run_bind_ok (run_get _), if_pos hopens,
        run_bind_ok (run_onClient hopen file)]
    exact closes_of_triple hnext hrun (triple_push_rest _) hsettled
  · rw [if_neg hopens] at hopened
    cases hopened

/-- A handle that `open_file` returns in a call is closed once before the call
returns, whatever the device answers, exactly if the call is not a pull whose
local file cannot be created. -/
theorem handle_closed_iff {call : Call} (hwritable : Writable state.1.respond)
    (hopened : call.opened state = some handle) :
    call.ClosesHandle state handle ↔ call.CreatesFile := by
  cases call with
  | pull remote file turns =>
      constructor
      · intro hcloses
        by_contra hopens
        exact not_closesHandle_pull hwritable hopens hopened hcloses
      · intro hopens
        exact closesHandle_pull hwritable hopens hopened
  | push file remote =>
      exact iff_of_true (closesHandle_push hwritable hopened) trivial
  | list => cases hopened
  | stat => cases hopened
  | remove => cases hopened
  | makeDirectory => cases hopened
  | rename => cases hopened

end Calls

/-- A device that answers every request can be written to. -/
theorem writable_answering (answer : List Bytes → Reply) :
    Writable (answering answer) := by
  intro history packet
  unfold answering
  rw [List.getLast?_concat]
  rfl

/-- A local file that cannot be created. -/
def closedTarget : TargetFile where
  opens := false
  writes := fun _ => 0

theorem handle_closed_iff_closedTarget :
    (Call.pull [0x66] closedTarget 1).ClosesHandle (connected storing) 7 ↔
      (Call.pull [0x66] closedTarget 1).CreatesFile :=
  handle_closed_iff (writable_answering storing) (by decide +kernel)

/-- The device opens the file with the handle 7; the pull fails, and nothing
asked to close it. -/
theorem not_handle_closed_closedTarget :
    (Call.pull [0x66] closedTarget 1).opened (connected storing) = some 7 ∧
      ((Call.perform (.pull [0x66] closedTarget 1)).run (connected storing)).1 =
        .error (.error ⟨.io, ascii "the local file could not be created"⟩) ∧
      closes 7 ((Call.perform (.pull [0x66] closedTarget 1)).run
        (connected storing)).2.1.sent = 0 := by
  refine ⟨?_, ?_, ?_⟩
  · decide +kernel
  · decide +kernel
  · decide +kernel

end Ioscpp.Afc
