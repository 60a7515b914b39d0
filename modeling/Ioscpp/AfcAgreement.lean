import Ioscpp.AfcFileRuns
import Ioscpp.Support.Agreement

/-!
# File calls on streams that agree

A file client reads and writes its stream and looks at nothing else of it.  Where two
streams agree, byte for byte and failure for failure, file calls in any order return
the same on both.

## Main results

- `runAll_agrees`: two streams that agree on what they deliver give every run of calls
  the same results, whatever else they do.
-/

namespace Ioscpp

open Ioscpp.Support
open Ioscpp.Support.Action

/-- No read and no write tells which of the streams it is on. -/
structure AgreesBytes {σ τ : Type} [ByteStream σ] [ByteStream τ]
    (R : σ → τ → Prop) : Prop where
  readExact : ∀ count, Agrees R (ByteStream.readExact count) (ByteStream.readExact count)
  write : ∀ data, Agrees R (ByteStream.write data) (ByteStream.write data)

namespace Afc

section Agreement

variable {σ τ φ α : Type} {R : σ → τ → Prop}

/-- Clients that differ in their streams. -/
def Beside (R : σ → τ → Prop) (client : σ × Afc) (other : τ × Afc) : Prop :=
  R client.1 other.1 ∧ client.2 = other.2

/-- The same, each beside the same local file. -/
def BesideFile (R : σ → τ → Prop) (client : (σ × Afc) × φ) (other : (τ × Afc) × φ) :
    Prop :=
  Beside R client.1 other.1 ∧ client.2 = other.2

theorem agrees_onStream {x : Action Error σ α} {y : Action Error τ α}
    (h : Agrees R x y) :
    Agrees (Beside R) (onStream x) (onStream y) :=
  h.zoom (fun _ _ hR => hR.1) fun _ _ _ _ hR hpart => ⟨hpart, hR.2⟩

theorem agrees_onClient {x : Action Error (σ × Afc) α} {y : Action Error (τ × Afc) α}
    (h : Agrees (Beside R) x y) :
    Agrees (BesideFile R : (σ × Afc) × φ → (τ × Afc) × φ → Prop) (onClient x)
      (onClient y) :=
  h.zoom (fun _ _ hR => hR.1) fun _ _ _ _ hR hpart => ⟨hpart, hR.2⟩

theorem agrees_onFile (x : Action Error φ α) :
    Agrees (BesideFile R) (onFile x) (onFile x) := by
  have hsame : Agrees Eq x x := by
    rintro file _ rfl
    exact ⟨rfl, rfl⟩
  exact hsame.zoom (fun _ _ hR => hR.2) fun _ _ _ _ hR hpart => ⟨hR.1, hpart⟩

theorem agrees_withFile (file : φ) {x : Action Error ((σ × Afc) × φ) α}
    {y : Action Error ((τ × Afc) × φ) α} (h : Agrees (BesideFile R) x y) :
    Agrees (Beside R) (withFile file x) (withFile file y) :=
  h.zoom (fun _ _ hR => ⟨hR, rfl⟩) fun _ _ _ _ _ hpart => hpart.1

variable [ByteStream σ] [ByteStream τ]

/-! ## Exchanges -/

theorem agrees_send (h : AgreesBytes R) (operation : UInt64) (extra payload : Bytes) :
    Agrees (Beside R) (send operation extra payload) (send operation extra payload) := by
  refine Agrees.bind (.modify fun client other hR => ⟨hR.1, ?_⟩) fun _ => ?_
  · rw [hR.2]
  · refine .get_bind fun client other hR => ?_
    rw [hR.2]
    exact agrees_onStream (h.write _)

theorem agrees_receive (h : AgreesBytes R) : Agrees (Beside R) receive receive := by
  refine (agrees_onStream (h.readExact _)).bind fun header => ?_
  refine .get_bind fun client other hR => ?_
  rw [hR.2]
  refine Agrees.bind (.lift _) fun fields => Agrees.bind (.lift _) fun _ => ?_
  exact (agrees_onStream (h.readExact _)).bind fun data => .pure _

theorem agrees_transact (h : AgreesBytes R) (operation : UInt64) (extra payload : Bytes) :
    Agrees (Beside R) (transact operation extra payload)
      (transact operation extra payload) :=
  (agrees_send h operation extra payload).bind fun _ =>
    (agrees_receive h).bind fun _ => .lift _

/-! ## Calls -/

theorem agrees_request (h : AgreesBytes R) (operation : UInt64) (extra : Bytes) :
    Agrees (Beside R) (request operation extra) (request operation extra) :=
  (agrees_transact h operation extra []).bind fun _ => .pure _

theorem agrees_stat (h : AgreesBytes R) (path : Bytes) :
    Agrees (Beside R) (stat path) (stat path) := by
  refine (agrees_transact h _ _ _).outcome.bind fun result => ?_
  rcases result with (⟨code, text⟩ | _ | _ | _) | answer
  · cases code with
    | device => exact .pure _
    | _ => exact .lift _
  · exact .lift _
  · exact .lift _
  · exact .lift _
  · exact .pure _

theorem agrees_openFile (h : AgreesBytes R) (path : Bytes) (mode : UInt64) :
    Agrees (Beside R) (openFile path mode) (openFile path mode) :=
  (agrees_transact h _ _ _).bind fun _ => .ite (.fail _) (.lift _)

theorem agrees_pullLoop (h : AgreesBytes R) (handle : UInt64) (turns : Nat) :
    Agrees (BesideFile R) (pullLoop handle turns) (pullLoop handle turns) := by
  induction turns with
  | zero => exact .lift _
  | succ turns ih =>
      refine (agrees_onClient (agrees_transact h _ _ _)).bind fun answer => ?_
      refine .ite (.pure _) ?_
      exact (agrees_onFile _).bind fun count => .ite (.fail _) ih

/-- The handle is closed whatever became of the transfer. -/
theorem agrees_pull (h : AgreesBytes R) (turns : Nat) (remote : Bytes) :
    Agrees (BesideFile R) (pull turns remote) (pull turns remote) := by
  refine (agrees_onClient (agrees_openFile h _ _)).bind fun handle => ?_
  refine (agrees_onFile _).bind fun opened => .ite ?_ (.fail _)
  refine (agrees_pullLoop h handle turns).outcome.bind fun result => ?_
  refine (agrees_onFile _).bind fun _ => ?_
  exact (agrees_onClient (agrees_transact h _ _ _)).outcome.bind fun _ => .lift _

theorem agrees_pushLoop (h : AgreesBytes R) (handle : UInt64) (turns : Nat) :
    Agrees (BesideFile R) (pushLoop handle turns) (pushLoop handle turns) := by
  induction turns with
  | zero => exact .lift _
  | succ turns ih =>
      refine (agrees_onFile _).bind fun chunk => .ite (.pure _) ?_
      exact (agrees_onClient (agrees_transact h _ _ _)).bind fun _ => ih

theorem agrees_push (h : AgreesBytes R) (remote : Bytes) :
    Agrees (BesideFile R) (push remote) (push remote) := by
  refine .get_bind fun client other hR => ?_
  rw [hR.2]
  refine .ite ?_ (.fail _)
  refine (agrees_onClient (agrees_openFile h _ _)).bind fun handle => ?_
  refine (agrees_pushLoop h handle _).outcome.bind fun result => ?_
  exact (agrees_onClient (agrees_transact h _ _ _)).outcome.bind fun _ => .lift _

theorem agrees_pullInto (h : AgreesBytes R) (turns : Nat) (remote : Bytes)
    (file : TargetFile) :
    Agrees (Beside R) (pullInto turns remote file) (pullInto turns remote file) := by
  intro client other hR
  obtain ⟨hresult, hclient, hfile⟩ := agrees_pull h turns remote
    (show BesideFile R (client, file) (other, file) from ⟨hR, rfl⟩)
  refine ⟨?_, hclient⟩
  change Except.map _ _ = Except.map _ _
  rw [hresult, hfile]

theorem agrees_perform (h : AgreesBytes R) (turns : Nat) (call : FileCall) :
    Agrees (Beside R) (call.perform turns) (call.perform turns) := by
  cases call with
  | push file remote => exact (agrees_withFile file (agrees_push h remote)).map _
  | pull remote file => exact (agrees_pullInto h turns remote file).map _
  | remove path => exact (agrees_request h _ _).map _
  | makeDirectory path => exact (agrees_request h _ _).map _
  | rename source target => exact (agrees_request h _ _).map _
  | stat path => exact (agrees_stat h path).map _

/-- Calls in any order return the same on two streams that agree, and leave them in
agreement: of what else they are the client sees nothing. -/
theorem runAll_agrees (h : AgreesBytes R) (turns : Nat) (calls : List FileCall)
    {client : σ × Afc} {other : τ × Afc} (hR : Beside R client other) :
    (runAll turns calls client).1 = (runAll turns calls other).1 ∧
      Beside R (runAll turns calls client).2 (runAll turns calls other).2 := by
  induction calls generalizing client other with
  | nil => exact ⟨rfl, hR⟩
  | cons call rest ih =>
      obtain ⟨hresult, hnext⟩ := agrees_perform h turns call hR
      obtain ⟨hresults, hlast⟩ := ih hnext
      exact ⟨congrArg₂ List.cons hresult hresults, hlast⟩

end Agreement

end Afc

end Ioscpp
