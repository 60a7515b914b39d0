import Ioscpp.AfcFileTransfers

/-!
# Runs of file calls

A caller makes any file calls in any order, and goes on when one fails.  Against a
device with a file service each call returns what it returns on the store itself,
and leaves the store that it leaves: transfers move whole files, in whatever chunks
they are made, and no handle is open between calls.

## Main results

- `run_perform`: one call does to the device what it does to the store.
- `runAll_fileDevice`: on a new client, calls in any order return what they return on
  the store itself.
-/

namespace Ioscpp.Afc

open Ioscpp.Support
open Ioscpp.Support.Action

/-! ## Calls -/

/-- A call, with the local file of a transfer. -/
inductive FileCall where
  | push (file : SourceFile) (remote : Bytes)
  | pull (remote : Bytes) (file : TargetFile)
  | remove (path : Bytes)
  | makeDirectory (path : Bytes)
  | rename (source target : Bytes)
  | stat (path : Bytes)

/-- What a call returns; a pull, what the local file holds. -/
inductive FileAnswer where
  | done
  | content (bytes : Bytes)
  | metadata (info : Option FileStat)
  deriving DecidableEq, Repr

section Perform

variable {σ : Type} [ByteStream σ]

def FileCall.perform (turns : Nat) : FileCall → Action Error (σ × Afc) FileAnswer
  | push file remote => (fun _ => .done) <$> withFile file (Afc.push remote)
  | pull remote file => FileAnswer.content <$> pullInto turns remote file
  | remove path => (fun _ => .done) <$> Afc.remove path
  | makeDirectory path => (fun _ => .done) <$> Afc.makeDirectory path
  | rename source target => (fun _ => .done) <$> Afc.rename source target
  | stat path => FileAnswer.metadata <$> Afc.stat path

/-- The calls in their order, each with its result. -/
def runAll (turns : Nat) :
    List FileCall → σ × Afc → List (Result FileAnswer) × (σ × Afc)
  | [], state => ([], state)
  | call :: rest, state =>
      let (result, next) := (call.perform turns).run state
      let (results, last) := runAll turns rest next
      (result :: results, last)

end Perform

/-! ## Calls on a store -/

/-- The call made on the store itself. -/
def FileCall.apply : FileCall → Store → Result FileAnswer × Store
  | push file remote, store =>
      if file.opens then
        let (result, next) := store.put remote file.content
        (result.map fun _ => .done, next)
      else (.error (.error ⟨.io, ascii "the local file could not be read"⟩), store)
  | pull remote file, store =>
      (do
        let content ← store.get remote
        let held ← file.fill content
        return .content held, store)
  | remove path, store =>
      let (result, next) := store.remove path
      (result.map fun _ => .done, next)
  | makeDirectory path, store =>
      let (result, next) := store.makeDirectory path
      (result.map fun _ => .done, next)
  | rename source target, store =>
      let (result, next) := store.rename source target
      (result.map fun _ => .done, next)
  | stat path, store => (.ok (.metadata (store.stat path)), store)

def applyAll : List FileCall → Store → List (Result FileAnswer) × Store
  | [], store => ([], store)
  | call :: rest, store =>
      let (result, next) := call.apply store
      let (results, last) := applyAll rest next
      (result :: results, last)

/-! ## Runs -/

/-- A call with paths of the C library, and with a local file that a pull can
create. -/
def FileCall.Proper : FileCall → Prop
  | push _ remote => IsPath remote
  | pull remote file => IsPath remote ∧ file.opens = true
  | remove path => IsPath path
  | makeDirectory path => IsPath path
  | rename source target => IsPath source ∧ IsPath target
  | stat path => IsPath path

section Runs

variable {start : FileServer} {store : Store} {client : AfcLink × Afc}

/-- The turns in which a pull of any file of the store ends. -/
theorem exists_turns (store : Store) (remote : Bytes) :
    ∃ bound, ∀ content, store.get remote = .ok content → content.length < bound := by
  rcases hget : store.get remote with fault | content
  · exact ⟨0, fun _ h => by cases h⟩
  · exact ⟨content.length + 1, fun _ h => by cases h; exact Nat.lt_succ_self _⟩

theorem run_map_answer {α : Type} {x : Action Error (AfcLink × Afc) α}
    {f : α → FileAnswer} {outcome : Result α × Store}
    (h : ∃ next, x.run client = (outcome.1, next) ∧ Stores start outcome.2 next) :
    ∃ next, (f <$> x).run client = (outcome.1.map f, next) ∧
      Stores start outcome.2 next := by
  obtain ⟨next, hrun, hnext⟩ := h
  exact ⟨next, by rw [run_map, hrun], hnext⟩

/-- One call does to the device what it does to the store, and returns what it returns
there, when a pull has a turn for each byte of the file that it asks for and one more.
-/
theorem run_perform (h : Stores start store client) {call : FileCall}
    (hproper : call.Proper) {turns : Nat}
    (hturns : ∀ remote file, call = .pull remote file →
      ∀ content, store.get remote = .ok content → content.length < turns) :
    ∃ next, (call.perform turns).run client = ((call.apply store).1, next) ∧
      Stores start (call.apply store).2 next := by
  cases call with
  | push file remote =>
      cases hfile : file.opens with
      | false =>
          refine ⟨client, ?_, ?_⟩
          · rw [FileCall.perform, run_map, run_push_unopened hfile, FileCall.apply,
              hfile]
            rfl
          · rw [FileCall.apply, hfile]
            exact h
      | true =>
          rw [FileCall.apply, hfile]
          exact run_map_answer (run_push h hproper hfile)
  | pull remote file =>
      obtain ⟨next, hrun, hnext⟩ :=
        run_pull h hproper.1 hproper.2 (hturns remote file rfl)
      refine ⟨next, ?_, hnext⟩
      rw [FileCall.perform, run_map, hrun, FileCall.apply]
      rcases store.get remote with _ | content
      · rfl
      · rw [ok_bind, ok_bind]
        rcases file.fill content with _ | _ <;> rfl
  | remove path => exact run_map_answer (run_remove h hproper)
  | makeDirectory path => exact run_map_answer (run_makeDirectory h hproper)
  | rename source target => exact run_map_answer (run_rename h hproper.1 hproper.2)
  | stat path =>
      obtain ⟨next, hrun, hnext⟩ := run_stat h hproper
      exact ⟨next, by rw [FileCall.perform, run_map, hrun]; rfl, hnext⟩

/-- Calls in any order, from a client of any store. -/
theorem runAll_stores {calls : List FileCall} (hproper : ∀ call ∈ calls, call.Proper)
    (store : Store) :
    ∃ bound, ∀ turns, bound ≤ turns → ∀ client, Stores start store client →
      ∃ last, runAll turns calls client = ((applyAll calls store).1, last) ∧
        Stores start (applyAll calls store).2 last := by
  induction calls generalizing store with
  | nil => exact ⟨0, fun _ _ client h => ⟨client, rfl, h⟩⟩
  | cons call rest ih =>
      obtain ⟨hcall, hrest⟩ := List.forall_mem_cons.mp hproper
      obtain ⟨bound, hbound⟩ := ih hrest (call.apply store).2
      obtain ⟨first, hfirst⟩ : ∃ first, ∀ remote file, call = .pull remote file →
          ∀ content, store.get remote = .ok content → content.length < first := by
        cases call with
        | pull remote file =>
            obtain ⟨first, hfirst⟩ := exists_turns store remote
            exact ⟨first, fun _ _ heq => by cases heq; exact hfirst⟩
        | _ => exact ⟨0, fun _ _ heq => by cases heq⟩
      refine ⟨max first bound, fun turns hturns client h => ?_⟩
      obtain ⟨next, hrun, hnext⟩ := @run_perform _ _ _ h call hcall turns
        fun remote file heq content hget =>
          (hfirst remote file heq content hget).trans_le
            ((Nat.le_max_left _ _).trans hturns)
      obtain ⟨last, hloop, hlast⟩ :=
        hbound turns ((Nat.le_max_right _ _).trans hturns) next hnext
      refine ⟨last, ?_, hlast⟩
      rw [runAll, hrun]
      dsimp only
      rw [hloop]
      rfl

end Runs

/-- On a new client of a device with a file service, file calls in any order return what
they return on the store, and leave the device with the store they leave and with no
file open. A pull needs turns for the longest file there is; some number of them
suffices for all the calls. -/
theorem runAll_fileDevice (store : Store) (nextHandle : UInt64) {calls : List FileCall}
    (hproper : ∀ call ∈ calls, call.Proper) :
    ∃ bound, ∀ turns, bound ≤ turns →
      ∃ last, runAll turns calls
          (connected (fileDevice.answers ⟨store, [], nextHandle⟩)) =
            ((applyAll calls store).1, last) ∧
        Stores ⟨store, [], nextHandle⟩ (applyAll calls store).2 last := by
  obtain ⟨bound, hbound⟩ := @runAll_stores ⟨store, [], nextHandle⟩ calls hproper store
  exact ⟨bound, fun turns hturns => hbound turns hturns _
    ⟨nextHandle, serves_connected _ _⟩⟩

/-- A file is pushed, renamed and pulled; the old path is gone. -/
def roundTrip : List FileCall :=
  [.push { unread := ascii "hi", reads := fun _ => 1 } (ascii "/a"),
    .rename (ascii "/a") (ascii "/b"),
    .pull (ascii "/b") { writes := fun _ => 8 },
    .stat (ascii "/a"),
    .remove (ascii "/a")]

theorem proper_roundTrip : ∀ call ∈ roundTrip, call.Proper := by
  have ha : IsPath (ascii "/a") := ⟨by decide +kernel, by decide +kernel⟩
  have hb : IsPath (ascii "/b") := ⟨by decide +kernel, by decide +kernel⟩
  simp only [roundTrip, List.forall_mem_cons]
  exact ⟨ha, ⟨ha, hb⟩, ⟨hb, rfl⟩, ha, ha, by simp⟩

theorem runAll_fileDevice_roundTrip :
    ∃ turns last, runAll turns roundTrip
        (connected (fileDevice.answers ⟨fun _ => none, [], 1⟩)) =
      ([.ok .done, .ok .done, .ok (.content (ascii "hi")), .ok (.metadata none),
        refusal kNotFound], last) := by
  obtain ⟨bound, hbound⟩ :=
    runAll_fileDevice (fun _ => none) 1 proper_roundTrip
  obtain ⟨last, hrun, -⟩ := hbound bound (Nat.le_refl _)
  have hresults : (applyAll roundTrip fun _ => none).1 =
      [.ok .done, .ok .done, .ok (.content (ascii "hi")), .ok (.metadata none),
        refusal kNotFound] := by
    decide +kernel
  exact ⟨bound, last, by rw [hrun, hresults]⟩

end Ioscpp.Afc
