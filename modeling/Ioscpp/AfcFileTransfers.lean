import Ioscpp.AfcFileRequests

/-!
# Transfers with a file service

A push leaves the content of the local file on the device, and a pull writes what
the device has to the local file, however the C library splits the calls on the
local file; the handle is closed in either case.

## Main results

- `triple_push_served`: a push leaves the local file in the store.
- `triple_pull_served`: a pull leaves the file of the store in the local file, up to a
  write that fails.
-/

namespace Ioscpp.Afc

open Ioscpp.Support
open Ioscpp.Support.Action

variable {start : FileServer} {store : Store} {client : AfcLink × Afc}
  {remote : Bytes} {handle : UInt64} {φ : Type}

/-! ## Open and close -/

theorem fits_openRequest {path : Bytes} (h : IsPath path) (mode : UInt64) :
    (openRequest path mode).Fits := by
  have hlength := h.length
  have hextra : (openRequest path mode).extra.length = 8 + (path.length + 1) := by
    rw [openRequest, appendPath, List.length_append, List.length_append,
      length_putLe64, List.length_singleton, Nat.add_assoc]
  have hpayload : (openRequest path mode).payload.length = 0 := rfl
  rw [Request.Fits, hextra, hpayload, kHeaderSize]
  omega

theorem fits_of_handle (operation : UInt64) {extra payload : Bytes}
    (hextra : extra.length ≤ 16) (hpayload : payload.length ≤ kChunkSize) :
    (⟨operation, extra, payload⟩ : Request).Fits := by
  have hchunk : kChunkSize = 32768 := rfl
  dsimp only [Request.Fits, kHeaderSize]
  omega

/-- The device with one open file. -/
def FileServer.holding (store : Store) (handle : UInt64) (file : OpenFile) :
    FileServer where
  store := store
  opened := [(handle, file)]
  nextHandle := handle + 1

theorem FileServer.lookup_holding (store : Store) (handle : UInt64)
    (file : OpenFile) :
    (FileServer.holding store handle file).opened.lookup handle = some file := by
  rw [FileServer.holding, List.lookup_cons_self]

theorem FileServer.moveTo_holding (store : Store) (handle : UInt64)
    (file : OpenFile) (position : Nat) :
    (FileServer.holding store handle file).moveTo handle position =
      FileServer.holding store handle { file with position } := by
  rw [FileServer.moveTo, FileServer.holding, List.map_singleton]
  dsimp only
  rw [if_pos rfl]
  rfl

theorem FileServer.closeFile_holding (store : Store) (handle : UInt64)
    (file : OpenFile) :
    (FileServer.holding store handle file).closeFile handle =
      (.status 0, ⟨store, [], handle + 1⟩) := by
  simp [FileServer.closeFile, FileServer.holding]

theorem checkAnswer_handle (value : UInt64) :
    checkAnswer (Reply.handle value).packet = .ok (Reply.handle value).packet :=
  checkAnswer_of_operation (.inr rfl)

/-- An open that the device answers with a handle. -/
theorem run_openFile (h : Serves fileDevice start ⟨store, [], handle⟩ client)
    (hpath : IsPath remote) (mode : UInt64) {server : FileServer}
    (hopen : FileServer.openFile ⟨store, [], handle⟩ mode remote =
      (.handle handle, server)) :
    ∃ next, (openFile remote mode).run client = (.ok handle, next) ∧
      Serves fileDevice start server next := by
  obtain ⟨next, hrun, hnext⟩ := h.transact (fits_openRequest hpath mode)
  rw [fileDevice_open _ _ hpath.noNul, hopen] at hrun hnext
  have hdata : (Reply.handle handle).packet.data = putLe64 handle := rfl
  have hlength : (putLe64 handle).length = 8 := length_putLe64 handle
  have hword := word_putLe64 handle []
  rw [List.append_nil] at hword
  rw [checkAnswer_handle] at hrun
  refine ⟨next, ?_, hnext⟩
  refine (run_bind_ok hrun).trans ?_
  rw [hdata, if_neg (by omega), getLe64_eq (by omega), hword, run_lift]

/-- An open that the device refuses. -/
theorem run_openFile_refused
    (h : Serves fileDevice start ⟨store, [], handle⟩ client)
    (hpath : IsPath remote) (mode : UInt64) {code : UInt64} (hcode : code ≠ 0)
    (hopen : FileServer.openFile ⟨store, [], handle⟩ mode remote =
      (.status code, ⟨store, [], handle⟩)) :
    ∃ next, (openFile remote mode).run client = (refusal code, next) ∧
      Serves fileDevice start ⟨store, [], handle⟩ next := by
  obtain ⟨next, hrun, hnext⟩ := h.transact (fits_openRequest hpath mode)
  rw [fileDevice_open _ _ hpath.noNul, hopen] at hrun hnext
  rw [checkAnswer_status, if_neg hcode] at hrun
  exact ⟨next, run_bind_error hrun, hnext⟩

/-- The close at the end of a transfer. -/
theorem triple_close_served (store : Store) (handle : UInt64) (opened : OpenFile)
    (file : φ) :
    Triple (fun state =>
        Serves fileDevice start (.holding store handle opened) state.1 ∧
          state.2 = file)
      (outcome (onClient (transact kOpFileClose (putLe64 handle) [])))
      (fun _ state => Stores start store state.1 ∧ state.2 = file)
      (fun _ _ => False) := by
  have hdevice : fileDevice (.holding store handle opened) (closeRequest handle) =
      (.status 0, ⟨store, [], handle + 1⟩) := by
    rw [fileDevice_close, FileServer.closeFile_holding]
  have hfits : (closeRequest handle).Fits :=
    fits_of_handle _ (by rw [length_putLe64]; omega) (Nat.zero_le _)
  have hclose := triple_onClient (@triple_transact_served _ fileDevice start
    (.holding store handle opened) (closeRequest handle) hfits _
    (by rw [hdevice, checkAnswer_status, if_pos rfl])) file
  refine hclose.outcome_ok.imp_post (fun _ state hpost => ?_) fun _ _ h => h
  obtain ⟨_, -, ⟨-, hserves⟩, hfile⟩ := hpost
  rw [hdevice] at hserves
  exact ⟨⟨_, hserves⟩, hfile⟩

/-! ## Pushing -/

/-- What the reads of a local file return. -/
def SourceFile.content (file : SourceFile) : Bytes :=
  (file.chunks (file.unread.length + 1)).flatten

/-- The device while a file is written. -/
def FileServer.writing (store : Store) (remote : Bytes) (handle : UInt64)
    (content : Bytes) : FileServer :=
  .holding (Function.update store remote (some (.file content))) handle
    ⟨remote, content.length⟩

/-- A write appends to what was written. -/
theorem FileServer.writeFile_writing (content chunk : Bytes) :
    (FileServer.writing store remote handle content).writeFile handle chunk =
      (.status 0, FileServer.writing store remote handle (content ++ chunk)) := by
  have hcontent : (FileServer.writing store remote handle content).content
      ⟨remote, content.length⟩ = content := by
    simp [FileServer.content, FileServer.writing, FileServer.holding]
  have hwritten : content.take content.length ++ chunk ++
      content.drop (content.length + chunk.length) = content ++ chunk := by
    rw [List.take_length, List.drop_of_length_le (Nat.le_add_right _ _),
      List.append_nil]
  have hstore : Function.update (FileServer.writing store remote handle content).store
      remote (some (.file (content ++ chunk))) =
      Function.update store remote (some (.file (content ++ chunk))) :=
    Function.update_idem _ _ _
  have hlookup := FileServer.lookup_holding
    (Function.update store remote (some (.file content))) handle
    ⟨remote, content.length⟩
  rw [← FileServer.writing] at hlookup
  rw [FileServer.writeFile, hlookup]
  dsimp only
  rw [hcontent, hwritten, hstore]
  have hmove := FileServer.moveTo_holding
    (Function.update store remote (some (.file (content ++ chunk)))) handle
    ⟨remote, content.length⟩ (content.length + chunk.length)
  have hwriting : FileServer.writing store remote handle (content ++ chunk) =
      .holding (Function.update store remote (some (.file (content ++ chunk)))) handle
        ⟨remote, content.length + chunk.length⟩ := by
    rw [FileServer.writing, List.length_append]
  rw [hwriting]
  exact congrArg (Prod.mk _) hmove

/-- The loop writes the chunks of the file behind what was written. -/
theorem triple_pushLoop_served {fuel : Nat} {file : SourceFile} {content : Bytes}
    (hfuel : file.unread.length < fuel) :
    Triple (fun state =>
        Serves fileDevice start (.writing store remote handle content) state.1 ∧
          state.2 = file)
      (pushLoop handle fuel)
      (fun _ state => Serves fileDevice start (.writing store remote handle
        (content ++ (file.chunks fuel).flatten)) state.1)
      (fun _ _ => False) := by
  induction fuel generalizing file content with
  | zero => omega
  | succ fuel ih =>
      rw [pushLoop]
      refine (triple_onFile file.run_fread).bind fun chunk => ?_
      refine Triple.of_state fun state hstate => ?_
      obtain ⟨rfl, hserves, hfile⟩ := hstate
      rw [SourceFile.chunks]
      refine Triple.ite (fun hempty => ?_) fun hnonempty => ?_
      · rw [if_pos hempty, List.flatten_nil, List.append_nil]
        exact Triple.pure fun _ heq => heq ▸ hserves
      · have hchunk : file.next.length ≤ kChunkSize := by
          rw [SourceFile.next, List.length_take]
          omega
        have hdevice : fileDevice (.writing store remote handle content)
            (writeRequest handle file.next) =
            (.status 0, .writing store remote handle (content ++ file.next)) := by
          rw [fileDevice_write, FileServer.writeFile_writing]
        have hfits : (writeRequest handle file.next).Fits :=
          fits_of_handle _ (by rw [length_putLe64]; omega) hchunk
        have hwrite := triple_onClient (@triple_transact_served _ fileDevice start
          (.writing store remote handle content) (writeRequest handle file.next)
          hfits _ (by rw [hdevice, checkAnswer_status, if_pos rfl])) file.rest
        rw [hdevice] at hwrite
        refine Triple.bind (hwrite.at_state ⟨hserves, hfile⟩) fun packet => ?_
        rw [if_neg hnonempty, List.flatten_cons, ← List.append_assoc]
        refine (ih (SourceFile.length_rest hnonempty hfuel)).imp_pre ?_
        exact fun _ hpost => ⟨hpost.1.2, hpost.2⟩

/-- A push of a local file that opens, to a path that is no directory, cannot fail: it
leaves the file of that path with the content of the local one. -/
theorem triple_push_served (hpath : IsPath remote)
    (hstore : store remote ≠ some .directory) {file : SourceFile}
    (hfile : file.opens = true) :
    Triple (fun state => Stores start store state.1 ∧ state.2 = file)
      (push remote)
      (fun _ state => Stores start
        (Function.update store remote (some (.file file.content))) state.1)
      (fun _ _ => False) := by
  refine Triple.get_bind fun state hstate => ?_
  obtain ⟨⟨handle, hserves⟩, hpart⟩ := hstate
  rw [hpart, if_pos hfile]
  have hopen : FileServer.openFile ⟨store, [], handle⟩ kFopenWr remote =
      (.handle handle, .writing store remote handle []) := by
    rw [FileServer.openFile, if_pos rfl, Store.put, if_neg hstore]
    rfl
  obtain ⟨client, hrun, hclient⟩ := run_openFile hserves hpath kFopenWr hopen
  have hzoom : (onClient (openFile remote kFopenWr)).run state =
      (.ok handle, (client, state.2)) := by
    rw [onClient, run_zoom]
    exact congrArg (fun run => (run.1, (run.2, state.2))) hrun
  refine Triple.bind_of_run hzoom ?_
  have hloop := @triple_pushLoop_served start store remote handle _ file []
    (Nat.lt_succ_self file.unread.length)
  rw [List.nil_append, ← SourceFile.content] at hloop
  refine Triple.bind (hloop.outcome_ok.at_state ⟨hclient, hpart⟩)
    fun result => Triple.of_state fun last hlast => ?_
  obtain ⟨⟨⟩, rfl, hserves⟩ := hlast
  refine Triple.bind ((triple_close_served _ handle _ last.2).at_state
    ⟨hserves, rfl⟩) fun _ => ?_
  exact Triple.lift (fun _ _ _ hpost => hpost.1) fun _ herror => by cases herror

theorem run_push (h : Stores start store client) (hpath : IsPath remote)
    {file : SourceFile} (hfile : file.opens = true) :
    ∃ next, (withFile file (push remote)).run client =
        ((store.put remote file.content).1, next) ∧
      Stores start (store.put remote file.content).2 next := by
  rw [Store.put, withFile, run_zoom]
  by_cases hstore : store remote = some .directory
  · rw [if_pos hstore]
    obtain ⟨handle, hserves⟩ := h
    have hopen : FileServer.openFile ⟨store, [], handle⟩ kFopenWr remote =
        (.status kIsDirectory, ⟨store, [], handle⟩) := by
      rw [FileServer.openFile, if_pos rfl, Store.put, if_pos hstore]
      rfl
    obtain ⟨next, hrun, hnext⟩ := run_openFile_refused hserves hpath kFopenWr
      (by decide) hopen
    have hzoom : (onClient (openFile remote kFopenWr)).run (client, file) =
        (refusal kIsDirectory, (next, file)) := by
      rw [onClient, run_zoom]
      exact congrArg (fun run => (run.1, (run.2, file))) hrun
    have hpush : (push remote).run (client, file) =
        (refusal kIsDirectory, (next, file)) := by
      rw [push, run_bind_ok (run_get _), if_pos hfile]
      exact run_bind_error hzoom
    exact ⟨next, by rw [hpush], handle, hnext⟩
  · rw [if_neg hstore]
    have hpush := @triple_push_served start store remote hpath hstore file hfile
    have hstart : Stores start store (client, file).1 ∧ (client, file).2 = file :=
      ⟨h, rfl⟩
    obtain ⟨_, next, hrun, hnext⟩ := hpush.exists_ok hstart
    exact ⟨next.1, by rw [hrun], hnext⟩

/-- A push of a local file that does not open sends nothing. -/
theorem run_push_unopened {file : SourceFile} (hfile : file.opens = false)
    (remote : Bytes) :
    (withFile file (push remote)).run client =
      (.error (.error ⟨.io, ascii "the local file could not be read"⟩), client) := by
  have hpush : (push remote).run (client, file) =
      (.error (.error ⟨.io, ascii "the local file could not be read"⟩),
        (client, file)) := by
    rw [push, run_bind_ok (run_get _), hfile, if_neg (by decide), run_fail]
  rw [withFile, run_zoom, hpush]

/-! ## Pulling -/

/-- The chunks that a device serves of a content. -/
def chunksOf : Nat → Bytes → List Bytes
  | 0, _ => []
  | fuel + 1, content =>
      if content = [] then []
      else content.take kChunkSize :: chunksOf fuel (content.drop kChunkSize)

instance instDecidableTakesAll (writes : Nat → Nat) :
    ∀ call chunks, Decidable (TakesAll writes call chunks)
  | _, [] => inferInstanceAs (Decidable True)
  | call, chunk :: rest =>
      have := instDecidableTakesAll writes (call + 1) rest
      inferInstanceAs (Decidable (chunk.length ≤ writes call ∧
        TakesAll writes (call + 1) rest))

def partlyWritten : Error := ⟨.io, ascii "the local file was only partly written"⟩

/-- What a local file holds when it is given a content; some of it is lost when
the file is closed. -/
def TargetFile.fill (file : TargetFile) (content : Bytes) : Result Bytes :=
  if TakesAll file.writes file.calls (chunksOf content.length content) then
    .ok (content.take (content.length - file.lost))
  else .error (.error partlyWritten)

theorem length_drop_chunk {fuel : Nat} {content : Bytes} (h : content ≠ [])
    (hfuel : content.length ≤ fuel + 1) :
    (content.drop kChunkSize).length ≤ fuel := by
  have hpos := List.length_pos_iff.mpr h
  rw [List.length_drop, kChunkSize]
  omega

theorem flatten_chunksOf {fuel : Nat} {content : Bytes}
    (hfuel : content.length ≤ fuel) : (chunksOf fuel content).flatten = content := by
  induction fuel generalizing content with
  | zero => rw [List.eq_nil_of_length_eq_zero (Nat.le_zero.mp hfuel)]; rfl
  | succ fuel ih =>
      rw [chunksOf]
      split
      · rename_i hempty
        exact hempty.symm
      · rename_i hnonempty
        rw [List.flatten_cons, ih (length_drop_chunk hnonempty hfuel),
          List.take_append_drop]

/-- A read of an open file serves the next chunk, or the end of the file. -/
theorem FileServer.readFile_holding {content : Bytes}
    (hstore : store remote = some (.file content)) (position : Nat) :
    (FileServer.holding store handle ⟨remote, position⟩).readFile handle kChunkSize =
      if content.drop position = [] then
        (.status 0, .holding store handle ⟨remote, position⟩)
      else (.carrying ((content.drop position).take kChunkSize),
        .holding store handle ⟨remote,
          position + ((content.drop position).take kChunkSize).length⟩) := by
  have hcontent : (FileServer.holding store handle ⟨remote, position⟩).content
      ⟨remote, position⟩ = content := by
    rw [FileServer.content, FileServer.holding]
    dsimp only
    rw [hstore]
  have hmin : min kChunkSize kLongestData = kChunkSize := by decide
  have hnil : (content.drop position).take kChunkSize = [] ↔
      content.drop position = [] := by
    rw [List.take_eq_nil_iff]
    exact or_iff_right (by decide)
  rw [FileServer.readFile, FileServer.lookup_holding]
  dsimp only
  rw [hcontent, hmin]
  by_cases hend : content.drop position = []
  · rw [if_pos (hnil.mpr hend), if_pos hend]
  · rw [if_neg (mt hnil.mp hend), if_neg hend, FileServer.moveTo_holding]

/-- A write to the local file that takes part of the data only. -/
theorem TargetFile.run_fwrite_partly {file : TargetFile} {data : Bytes}
    (h : ¬ data.length ≤ file.writes file.calls) :
    ∃ count next, (TargetFile.fwrite data).run file = (.ok count, next) ∧
      count ≠ data.length := by
  refine ⟨min data.length (file.writes file.calls), _, rfl, ?_⟩
  omega

/-- The loop moves the chunks to the local file, up to one that it does not
take. -/
theorem triple_pullLoop_served {content : Bytes}
    (hstore : store remote = some (.file content)) {fuel : Nat} {position turns : Nat}
    {file : TargetFile} (hfuel : (content.drop position).length ≤ fuel)
    (hturns : fuel < turns) :
    Triple (fun state => Serves fileDevice start
          (.holding store handle ⟨remote, position⟩) state.1 ∧ state.2 = file)
      (pullLoop handle turns)
      (fun _ state => (∃ opened, Serves fileDevice start
          (.holding store handle opened) state.1) ∧
        TakesAll file.writes file.calls (chunksOf fuel (content.drop position)) ∧
        state.2 = (chunksOf fuel (content.drop position)).foldl TargetFile.take file)
      (fun fault state => ∃ e, fault = .error e ∧ e = partlyWritten ∧
        (∃ opened, Serves fileDevice start (.holding store handle opened) state.1) ∧
        ¬ TakesAll file.writes file.calls
          (chunksOf fuel (content.drop position))) := by
  induction turns generalizing fuel position file with
  | zero => omega
  | succ turns ih =>
      have hdevice := fileDevice_read
        (.holding store handle ⟨remote, position⟩) handle
      rw [FileServer.readFile_holding hstore] at hdevice
      have hfits : (readRequest handle).Fits :=
        fits_of_handle _ (by rw [List.length_append, length_putLe64,
          length_putLe64]) (Nat.zero_le _)
      rw [pullLoop]
      by_cases hend : content.drop position = []
      · rw [if_pos hend] at hdevice
        have hread := triple_onClient (@triple_transact_served _ fileDevice start
          (.holding store handle ⟨remote, position⟩) (readRequest handle) hfits _
          (by rw [hdevice, checkAnswer_status, if_pos rfl])) file
        rw [hdevice] at hread
        have hnone : chunksOf fuel (content.drop position) = [] := by
          rw [hend]
          cases fuel with
          | zero => rfl
          | succ fuel => rw [chunksOf, if_pos rfl]
        rw [hnone]
        refine hread.bind_certain
          fun packet => Triple.of_state fun state hstate => ?_
        obtain ⟨⟨rfl, hserves⟩, hfile⟩ := hstate
        rw [if_pos (.inl rfl)]
        exact Triple.pure fun _ heq => heq ▸ ⟨⟨_, hserves⟩, trivial, hfile⟩
      · obtain ⟨fuel, rfl⟩ : ∃ less, fuel = less + 1 := by
          refine Nat.exists_eq_add_one_of_ne_zero fun hzero => hend ?_
          exact List.eq_nil_of_length_eq_zero (by omega)
        have hchunk : ((content.drop position).take kChunkSize).length ≤
            kLongestData :=
          (List.length_take_le _ _).trans (by decide)
        have hdata : kOpData ≠ kOpStatus := by decide
        have hnonempty : (content.drop position).take kChunkSize ≠ [] := by
          rw [Ne, List.take_eq_nil_iff, not_or]
          exact ⟨by decide, hend⟩
        have hrest : content.drop
            (position + ((content.drop position).take kChunkSize).length) =
            (content.drop position).drop kChunkSize := by
          rw [← List.drop_drop, List.length_take, ← List.drop_eq_drop_min]
        rw [if_neg hend] at hdevice
        rw [chunksOf, if_neg hend]
        have hdrop := length_drop_chunk hend hfuel
        rw [← hrest] at hdrop ⊢
        generalize (content.drop position).take kChunkSize = chunk at *
        have hread := triple_onClient (@triple_transact_served _ fileDevice start
          (.holding store handle ⟨remote, position⟩) (readRequest handle) hfits _
          (by rw [hdevice, packet_carrying hchunk,
            checkAnswer_of_operation (.inl rfl)])) file
        rw [hdevice] at hread
        refine hread.bind_certain
          fun packet => Triple.of_state fun state hstate => ?_
        obtain ⟨⟨rfl, hserves⟩, hfile⟩ := hstate
        rw [if_neg (not_or.mpr ⟨hdata, hnonempty⟩)]
        by_cases hwrites : chunk.length ≤ file.writes file.calls
        · refine Triple.bind ((triple_onFile (TargetFile.run_fwrite
            hwrites)).at_state ⟨hserves, hfile⟩)
            fun count => Triple.of_state fun last hlast => ?_
          obtain ⟨rfl, hserves, hfile⟩ := hlast
          rw [if_neg (not_not.mpr rfl), List.foldl_cons]
          have hloop := (@ih fuel _ (file.take chunk) hdrop
            (Nat.lt_of_succ_lt_succ hturns)).at_state ⟨hserves, hfile⟩
          refine hloop.imp_post (fun _ _ hpost => ?_) fun _ _ hpost => ?_
          · exact ⟨hpost.1, ⟨hwrites, hpost.2.1⟩, hpost.2.2⟩
          · obtain ⟨e, hfault, he, hserves, htakes⟩ := hpost
            exact ⟨e, hfault, he, hserves, fun htakes' => htakes htakes'.2⟩
        · obtain ⟨count, next, hwrite, hcount⟩ := TargetFile.run_fwrite_partly hwrites
          refine Triple.bind ((triple_onFile hwrite).at_state ⟨hserves, hfile⟩)
            fun written => Triple.of_state fun last hlast => ?_
          obtain ⟨rfl, hserves, -⟩ := hlast
          rw [if_pos hcount]
          refine Triple.fail fun _ heq => ?_
          exact heq ▸ ⟨_, rfl, rfl, ⟨_, hserves⟩, fun htakes => hwrites htakes.1⟩

/-- The end of a pull: the local file and the handle are closed. -/
theorem triple_endOfPull (opened : OpenFile) (file : TargetFile)
    (result : Result Unit) :
    Triple (fun state =>
        Serves fileDevice start (.holding store handle opened) state.1 ∧
          state.2 = file)
      (do
        onFile TargetFile.fclose
        let _ ← outcome (onClient (transact kOpFileClose (putLe64 handle) []))
        Action.lift result)
      (fun _ state => result = .ok () ∧ Stores start store state.1 ∧
        state.2 = file.closed)
      (fun fault state => result = .error fault ∧ Stores start store state.1) := by
  refine (triple_onFile (TargetFile.run_fclose file)).bind fun _ => ?_
  refine Triple.of_state fun state hstate => ?_
  obtain ⟨-, hserves, hfile⟩ := hstate
  refine Triple.bind_certain ((triple_close_served store handle opened
    file.closed).at_state ⟨hserves, hfile⟩) fun _ => ?_
  exact Triple.lift (fun _ hok _ hpost => ⟨hok, hpost⟩)
    fun _ herror _ hpost => ⟨herror, hpost.1⟩

/-- A pull of a file leaves the store as it is, and fills the local file with the
content: it ends as writing all of it to the local file does, with its error if there is
one. -/
theorem triple_pull_served (hpath : IsPath remote) {content : Bytes}
    (hstore : store remote = some (.file content)) {file : TargetFile}
    (hfile : file.opens = true) {turns : Nat} (hturns : content.length < turns) :
    Triple (fun state => Stores start store state.1 ∧ state.2 = file)
      (pull turns remote)
      (fun _ state => Stores start store state.1 ∧
        file.fill content = .ok state.2.content)
      (fun fault state => Stores start store state.1 ∧
        file.fill content = .error fault) := by
  refine Triple.of_state fun state hstate => ?_
  obtain ⟨⟨handle, hserves⟩, hpart⟩ := hstate
  have hopen : FileServer.openFile ⟨store, [], handle⟩ kFopenRdonly remote =
      (.handle handle, .holding store handle ⟨remote, 0⟩) := by
    rw [FileServer.openFile, if_neg (by decide)]
    dsimp only
    rw [hstore]
    rfl
  obtain ⟨client, hrun, hclient⟩ := run_openFile hserves hpath kFopenRdonly hopen
  have hzoom : (onClient (openFile remote kFopenRdonly)).run state =
      (.ok handle, (client, state.2)) := by
    rw [onClient, run_zoom]
    exact congrArg (fun run => (run.1, (run.2, state.2))) hrun
  refine Triple.bind_of_run hzoom ?_
  refine Triple.bind ((triple_onFile (TargetFile.run_fopen hfile)).at_state
    ⟨hclient, hpart⟩) fun opened => Triple.of_state fun next hnext => ?_
  obtain ⟨rfl, hserves, hpart⟩ := hnext
  rw [if_pos rfl]
  have hloop := @triple_pullLoop_served start store remote handle content hstore
    content.length 0 turns file.opened (Nat.le_refl _) hturns
  rw [List.drop_zero] at hloop
  refine Triple.bind_certain (hloop.outcome_reported.at_state ⟨hserves, hpart⟩)
    fun result => Triple.of_state fun moved hmoved => ?_
  rcases hmoved with ⟨_, rfl, ⟨last, hserves⟩, htakes, hmoved⟩ |
    ⟨e, rfl, rfl, ⟨last, hserves⟩, htakes⟩
  · refine ((triple_endOfPull last moved.2 _).at_state ⟨hserves, rfl⟩).imp_post
      (fun _ state hpost => ⟨hpost.2.1, ?_⟩) fun _ _ hpost => by cases hpost.1
    obtain ⟨htaken, hlost⟩ :=
      TargetFile.foldl_take (chunksOf content.length content) file.opened
    rw [flatten_chunksOf (Nat.le_refl _)] at htaken
    have hheld : state.2.content = content.take (content.length - file.lost) := by
      rw [hpost.2.2, hmoved, TargetFile.closed, htaken, hlost]
      rfl
    rw [hheld]
    exact if_pos htakes
  · refine ((triple_endOfPull last moved.2 _).at_state ⟨hserves, rfl⟩).imp_post
      (fun _ _ hpost => by cases hpost.1) fun fault _ hpost => ⟨hpost.2, ?_⟩
    obtain rfl := Except.error.inj hpost.1
    exact if_neg htakes

/-- A pull, and what the local file holds after it. -/
def pullInto {σ : Type} [ByteStream σ] (turns : Nat) (remote : Bytes)
    (file : TargetFile) : Action Error (σ × Afc) Bytes := fun state =>
  let outcome := (pull turns remote).run (state, file)
  (outcome.1.map fun _ => outcome.2.2.content, outcome.2.1)

theorem run_pullInto {turns : Nat} {file held : TargetFile} {result : Result Unit}
    {next : AfcLink × Afc}
    (h : (pull turns remote).run (client, file) = (result, (next, held))) :
    (pullInto turns remote file).run client =
      (result.map fun _ => held.content, next) :=
  congrArg (fun outcome => (outcome.1.map fun _ => outcome.2.2.content, outcome.2.1)) h

theorem run_pull (h : Stores start store client) (hpath : IsPath remote)
    {file : TargetFile} (hfile : file.opens = true) {turns : Nat}
    (hturns : ∀ content, store.get remote = .ok content → content.length < turns) :
    ∃ next, (pullInto turns remote file).run client =
        (store.get remote >>= file.fill, next) ∧ Stores start store next := by
  have hrefused {code : UInt64} (hcode : code ≠ 0)
      (hopen : ∀ handle, FileServer.openFile ⟨store, [], handle⟩ kFopenRdonly remote =
        (.status code, ⟨store, [], handle⟩)) :
      ∃ next, (pullInto turns remote file).run client = (refusal code, next) ∧
        Stores start store next := by
    obtain ⟨handle, hserves⟩ := h
    obtain ⟨next, hrun, hnext⟩ := run_openFile_refused hserves hpath kFopenRdonly
      hcode (hopen handle)
    have hzoom : (onClient (openFile remote kFopenRdonly)).run (client, file) =
        (refusal code, (next, file)) := by
      rw [onClient, run_zoom]
      exact congrArg (fun run => (run.1, (run.2, file))) hrun
    have hpull : (pull turns remote).run (client, file) =
        (refusal code, (next, file)) := run_bind_error hzoom
    exact ⟨next, run_pullInto hpull, handle, hnext⟩
  cases hnode : store remote with
  | none =>
      have hget : store.get remote = refusal kNotFound := by rw [Store.get, hnode]
      rw [hget]
      refine hrefused (by decide) fun handle => ?_
      rw [FileServer.openFile, if_neg (by decide)]
      dsimp only
      rw [hnode]
  | some node =>
      cases node with
      | directory =>
          have hget : store.get remote = refusal kIsDirectory := by rw [Store.get, hnode]
          rw [hget]
          refine hrefused (by decide) fun handle => ?_
          rw [FileServer.openFile, if_neg (by decide)]
          dsimp only
          rw [hnode]
      | file content =>
          have hget : store.get remote = .ok content := by rw [Store.get, hnode]
          have hpull := @triple_pull_served start store remote hpath content hnode
            file hfile turns (hturns content hget) (client, file) ⟨h, rfl⟩
          rw [hget, ok_bind]
          rcases hrun : (pull turns remote).run (client, file) with ⟨fault | _, next⟩
          · rw [hrun] at hpull
            exact ⟨next.1, by rw [run_pullInto hrun, hpull.2]; rfl, hpull.1⟩
          · rw [hrun] at hpull
            exact ⟨next.1, by rw [run_pullInto hrun, hpull.2]; rfl, hpull.1⟩

end Ioscpp.Afc
