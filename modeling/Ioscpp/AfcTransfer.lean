import Ioscpp.AfcLockStep

/-!
# Transfers

`Sent answer requests` holds of a client that sent these requests, numbered from
one, to a device that answers.  A push sends an open, one write for each chunk
that is read of the local file, and a close; a pull sends an open, one read for
each chunk that the device serves and one for the end of the file, and a close.

## Main results

- `triple_push`, `triple_pull`: the packets that a transfer sends, and what it leaves
  in the local file.
- `transfers_faithful`: both, on a new client.
-/

namespace Ioscpp.Afc

open Ioscpp.Support
open Ioscpp.Support.Action

/-! ## Requests -/

/-- A request: its operation, the data of its header part, and its payload. -/
structure Request where
  operation : UInt64
  extra : Bytes
  payload : Bytes := []
  deriving DecidableEq, Repr

def Request.packet (request : Request) (number : UInt64) : Bytes :=
  requestPacket number request.operation request.extra request.payload

/-- The packets of requests with the numbers 1, 2, 3 and so on. -/
def wire (requests : List Request) : List Bytes :=
  requests.mapIdx fun i request => request.packet (UInt64.ofNat (i + 1))

def openRequest (path : Bytes) (mode : UInt64) : Request where
  operation := kOpFileOpen
  extra := appendPath (putLe64 mode) path

def readRequest (handle : UInt64) : Request where
  operation := kOpFileRead
  extra := putLe64 handle ++ putLe64 (UInt64.ofNat kChunkSize)

def writeRequest (handle : UInt64) (chunk : Bytes) : Request where
  operation := kOpFileWrite
  extra := putLe64 handle
  payload := chunk

def closeRequest (handle : UInt64) : Request where
  operation := kOpFileClose
  extra := putLe64 handle

theorem wire_append (requests : List Request) (request : Request) :
    wire (requests ++ [request]) =
      wire requests ++ [request.packet (UInt64.ofNat (requests.length + 1))] := by
  rw [wire, List.mapIdx_concat, wire]

theorem Request.length_packet (request : Request) (number : UInt64) :
    (request.packet number).length =
      kHeaderSize + request.extra.length + request.payload.length := by
  simp [Request.packet, requestPacket, length_kMagic, kHeaderSize]
  omega

/-- The operation stands at offset 32 of a request. -/
theorem Request.word_packet (request : Request) (number : UInt64) :
    word (request.packet number) 32 = request.operation := by
  have hword := @word_eq request.operation.toNat 32 (request.packet number)
    (kMagic ++ putLe64 (UInt64.ofNat
        (kHeaderSize + request.extra.length + request.payload.length)) ++
      putLe64 (UInt64.ofNat (kHeaderSize + request.extra.length)) ++
      putLe64 number) (request.extra ++ request.payload)
  rw [hword, UInt64.ofNat_toNat]
  · simp only [Request.packet, requestPacket, putLe64, List.append_assoc]
  · simp [length_kMagic]

/-- A client that sent these requests, and nothing else, to a device that
answers. -/
structure Sent (answer : List Bytes → Reply) (requests : List Request)
    (state : AfcLink × Afc) : Prop where
  answering : state.1.respond = answering answer
  settled : state.1.Settled
  sent : state.1.sent = wire requests
  number : state.2.packetNum = UInt64.ofNat requests.length

variable {answer : List Bytes → Reply} {requests : List Request}

/-- The answer to a request that follows others. -/
def replyTo (answer : List Bytes → Reply) (requests : List Request)
    (request : Request) : Packet :=
  (answer (wire (requests ++ [request]))).packet

theorem sent_connected (answer : List Bytes → Reply) :
    Sent answer [] (connected answer) :=
  ⟨rfl, ⟨rfl, rfl⟩, rfl, rfl⟩

theorem Sent.transact {state : AfcLink × Afc} (h : Sent answer requests state)
    (request : Request) :
    ∃ next, (Afc.transact request.operation request.extra request.payload).run
        state = (checkAnswer (replyTo answer requests request), next) ∧
      Sent answer (requests ++ [request]) next := by
  obtain ⟨link, ⟨number⟩⟩ := state
  obtain ⟨hanswering, hsettled, hsent, rfl : number = _⟩ := h
  have hnumber : UInt64.ofNat requests.length + 1 =
      UInt64.ofNat (requests.length + 1) := by
    rw [UInt64.ofNat_add]
    rfl
  have hwire : link.sent ++ [request.packet
      (UInt64.ofNat requests.length + 1)] = wire (requests ++ [request]) := by
    rw [hnumber, wire_append, ← hsent]
  have hrun := run_transact hanswering hsettled (UInt64.ofNat requests.length)
    request.operation request.extra request.payload rfl rfl
  change _ = (checkAnswer (answer (link.sent ++
    [request.packet (UInt64.ofNat requests.length + 1)])).packet, _) at hrun
  rw [hwire] at hrun
  refine ⟨_, hrun, ⟨hanswering, hsettled.exchange _ _ _, hwire, ?_⟩⟩
  rw [List.length_append]
  exact hnumber

/-- An exchange whose answer is accepted. -/
theorem triple_transact {request : Request} {packet : Packet}
    (h : checkAnswer (replyTo answer requests request) = .ok packet) :
    Triple (Sent answer requests)
      (transact request.operation request.extra request.payload)
      (fun a state => a = packet ∧ Sent answer (requests ++ [request]) state)
      (fun _ _ => False) := by
  intro state hstate
  obtain ⟨next, hrun, hnext⟩ := hstate.transact request
  rw [hrun, h]
  exact ⟨rfl, hnext⟩

/-- The verdict on an answer is a packet, or an error. -/
theorem checkAnswer_reported (packet : Packet) :
    (∃ answer, checkAnswer packet = .ok answer) ∨
      ∃ e, checkAnswer packet = .error (.error e) := by
  rw [checkAnswer]
  split
  · split
    · exact .inr ⟨_, rfl⟩
    · rw [getLe64_eq (by omega), ok_bind]
      split
      · exact .inr ⟨_, rfl⟩
      · exact .inl ⟨_, rfl⟩
  · split
    · exact .inr ⟨_, rfl⟩
    · exact .inl ⟨_, rfl⟩

/-! ## Answers that are accepted -/

/-- The answer to an open: a handle. -/
def Packet.Opens (handle : UInt64) (packet : Packet) : Prop :=
  packet.operation = kOpFileOpenRes ∧ 8 ≤ packet.data.length ∧
    word packet.data 0 = handle

/-- A status of zero. -/
def Packet.Succeeds (packet : Packet) : Prop :=
  packet.operation = kOpStatus ∧ 8 ≤ packet.data.length ∧ word packet.data 0 = 0

/-- Data. -/
def Packet.Carries (chunk : Bytes) (packet : Packet) : Prop :=
  packet.operation = kOpData ∧ packet.data = chunk

theorem Packet.Succeeds.checkAnswer {packet : Packet} (h : packet.Succeeds) :
    Afc.checkAnswer packet = .ok packet := by
  obtain ⟨hoperation, hlength, hcode⟩ := h
  rw [Afc.checkAnswer, if_pos hoperation, if_neg (Nat.not_lt.mpr hlength),
    getLe64_eq hlength, ok_bind, if_neg (not_not.mpr hcode), pure_eq_ok]

theorem checkAnswer_of_operation {packet : Packet}
    (h : packet.operation = kOpData ∨ packet.operation = kOpFileOpenRes) :
    checkAnswer packet = .ok packet := by
  rcases h with h | h
  · rw [checkAnswer, h, if_neg (by decide), if_neg (by simp)]
    rfl
  · rw [checkAnswer, h, if_neg (by decide), if_neg (by simp)]
    rfl

theorem triple_openFile {handle : UInt64} {path : Bytes} {mode : UInt64}
    (h : (replyTo answer requests (openRequest path mode)).Opens handle) :
    Triple (Sent answer requests) (openFile path mode)
      (fun a state => a = handle ∧
        Sent answer (requests ++ [openRequest path mode]) state)
      (fun _ _ => False) := by
  obtain ⟨hoperation, hlength, hhandle⟩ := h
  refine (triple_transact
    (checkAnswer_of_operation (.inr hoperation))).bind fun packet => ?_
  refine Triple.ite (fun hshort state hstate => ?_) fun _ => ?_
  · rw [hstate.1] at hshort
    exact absurd hlength (Nat.not_le.mpr hshort)
  · rintro state ⟨rfl, hstate⟩
    rw [getLe64_eq hlength, run_lift]
    exact ⟨hhandle, hstate⟩

/-! ## Steps beside a local file -/

section Files

variable {φ α : Type} {P : AfcLink × Afc → Prop} {Q : α → AfcLink × Afc → Prop}

theorem triple_onClient {x : Action Error (AfcLink × Afc) α} {e : Prop}
    (h : Triple P x Q (fun _ _ => e)) (file : φ) :
    Triple (fun state => P state.1 ∧ state.2 = file) (onClient x)
      (fun a state => Q a state.1 ∧ state.2 = file) (fun _ _ => e) := by
  refine Triple.zoom fun state hstate => ?_
  exact h.imp (fun client hclient => hclient ▸ hstate.1)
    (fun a client hclient => ⟨hclient, hstate.2⟩) fun _ _ he => he

theorem triple_onFile {y : Action Error φ α} {file next : φ} {a : α}
    {E : Fault Error → (AfcLink × Afc) × φ → Prop}
    (h : y.run file = (.ok a, next)) :
    Triple (fun state => P state.1 ∧ state.2 = file) (onFile y)
      (fun b state => b = a ∧ P state.1 ∧ state.2 = next) E := by
  rintro ⟨client, part⟩ ⟨hP, hpart : part = file⟩
  rw [onFile, run_zoom, hpart, h]
  exact ⟨rfl, hP, rfl⟩

/-- The close that ends a transfer: its verdict is ignored. -/
theorem triple_close (handle : UInt64) (file : φ) :
    Triple (fun state => Sent answer requests state.1 ∧ state.2 = file)
      (outcome (onClient (transact kOpFileClose (putLe64 handle) [])))
      (fun _ state => Sent answer (requests ++ [closeRequest handle]) state.1 ∧
        state.2 = file) (fun _ _ => False) := by
  rintro ⟨client, part⟩ ⟨hsent, hpart⟩
  obtain ⟨next, hrun, hnext⟩ := hsent.transact (closeRequest handle)
  have hzoom : (onClient (transact kOpFileClose (putLe64 handle) [])).run
      (client, part) =
      (checkAnswer (replyTo answer requests (closeRequest handle)),
        (next, part)) := by
    rw [onClient, run_zoom]
    exact congrArg (fun run => (run.1, (run.2, part))) hrun
  rcases checkAnswer_reported (replyTo answer requests (closeRequest handle)) with
    ⟨packet, hverdict⟩ | ⟨e, hverdict⟩
  · rw [hverdict] at hzoom
    rw [run_outcome_ok hzoom]
    exact ⟨hnext, hpart⟩
  · rw [hverdict] at hzoom
    rw [run_outcome_error hzoom]
    exact ⟨hnext, hpart⟩

end Files

/-! ## Pushing -/

/-- The bytes of the next read of a chunk. -/
def SourceFile.next (file : SourceFile) : Bytes :=
  file.unread.take (min kChunkSize (file.reads file.calls))

/-- The file after that read. -/
def SourceFile.rest (file : SourceFile) : SourceFile :=
  { file with
    unread := file.unread.drop file.next.length
    calls := file.calls + 1 }

/-- The chunks of the file, up to the first read that returns nothing. -/
def SourceFile.chunks : Nat → SourceFile → List Bytes
  | 0, _ => []
  | fuel + 1, file =>
      if file.next = [] then [] else file.next :: file.rest.chunks fuel

theorem SourceFile.run_fread (file : SourceFile) :
    (SourceFile.fread kChunkSize).run file = (.ok file.next, file.rest) := rfl

theorem SourceFile.next_append (file : SourceFile) :
    file.next ++ file.rest.unread = file.unread := by
  have htake : file.next = file.unread.take file.next.length := by
    rw [SourceFile.next, List.length_take, ← List.take_eq_take_min]
  calc file.next ++ file.rest.unread
      = file.unread.take file.next.length ++ file.unread.drop file.next.length :=
        congrArg (· ++ file.rest.unread) htake
    _ = file.unread := List.take_append_drop _ _

theorem SourceFile.length_rest {file : SourceFile} (h : file.next ≠ [])
    {fuel : Nat} (hfuel : file.unread.length < fuel + 1) :
    file.rest.unread.length < fuel := by
  have hlength := congrArg List.length file.next_append
  have hpos := List.length_pos_iff.mpr h
  rw [List.length_append] at hlength
  omega

theorem SourceFile.length_chunks_le (fuel : Nat) (file : SourceFile) :
    ∀ chunk ∈ file.chunks fuel, chunk.length ≤ kChunkSize := by
  induction fuel generalizing file with
  | zero => simp [SourceFile.chunks]
  | succ fuel ih =>
      rw [SourceFile.chunks]
      split
      · simp
      · intro chunk hmem
        rcases List.mem_cons.mp hmem with rfl | hmem
        · rw [SourceFile.next, List.length_take]
          omega
        · exact ih _ chunk hmem

/-- Reads that always return something read the whole file. -/
theorem SourceFile.flatten_chunks {fuel : Nat} {file : SourceFile}
    (hreads : ∀ i, 0 < file.reads i) (hfuel : file.unread.length < fuel) :
    (file.chunks fuel).flatten = file.unread := by
  induction fuel generalizing file with
  | zero => omega
  | succ fuel ih =>
      have hnext := file.next_append
      rw [SourceFile.chunks]
      split
      · rename_i hempty
        have hpos : 0 < min kChunkSize (file.reads file.calls) :=
          Nat.lt_min.mpr ⟨by decide, hreads _⟩
        rw [SourceFile.next, List.take_eq_nil_iff] at hempty
        rcases hempty with hzero | hnil
        · omega
        · rw [hnil]
          rfl
      · rename_i hnonempty
        rw [List.flatten_cons,
          @ih file.rest hreads (SourceFile.length_rest hnonempty hfuel), hnext]

/-- A device that answers each write with a status of zero, whatever was sent before. -/
def AcceptsWrites (answer : List Bytes → Reply) : Prop :=
  ∀ history packet, word packet 32 = kOpFileWrite →
    (answer (history ++ [packet])).packet.Succeeds

theorem AcceptsWrites.replyTo (h : AcceptsWrites answer) (requests : List Request)
    (handle : UInt64) (chunk : Bytes) :
    (replyTo answer requests (writeRequest handle chunk)).Succeeds := by
  rw [Afc.replyTo, wire_append]
  exact h _ _ (Request.word_packet _ _)

/-- The loop writes the chunks of the file. -/
theorem triple_pushLoop (h : AcceptsWrites answer) (handle : UInt64) {fuel : Nat}
    {file : SourceFile} (hfuel : file.unread.length < fuel) :
    Triple (fun state => Sent answer requests state.1 ∧ state.2 = file)
      (pushLoop handle fuel)
      (fun _ state => Sent answer
        (requests ++ (file.chunks fuel).map (writeRequest handle)) state.1)
      (fun _ _ => False) := by
  induction fuel generalizing file requests with
  | zero => omega
  | succ fuel ih =>
      rw [pushLoop, SourceFile.chunks]
      refine (triple_onFile file.run_fread).bind fun chunk => ?_
      refine Triple.ite (fun hempty => ?_) fun hnonempty => ?_
      · rintro state ⟨rfl, hsent, -⟩
        rw [if_pos hempty, List.map_nil, List.append_nil]
        exact hsent
      · refine Triple.of_state fun state hstate => ?_
        obtain ⟨rfl, hsent, hfile⟩ := hstate
        have hwrite := triple_onClient (triple_transact
          (h.replyTo requests handle file.next).checkAnswer) file.rest
        rw [if_neg hnonempty, List.map_cons, List.append_cons]
        refine Triple.bind (hwrite.at_state ⟨hsent, hfile⟩) fun packet => ?_
        refine (ih (SourceFile.length_rest hnonempty hfuel)).imp_pre ?_
        exact fun _ hpost => ⟨hpost.1.2, hpost.2⟩

/-- A push to a device that opens the file and accepts writes cannot fail: it sends an
open, one write for each chunk that is read of the local file, and a close. -/
theorem triple_push (h : AcceptsWrites answer) {handle : UInt64} {remote : Bytes}
    (hopen : (replyTo answer requests
      (openRequest remote kFopenWr)).Opens handle)
    {file : SourceFile} (hfile : file.opens = true) :
    Triple (fun state => Sent answer requests state.1 ∧ state.2 = file)
      (push remote)
      (fun _ state => Sent answer
        (requests ++ [openRequest remote kFopenWr] ++
          (file.chunks (file.unread.length + 1)).map (writeRequest handle) ++
          [closeRequest handle]) state.1)
      (fun _ _ => False) := by
  refine Triple.get_bind fun state hstate => ?_
  rw [hstate.2, if_pos hfile]
  have hopened := triple_onClient (triple_openFile hopen) file
  refine Triple.bind (hopened.at_state hstate) fun a => ?_
  have hloop := @triple_pushLoop answer
    (requests ++ [openRequest remote kFopenWr]) h handle _ file
    (Nat.lt_succ_self file.unread.length)
  refine Triple.of_state fun state hstate => ?_
  obtain ⟨⟨rfl, hsent⟩, hpart⟩ := hstate
  refine Triple.bind (hloop.outcome_ok.at_state ⟨hsent, hpart⟩)
    fun result => ?_
  refine Triple.of_state fun state hstate => ?_
  obtain ⟨⟨⟩, rfl, hsent⟩ := hstate
  refine Triple.bind ((triple_close a state.2).at_state ⟨hsent, rfl⟩)
    fun _ => ?_
  exact Triple.lift (fun _ _ _ hpost => hpost.1) fun _ herror => by cases herror

/-! ## Pulling -/

/-- How many of the packets are reads of a file. -/
def readsIn (history : List Bytes) : Nat :=
  history.countP fun packet => word packet 32 = kOpFileRead

/-- A device that answers the reads with these chunks, one after the other, and
then with a status of zero. -/
def ServesReads (answer : List Bytes → Reply) (chunks : List Bytes) : Prop :=
  ∀ history packet, word packet 32 = kOpFileRead →
    match chunks[readsIn history]? with
    | some chunk => (answer (history ++ [packet])).packet.Carries chunk
    | none => (answer (history ++ [packet])).packet.Succeeds

theorem readsIn_wire_append (requests : List Request) (request : Request) :
    readsIn (wire (requests ++ [request])) =
      readsIn (wire requests) +
        if request.operation = kOpFileRead then 1 else 0 := by
  rw [wire_append, readsIn, List.countP_append, List.countP_singleton]
  simp [Request.word_packet, readsIn]

/-- The file after it was opened. -/
def TargetFile.opened (file : TargetFile) : TargetFile :=
  { file with
    taken := []
    content := [] }

theorem TargetFile.run_fopen {file : TargetFile} (h : file.opens = true) :
    TargetFile.fopen.run file = (.ok true, file.opened) := by
  rw [TargetFile.fopen, run_bind_ok (run_get file), if_pos h,
    run_bind_ok (run_set _ file), run_pure, TargetFile.opened]

/-- The file after a write that takes everything. -/
def TargetFile.take (file : TargetFile) (data : Bytes) : TargetFile :=
  { file with
    taken := file.taken ++ data
    calls := file.calls + 1 }

theorem TargetFile.run_fwrite {file : TargetFile} {data : Bytes}
    (h : data.length ≤ file.writes file.calls) :
    (TargetFile.fwrite data).run file = (.ok data.length, file.take data) := by
  rw [TargetFile.fwrite, run_bind_ok (run_get file), Nat.min_eq_left h,
    run_bind_ok (run_set _ file), run_pure, List.take_length, TargetFile.take]

/-- The file after it was closed. -/
def TargetFile.closed (file : TargetFile) : TargetFile :=
  { file with content := file.taken.take (file.taken.length - file.lost) }

theorem TargetFile.run_fclose (file : TargetFile) :
    TargetFile.fclose.run file = (.ok (), file.closed) := rfl

/-- The calls of `std::fwrite` from this one on take all of these chunks. -/
def TakesAll (writes : Nat → Nat) : Nat → List Bytes → Prop
  | _, [] => True
  | call, chunk :: rest =>
      chunk.length ≤ writes call ∧ TakesAll writes (call + 1) rest

theorem takesAll_of_forall {writes : Nat → Nat} {chunks : List Bytes}
    (h : ∀ chunk ∈ chunks, ∀ i, chunk.length ≤ writes i) (call : Nat) :
    TakesAll writes call chunks := by
  induction chunks generalizing call with
  | nil => trivial
  | cons chunk rest ih =>
      exact ⟨h chunk (by simp) call,
        ih (fun other hmem => h other (List.mem_cons_of_mem _ hmem)) (call + 1)⟩

section Pull

variable {chunks : List Bytes}

/-- The answer to the next read. -/
theorem ServesReads.next (h : ServesReads answer chunks) {done rest : List Bytes}
    (hchunks : chunks = done ++ rest)
    (hcount : readsIn (wire requests) = done.length) (handle : UInt64) :
    match rest with
    | chunk :: _ => (replyTo answer requests (readRequest handle)).Carries chunk
    | [] => (replyTo answer requests (readRequest handle)).Succeeds := by
  have hserve := h (wire requests)
    ((readRequest handle).packet (UInt64.ofNat (requests.length + 1)))
    (Request.word_packet _ _)
  rw [hcount, ← wire_append] at hserve
  subst hchunks
  cases rest with
  | nil => simpa [replyTo] using hserve
  | cons chunk rest => simpa [replyTo] using hserve

/-- The loop reads the chunks and the end of the file. -/
theorem triple_pullLoop (h : ServesReads answer chunks) (handle : UInt64)
    {done rest : List Bytes} {fuel : Nat} {file : TargetFile}
    (hchunks : chunks = done ++ rest)
    (hcount : readsIn (wire requests) = done.length)
    (hrest : ∀ chunk ∈ rest, chunk ≠ [])
    (htakes : TakesAll file.writes file.calls rest)
    (hfuel : rest.length < fuel) :
    Triple (fun state => Sent answer requests state.1 ∧ state.2 = file)
      (pullLoop handle fuel)
      (fun _ state => Sent answer
          (requests ++ List.replicate (rest.length + 1) (readRequest handle))
          state.1 ∧
        state.2 = rest.foldl TargetFile.take file)
      (fun _ _ => False) := by
  induction rest generalizing requests done fuel file with
  | nil =>
      obtain ⟨fuel, rfl⟩ := Nat.exists_eq_add_one_of_ne_zero
        (Nat.ne_zero_of_lt hfuel)
      have hend := h.next hchunks hcount handle
      have hread := triple_onClient (@triple_transact answer requests
        (readRequest handle) _ hend.checkAnswer) file
      rw [pullLoop]
      refine hread.bind fun packet => Triple.of_state fun state hstate => ?_
      obtain ⟨⟨rfl, hsent⟩, hfile⟩ := hstate
      rw [if_pos (.inl hend.1)]
      exact Triple.pure fun _ heq => heq ▸ ⟨hsent, hfile⟩
  | cons chunk rest ih =>
      obtain ⟨fuel, rfl⟩ := Nat.exists_eq_add_one_of_ne_zero
        (Nat.ne_zero_of_lt hfuel)
      have hdata := h.next hchunks hcount handle
      have hnonempty := hrest chunk (by simp)
      obtain ⟨hwrites, htakes⟩ := htakes
      have hread := triple_onClient (@triple_transact answer requests
        (readRequest handle) _ (checkAnswer_of_operation (.inl hdata.1))) file
      rw [pullLoop]
      refine hread.bind fun packet => Triple.of_state fun state hstate => ?_
      obtain ⟨⟨rfl, hsent⟩, hfile⟩ := hstate
      have hgoes : ¬ ((replyTo answer requests (readRequest handle)).operation =
          kOpStatus ∨ (replyTo answer requests (readRequest handle)).data = []) := by
        rw [hdata.1, hdata.2]
        exact not_or.mpr ⟨by decide, hnonempty⟩
      have hwrite := TargetFile.run_fwrite hwrites
      rw [if_neg hgoes, hdata.2]
      refine Triple.bind ((triple_onFile hwrite).at_state ⟨hsent, hfile⟩)
        fun count => Triple.of_state fun state hstate => ?_
      obtain ⟨rfl, hsent, hfile⟩ := hstate
      rw [if_neg (not_not.mpr rfl)]
      have hcount' : readsIn (wire (requests ++ [readRequest handle])) =
          (done ++ [chunk]).length := by
        rw [readsIn_wire_append, hcount, List.length_append]
        rfl
      have hloop := @ih (requests ++ [readRequest handle]) (done ++ [chunk]) fuel
        (file.take chunk) (by rw [hchunks, List.append_cons]) hcount'
        (fun other hmem => hrest other (List.mem_cons_of_mem _ hmem)) htakes
        (Nat.lt_of_succ_lt_succ hfuel)
      rw [List.length_cons, List.replicate_succ, List.append_cons]
      exact hloop.at_state ⟨hsent, hfile⟩

theorem TargetFile.foldl_take (chunks : List Bytes) (file : TargetFile) :
    (chunks.foldl TargetFile.take file).taken = file.taken ++ chunks.flatten ∧
      (chunks.foldl TargetFile.take file).lost = file.lost := by
  induction chunks generalizing file with
  | nil => exact ⟨(List.append_nil _).symm, rfl⟩
  | cons chunk rest ih =>
      obtain ⟨htaken, hlost⟩ := ih (file.take chunk)
      rw [List.foldl_cons, htaken, hlost, List.flatten_cons, TargetFile.take,
        List.append_assoc]
      exact ⟨rfl, rfl⟩

/-- A pull sends an open, a read for each chunk and one for the end, and a close.
The local file holds the chunks, but for what is lost when it is closed. -/
theorem triple_pull (h : ServesReads answer chunks) {handle : UInt64}
    {remote : Bytes} (hcount : readsIn (wire requests) = 0)
    (hopen : (replyTo answer requests
      (openRequest remote kFopenRdonly)).Opens handle)
    {file : TargetFile} (hfile : file.opens = true)
    (hchunks : ∀ chunk ∈ chunks, chunk ≠ [])
    (htakes : TakesAll file.writes file.calls chunks) {turns : Nat}
    (hturns : chunks.length < turns) :
    Triple (fun state => Sent answer requests state.1 ∧ state.2 = file)
      (pull turns remote)
      (fun _ state => Sent answer
          (requests ++ [openRequest remote kFopenRdonly] ++
            List.replicate (chunks.length + 1) (readRequest handle) ++
            [closeRequest handle]) state.1 ∧
        state.2.taken = chunks.flatten ∧
        state.2.content =
          chunks.flatten.take (chunks.flatten.length - file.lost))
      (fun _ _ => False) := by
  have hopened := triple_onClient (triple_openFile hopen) file
  refine hopened.bind fun a => Triple.of_state fun state hstate => ?_
  obtain ⟨⟨rfl, hsent⟩, hpart⟩ := hstate
  refine Triple.bind ((triple_onFile (TargetFile.run_fopen hfile)).at_state
    ⟨hsent, hpart⟩) fun opened => Triple.of_state fun state hstate => ?_
  obtain ⟨rfl, hsent, hpart⟩ := hstate
  rw [if_pos rfl]
  have hcount' : readsIn (wire (requests ++ [openRequest remote kFopenRdonly])) =
      ([] : List Bytes).length := by
    rw [readsIn_wire_append, hcount]
    rfl
  have hloop := @triple_pullLoop answer _ chunks h a [] chunks turns file.opened
    rfl hcount' hchunks htakes hturns
  refine Triple.bind (hloop.outcome_ok.at_state ⟨hsent, hpart⟩)
    fun result => Triple.of_state fun state hstate => ?_
  obtain ⟨⟨⟩, rfl, hsent, hpart⟩ := hstate
  refine Triple.bind ((triple_onFile (TargetFile.run_fclose _)).at_state
    ⟨hsent, hpart⟩) fun _ => Triple.of_state fun state hstate => ?_
  obtain ⟨-, hsent, hpart⟩ := hstate
  refine Triple.bind ((triple_close a _).at_state ⟨hsent, hpart⟩) fun _ => ?_
  refine Triple.lift (fun _ _ state hpost => ⟨hpost.1, ?_⟩)
    fun _ herror => by cases herror
  obtain ⟨htaken, hlost⟩ := TargetFile.foldl_take chunks file.opened
  rw [hpost.2, TargetFile.closed, htaken, hlost]
  exact ⟨rfl, rfl⟩

end Pull

/-! ## A device with one file -/

/-- A device that takes what it is sent and has one file, of one byte. -/
def storing (history : List Bytes) : Reply :=
  let operation := word (history.getLast?.getD []) 32
  if operation = kOpFileOpen then
    .whole kOpFileOpenRes (putLe64 7) (by decide)
  else if operation = kOpFileRead ∧ readsIn history.dropLast = 0 then
    .whole kOpData [0x61] (by decide)
  else .whole kOpStatus (putLe64 0) (by decide)

theorem storing_opens (path : Bytes) (mode : UInt64) :
    (replyTo storing [] (openRequest path mode)).Opens 7 := by
  have hoperation : word (((wire ([] ++ [openRequest path mode])).getLast?).getD
      []) 32 = kOpFileOpen := by
    rw [wire_append, List.getLast?_concat, Option.getD_some,
      Request.word_packet, openRequest]
  rw [replyTo, storing, hoperation, if_pos rfl]
  exact ⟨rfl, by decide, by decide⟩

theorem acceptsWrites_storing : AcceptsWrites storing := by
  intro history packet hpacket
  rw [storing, List.getLast?_concat, Option.getD_some, hpacket,
    if_neg (by decide), if_neg (fun h => absurd h.1 (by decide))]
  exact ⟨rfl, by decide, by decide⟩

theorem servesReads_storing : ServesReads storing [[0x61]] := by
  intro history packet hpacket
  rw [storing, List.getLast?_concat, Option.getD_some, hpacket,
    if_neg (by decide), List.dropLast_concat]
  rcases hreads : readsIn history with _ | count
  · rw [if_pos ⟨rfl, rfl⟩]
    exact ⟨rfl, rfl⟩
  · rw [if_neg (fun h => absurd h.2 (Nat.succ_ne_zero count))]
    exact ⟨rfl, by decide, by decide⟩

/-! ## Faithful transfers -/

/-- On a new client, to a device that opens the file and accepts writes, a push
sends the file in packets that the device takes; from a device that opens the
file and serves chunks of it, a pull writes the chunks to the local file.  Each
sends one close at the end, and the packets are numbered from one. -/
theorem transfers_faithful (answer : List Bytes → Reply) (handle : UInt64)
    (remote : Bytes) :
    (∀ file : SourceFile, file.opens = true → (∀ i, 0 < file.reads i) →
      (replyTo answer [] (openRequest remote kFopenWr)).Opens handle →
      AcceptsWrites answer →
      ∃ (chunks : List Bytes) (state : (AfcLink × Afc) × SourceFile),
        (push remote).run (connected answer, file) = (.ok (), state) ∧
          state.1.1.sent = wire ([openRequest remote kFopenWr] ++
            chunks.map (writeRequest handle) ++ [closeRequest handle]) ∧
          chunks.flatten = file.unread ∧
          ∀ chunk ∈ chunks, ∀ number,
            ((writeRequest handle chunk).packet number).length ≤ 65535) ∧
    (∀ (file : TargetFile) (chunks : List Bytes) (turns : Nat),
      file.opens = true →
      (∀ chunk ∈ chunks, chunk ≠ [] ∧ ∀ i, chunk.length ≤ file.writes i) →
      file.lost = 0 → chunks.length < turns →
      (replyTo answer [] (openRequest remote kFopenRdonly)).Opens handle →
      ServesReads answer chunks →
      ∃ state : (AfcLink × Afc) × TargetFile,
        (pull turns remote).run (connected answer, file) = (.ok (), state) ∧
          state.2.content = chunks.flatten ∧
          state.1.1.sent = wire ([openRequest remote kFopenRdonly] ++
            List.replicate (chunks.length + 1) (readRequest handle) ++
            [closeRequest handle])) := by
  refine ⟨?_, ?_⟩
  · intro file hfile hreads hopen hwrites
    have hstart : Sent answer [] (connected answer, file).1 ∧
        (connected answer, file).2 = file := ⟨sent_connected answer, rfl⟩
    obtain ⟨⟨⟩, state, hrun, hsent⟩ :=
      (triple_push hwrites hopen hfile).exists_ok hstart
    refine ⟨file.chunks (file.unread.length + 1), state, hrun, hsent.sent,
      SourceFile.flatten_chunks hreads (Nat.lt_succ_self _), ?_⟩
    intro chunk hmem number
    have hchunk := SourceFile.length_chunks_le _ file chunk hmem
    have hsize : kHeaderSize = 40 := rfl
    have hchunkSize : kChunkSize = 32768 := rfl
    rw [Request.length_packet, writeRequest, length_putLe64]
    dsimp only
    omega
  · intro file chunks turns hfile hchunks hlost hturns hopen hserves
    have hstart : Sent answer [] (connected answer, file).1 ∧
        (connected answer, file).2 = file := ⟨sent_connected answer, rfl⟩
    obtain ⟨⟨⟩, state, hrun, hsent, -, hcontent⟩ :=
      (triple_pull hserves rfl hopen hfile (fun chunk hmem => (hchunks chunk
        hmem).1) (takesAll_of_forall (fun chunk hmem => (hchunks chunk hmem).2)
        _) hturns).exists_ok hstart
    refine ⟨state, hrun, ?_, hsent.sent⟩
    rw [hcontent, hlost, Nat.sub_zero, List.take_length]

theorem transfers_faithful_storing :
    (∃ (chunks : List Bytes) (state : (AfcLink × Afc) × SourceFile),
      (push [0x66]).run (connected storing,
          { unread := [1, 2, 3], reads := fun _ => 2 }) = (.ok (), state) ∧
        state.1.1.sent = wire ([openRequest [0x66] kFopenWr] ++
          chunks.map (writeRequest 7) ++ [closeRequest 7]) ∧
        chunks.flatten = [1, 2, 3] ∧
        ∀ chunk ∈ chunks, ∀ number,
          ((writeRequest 7 chunk).packet number).length ≤ 65535) ∧
    ∃ state : (AfcLink × Afc) × TargetFile,
      (pull 2 [0x66]).run (connected storing, { writes := fun _ => 9 }) =
          (.ok (), state) ∧
        state.2.content = [0x61] ∧
        state.1.1.sent = wire ([openRequest [0x66] kFopenRdonly] ++
          List.replicate 2 (readRequest 7) ++ [closeRequest 7]) := by
  obtain ⟨hpush, hpull⟩ := transfers_faithful storing 7 [0x66]
  exact ⟨hpush { unread := [1, 2, 3], reads := fun _ => 2 } rfl
      (fun _ => Nat.succ_pos 1) (storing_opens _ _) acceptsWrites_storing,
    hpull { writes := fun _ => 9 } [[0x61]] 2 rfl (by simp) rfl (by decide)
      (storing_opens _ _) servesReads_storing⟩

end Ioscpp.Afc
