import Ioscpp.AfcFileStore
import Ioscpp.Support.DecimalDigits

/-!
# Requests to a file service

What the file service makes of each request of the client, and the calls that are
one request: on the device they change the store, or are refused, as the same
change of the store is.

## Main results

- `Stores.request`: a request that changes the store, or is refused with a status.
- `parseTokens_statTokens`: the metadata of a node are read back from its tokens.
-/

namespace Ioscpp.Afc

open Ioscpp.Support
open Ioscpp.Support.Action

/-! ## What the device reads -/

/-- A path as the C library takes one. -/
structure IsPath (path : Bytes) : Prop where
  noNul : 0 ∉ path
  length : path.length < 2 ^ 62

theorem takePath_append {path : Bytes} (h : 0 ∉ path) (rest : Bytes) :
    FileServer.takePath (path ++ 0 :: rest) = (path, rest) := by
  have hall : ∀ byte ∈ path, (decide (byte ≠ 0)) = true := by
    intro byte hmem
    rw [decide_eq_true_eq]
    exact fun hzero => h (hzero ▸ hmem)
  have htake : (path ++ 0 :: rest).takeWhile (· ≠ 0) = path := by
    rw [List.takeWhile_append_of_pos hall]
    simp
  have hdrop : (path ++ 0 :: rest).dropWhile (· ≠ 0) = 0 :: rest := by
    rw [List.dropWhile_append_of_pos hall]
    simp
  rw [FileServer.takePath, htake, hdrop]
  rfl

theorem word_putLe64 (value : UInt64) (rest : Bytes) :
    word (putLe64 value ++ rest) 0 = value := by
  have hword := @word_eq value.toNat 0 (putLe64 value ++ rest) [] rest rfl rfl
  rw [hword, UInt64.ofNat_toNat]

section Requests

variable (server : FileServer) {path : Bytes}

theorem fileDevice_open (mode : UInt64) (h : 0 ∉ path) :
    fileDevice server (openRequest path mode) = server.openFile mode path := by
  have hextra : (openRequest path mode).extra = putLe64 mode ++ (path ++ [0]) := by
    rw [openRequest, appendPath, List.append_assoc]
  have hpath : FileServer.takePath
      ((putLe64 mode ++ (path ++ [0])).drop 8) = (path, []) := by
    rw [List.drop_left' (length_putLe64 mode), takePath_append h]
  generalize hrequest : openRequest path mode = request at hextra
  have hoperation : request.operation = kOpFileOpen := by rw [← hrequest]; rfl
  rw [fileDevice, if_pos hoperation, hextra, word_putLe64, hpath]

/-- What the device does with a request of each other kind. -/
theorem fileDevice_of_handle {request : Request} {handle : UInt64} {rest : Bytes}
    (hextra : request.extra = putLe64 handle ++ rest) :
    (request.operation = kOpFileRead → fileDevice server request =
        server.readFile handle (word request.extra 8).toNat) ∧
      (request.operation = kOpFileWrite → fileDevice server request =
        server.writeFile handle request.payload) ∧
      (request.operation = kOpFileClose → fileDevice server request =
        server.closeFile handle) := by
  have hhandle : word request.extra 0 = handle := by rw [hextra, word_putLe64]
  refine ⟨fun h => ?_, fun h => ?_, fun h => ?_⟩
  · rw [fileDevice, h, if_neg (by decide), if_pos rfl, hhandle]
  · rw [fileDevice, h, if_neg (by decide), if_neg (by decide), if_pos rfl, hhandle]
  · rw [fileDevice, h, if_neg (by decide), if_neg (by decide), if_neg (by decide),
      if_pos rfl, hhandle]

theorem fileDevice_read (handle : UInt64) :
    fileDevice server (readRequest handle) = server.readFile handle kChunkSize := by
  have hcount : word (readRequest handle).extra 8 = UInt64.ofNat kChunkSize := by
    have hword := @word_eq (UInt64.ofNat kChunkSize).toNat 8 (readRequest handle).extra
      (putLe64 handle) [] (by rw [List.append_nil]; rfl) (length_putLe64 handle)
    rw [hword, UInt64.ofNat_toNat]
  have hchunk : (UInt64.ofNat kChunkSize).toNat = kChunkSize := by decide
  rw [(@fileDevice_of_handle server (readRequest handle) handle _ rfl).1 rfl, hcount,
    hchunk]

theorem fileDevice_write (handle : UInt64) (chunk : Bytes) :
    fileDevice server (writeRequest handle chunk) =
      server.writeFile handle chunk :=
  (@fileDevice_of_handle server (writeRequest handle chunk) handle []
    (List.append_nil _).symm).2.1 rfl

theorem fileDevice_close (handle : UInt64) :
    fileDevice server (closeRequest handle) = server.closeFile handle :=
  (@fileDevice_of_handle server (closeRequest handle) handle []
    (List.append_nil _).symm).2.2 rfl

theorem fileDevice_path {request : Request} {rest : Bytes} (h : 0 ∉ path)
    (hextra : request.extra = path ++ 0 :: rest) :
    (request.operation = kOpRemovePath → fileDevice server request =
        server.changed kNotFound (server.store.remove path)) ∧
      (request.operation = kOpMakeDir → fileDevice server request =
        server.changed kExists (server.store.makeDirectory path)) ∧
      (request.operation = kOpRenamePath → fileDevice server request =
        server.changed kNotFound
          (server.store.rename path (FileServer.takePath rest).1)) ∧
      (request.operation = kOpGetFileInfo → fileDevice server request =
        (server.fileInfo path, server)) := by
  have hpaths : FileServer.takePath request.extra = (path, rest) := by
    rw [hextra, takePath_append h]
  refine ⟨fun h => ?_, fun h => ?_, fun h => ?_, fun h => ?_⟩
  · rw [fileDevice, hpaths, h, if_neg (by decide), if_neg (by decide),
      if_neg (by decide), if_neg (by decide), if_pos rfl]
  · rw [fileDevice, hpaths, h, if_neg (by decide), if_neg (by decide),
      if_neg (by decide), if_neg (by decide), if_neg (by decide), if_pos rfl]
  · rw [fileDevice, hpaths, h, if_neg (by decide), if_neg (by decide),
      if_neg (by decide), if_neg (by decide), if_neg (by decide), if_neg (by decide),
      if_pos rfl]
  · rw [fileDevice, hpaths, h, if_neg (by decide), if_neg (by decide),
      if_neg (by decide), if_neg (by decide), if_neg (by decide), if_neg (by decide),
      if_neg (by decide), if_pos rfl]

end Requests

/-! ## One exchange -/

theorem checkAnswer_status (code : UInt64) :
    checkAnswer (Reply.status code).packet =
      if code = 0 then .ok (Reply.status code).packet else refusal code := by
  have hlength : (putLe64 code).length = 8 := length_putLe64 code
  have hword : word (putLe64 code) 0 = code := by
    have hword := word_putLe64 code []
    rwa [List.append_nil] at hword
  have hget : (getLe64 (putLe64 code) 0 : Checked Error UInt64) = .ok code := by
    rw [getLe64_eq (by omega), hword]
  have hpacket : (Reply.status code).packet = ⟨kOpStatus, putLe64 code⟩ := rfl
  rw [hpacket, checkAnswer, if_pos rfl, if_neg (by dsimp only; omega), hget, ok_bind]
  by_cases hcode : code = 0
  · rw [if_neg (not_not.mpr hcode), if_pos hcode]
    rfl
  · rw [if_pos hcode, if_neg hcode]
    rfl

theorem packet_carrying {chunk : Bytes} (h : chunk.length ≤ kLongestData) :
    (Reply.carrying chunk).packet = ⟨kOpData, chunk⟩ :=
  congrArg (Packet.mk kOpData) (List.take_of_length_le h)

/-- The client of a device that has this store, and no file open: all the requests it
sent are answered, and nothing is left unread. -/
def Stores (start : FileServer) (store : Store) (client : AfcLink × Afc) : Prop :=
  ∃ nextHandle, Serves fileDevice start ⟨store, [], nextHandle⟩ client

section Exchanges

variable {start : FileServer} {store : Store} {client : AfcLink × Afc}

/-- A request that changes the store, or is refused with a status. The client's result
is the store's, and the device has the store that the change leaves. -/
theorem Stores.request (h : Stores start store client) {request : Request}
    (hfits : request.Fits) (hpayload : request.payload = []) {code : UInt64}
    (hcode : code ≠ 0) {outcome : Result Unit × Store}
    (hdevice : ∀ nextHandle, fileDevice ⟨store, [], nextHandle⟩ request =
      FileServer.changed ⟨store, [], nextHandle⟩ code outcome)
    (houtcome : outcome.1 = .ok () ∨ outcome = (refusal code, store)) :
    ∃ next, (Afc.request request.operation request.extra).run client =
        (outcome.1, next) ∧ Stores start outcome.2 next := by
  obtain ⟨nextHandle, hserves⟩ := h
  obtain ⟨next, hrun, hnext⟩ := hserves.transact hfits
  rw [hpayload, hdevice] at hrun
  rw [hdevice] at hnext
  obtain ⟨result, changed⟩ := outcome
  rcases houtcome with rfl | houtcome
  · rw [FileServer.changed, checkAnswer_status, if_pos rfl] at hrun
    exact ⟨next, by rw [Afc.request, run_bind_ok hrun]; rfl, nextHandle, hnext⟩
  · obtain ⟨rfl, rfl⟩ := Prod.mk.inj houtcome
    rw [refusal, FileServer.changed, checkAnswer_status, if_neg hcode] at hrun
    exact ⟨next, by rw [Afc.request, run_bind_error hrun]; rfl, nextHandle, hnext⟩

theorem fits_path {path : Bytes} (h : IsPath path) (operation : UInt64) :
    (⟨operation, appendPath [] path, []⟩ : Request).Fits := by
  have hlength := h.length
  simp only [Request.Fits, appendPath, List.length_append, List.length_cons,
    List.length_nil, kHeaderSize]
  omega

theorem run_remove (h : Stores start store client) {path : Bytes}
    (hpath : IsPath path) :
    ∃ next, (Afc.remove path).run client = ((store.remove path).1, next) ∧
      Stores start (store.remove path).2 next := by
  refine @Stores.request _ _ _ h ⟨kOpRemovePath, appendPath [] path, []⟩
    (fits_path hpath _) rfl kNotFound (by decide) (store.remove path)
    (fun nextHandle => (@fileDevice_path ⟨store, [], nextHandle⟩ path
      ⟨kOpRemovePath, appendPath [] path, []⟩ [] hpath.noNul rfl).1 rfl) ?_
  rw [Store.remove]
  split
  · exact .inr rfl
  · exact .inl rfl

theorem run_makeDirectory (h : Stores start store client) {path : Bytes}
    (hpath : IsPath path) :
    ∃ next, (Afc.makeDirectory path).run client =
        ((store.makeDirectory path).1, next) ∧
      Stores start (store.makeDirectory path).2 next := by
  refine @Stores.request _ _ _ h ⟨kOpMakeDir, appendPath [] path, []⟩
    (fits_path hpath _) rfl kExists (by decide) (store.makeDirectory path)
    (fun nextHandle => (@fileDevice_path ⟨store, [], nextHandle⟩ path
      ⟨kOpMakeDir, appendPath [] path, []⟩ [] hpath.noNul rfl).2.1 rfl) ?_
  rw [Store.makeDirectory]
  split
  · exact .inl rfl
  · exact .inl rfl
  · exact .inr rfl

theorem run_rename (h : Stores start store client) {source target : Bytes}
    (hsource : IsPath source) (htarget : IsPath target) :
    ∃ next, (Afc.rename source target).run client =
        ((store.rename source target).1, next) ∧
      Stores start (store.rename source target).2 next := by
  have hextra : appendPath (appendPath [] source) target =
      source ++ 0 :: (target ++ [0]) := by simp [appendPath]
  refine @Stores.request _ _ _ h
    ⟨kOpRenamePath, appendPath (appendPath [] source) target, []⟩ ?_ rfl kNotFound
    (by decide) (store.rename source target) (fun nextHandle => ?_) ?_
  · have hlength := hsource.length
    have hlength' := htarget.length
    rw [hextra, Request.Fits]
    simp only [List.length_append, List.length_cons, List.length_nil, kHeaderSize]
    omega
  · rw [(@fileDevice_path ⟨store, [], nextHandle⟩ source
      ⟨kOpRenamePath, appendPath (appendPath [] source) target, []⟩ (target ++ [0])
      hsource.noNul hextra).2.2.1 rfl, takePath_append htarget.noNul]
  · rw [Store.rename]
    split
    · exact .inr rfl
    · exact .inl rfl

/-! ### Metadata -/

theorem isName_decimal (value : Nat) : IsName (decimal value) where
  nonempty := decimal_ne_nil value
  noNul := fun hmem => by
    have hdigit := isDigit_of_mem_decimal 0 hmem
    revert hdigit
    decide

theorem isName_statTokens (node : Node) :
    ∀ token ∈ FileServer.statTokens node, IsName token := by
  have hname (text : String) (h : ascii text ≠ [] ∧ 0 ∉ ascii text) :
      IsName (ascii text) := ⟨h.1, h.2⟩
  have hsize := hname "st_size" (by decide +kernel)
  have hifmt := hname "st_ifmt" (by decide +kernel)
  cases node with
  | file content =>
      simp only [FileServer.statTokens, List.forall_mem_cons]
      exact ⟨hsize, isName_decimal _, hifmt, hname _ (by decide +kernel), by simp⟩
  | directory =>
      simp only [FileServer.statTokens, List.forall_mem_cons]
      exact ⟨hsize, isName_decimal _, hifmt, hname _ (by decide +kernel), by simp⟩

theorem length_statTokens (node : Node) :
    (listing (FileServer.statTokens node)).length ≤ kLongestData := by
  have hdigits (value : Nat) (h : value < 10 ^ 20) :
      (decimal value).length ≤ 20 := (length_decimal_le (by decide)).mpr h
  have hmax : kLongestData = 65495 := rfl
  have hsize : (ascii "st_size").length = 7 := by decide +kernel
  have hifmt : (ascii "st_ifmt").length = 7 := by decide +kernel
  have hreg : (ascii "S_IFREG").length = 7 := by decide +kernel
  have hdir : (ascii "S_IFDIR").length = 7 := by decide +kernel
  cases node with
  | file content =>
      have hlength := hdigits (min content.length (2 ^ 64 - 1)) (by omega)
      simp only [FileServer.statTokens, listing, List.flatMap_cons, List.flatMap_nil,
        List.length_append, List.length_cons, List.length_nil]
      omega
  | directory =>
      have hlength := hdigits 0 (by decide)
      simp only [FileServer.statTokens, listing, List.flatMap_cons, List.flatMap_nil,
        List.length_append, List.length_cons, List.length_nil]
      omega

/-- The metadata of a node, written as keys and values, are read back as what the store
says of the node. -/
theorem parseTokens_statTokens {path : Bytes} {node : Node}
    (h : store path = some node) :
    some (parseTokens (FileServer.statTokens node) {}) = store.stat path := by
  rw [Store.stat, h, Option.map_some]
  have hsize (value : Nat) (hvalue : value < 2 ^ 64) (info : FileStat) :
      info.store (ascii "st_size") (decimal value) =
        { info with size := UInt64.ofNat value } := by
    rw [FileStat.store, if_neg (by decide +kernel), if_pos rfl,
      strtoull_decimal hvalue]
  have hifmt (text : Bytes) (info : FileStat) (hmode : info.mode = 0) :
      info.store (ascii "st_ifmt") text = { info with mode := modeFromIfmt text } := by
    rw [FileStat.store, if_neg (by decide +kernel), if_neg (by decide +kernel),
      if_neg (by decide +kernel), if_pos ⟨rfl, hmode⟩]
  cases node with
  | file content =>
      rw [FileServer.statTokens, parseTokens, parseTokens, parseTokens,
        hsize _ (by omega), hifmt _ _ rfl]
      · rfl
      · simp
  | directory =>
      rw [FileServer.statTokens, parseTokens, parseTokens, parseTokens,
        hsize _ (by decide), hifmt _ _ rfl]
      · rfl
      · simp

theorem run_stat (h : Stores start store client) {path : Bytes}
    (hpath : IsPath path) :
    ∃ next, (Afc.stat path).run client = (.ok (store.stat path), next) ∧
      Stores start store next := by
  obtain ⟨nextHandle, hserves⟩ := h
  have hdevice := (@fileDevice_path ⟨store, [], nextHandle⟩ path
    ⟨kOpGetFileInfo, appendPath [] path, []⟩ [] hpath.noNul rfl).2.2.2 rfl
  obtain ⟨next, hrun, hnext⟩ := hserves.transact (fits_path hpath kOpGetFileInfo)
  rw [hdevice] at hrun hnext
  refine ⟨next, ?_, nextHandle, hnext⟩
  rw [FileServer.fileInfo] at hrun
  cases hnode : store path with
  | none =>
      dsimp only at hrun
      rw [hnode] at hrun
      dsimp only at hrun
      rw [checkAnswer_status, if_neg (by decide)] at hrun
      rw [Afc.stat, run_bind_ok (run_outcome_error hrun), Store.stat, hnode]
      rfl
  | some node =>
      dsimp only at hrun
      rw [hnode] at hrun
      dsimp only at hrun
      rw [packet_carrying (length_statTokens node),
        checkAnswer_of_operation (.inl rfl)] at hrun
      rw [Afc.stat, run_bind_ok (run_outcome_ok hrun)]
      dsimp only
      rw [tokens_listing (isName_statTokens node), parseTokens_statTokens hnode]
      rfl

end Exchanges

end Ioscpp.Afc
