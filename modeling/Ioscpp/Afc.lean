import Ioscpp.ByteStream
import Ioscpp.Support.Text

/-!
# The AFC client

`AFC` is the file service: a request is one packet, and the device answers it
with one packet that echoes its number.  `transact` is that exchange, and every
operation of the client is made of exchanges.  `pull` and `push` also work on a
local file, whose calls can fail; `SourceFile` and `TargetFile` are the files of
the C library with the outcomes that their calls have.
-/

namespace Ioscpp

open Ioscpp.Support

/-- The client: the number of the last request, which `send` counts up before it writes
a packet, so the first has number 1. -/
structure Afc where
  packetNum : UInt64 := 0
  deriving DecidableEq, Repr

namespace Afc

/-! ## Packets -/

def kOpStatus : UInt64 := 0x01
def kOpData : UInt64 := 0x02
def kOpReadDir : UInt64 := 0x03
def kOpRemovePath : UInt64 := 0x08
def kOpMakeDir : UInt64 := 0x09
def kOpGetFileInfo : UInt64 := 0x0A
def kOpFileOpen : UInt64 := 0x0D
def kOpFileOpenRes : UInt64 := 0x0E
def kOpFileRead : UInt64 := 0x0F
def kOpFileWrite : UInt64 := 0x10
def kOpFileClose : UInt64 := 0x14
def kOpRenamePath : UInt64 := 0x18

def kFopenRdonly : UInt64 := 0x01
def kFopenWr : UInt64 := 0x04

def kHeaderSize : Nat := 40

/-- The chunk of a transfer, well under the device's limit on a message. -/
def kChunkSize : Nat := 32 * 1024

def kMagic : Bytes := ascii "CFA6LPAA"

def deviceError (message : Bytes) : Error := ⟨.device, message⟩

/-- The bytes that `put_le64` stores. -/
def putLe64 (value : UInt64) : Bytes := leBytes 8 value.toNat

def getLe64 {ε : Type} (bytes : Bytes) (offset : Nat) : Checked ε UInt64 := do
  let value ← readLe bytes offset 8
  return UInt64.ofNat value

/-- `path` and its NUL terminator. -/
def appendPath (out path : Bytes) : Bytes := out ++ path ++ [0]

structure Packet where
  operation : UInt64 := 0
  data : Bytes := []
  deriving DecidableEq, Repr

/-- The packet that `send` writes. -/
def requestPacket (number operation : UInt64) (extra payload : Bytes) : Bytes :=
  kMagic ++ putLe64 (UInt64.ofNat (kHeaderSize + extra.length + payload.length)) ++
    putLe64 (UInt64.ofNat (kHeaderSize + extra.length)) ++ putLe64 number ++
    putLe64 operation ++ extra ++ payload

/-- `std::vector::resize`, which throws on a size that no vector has.  That there
is memory for a smaller one is taken for granted. -/
def resize {ε : Type} (size : Nat) : Checked ε Unit :=
  if 2 ^ 63 - 1 < size then .error .exception else .ok ()

/-- The checks of a reply's header: the operation, and the size of what
follows. -/
def parseHeader (packetNum : UInt64) (header : Bytes) :
    Result (UInt64 × Nat) :=
  if header.take 8 ≠ kMagic then
    .error (.error (protocolError "the AFC magic does not match"))
  else do
    let entireLength ← getLe64 header 8
    let thisLength ← getLe64 header 16
    let packetNumber ← getLe64 header 24
    if entireLength.toNat < kHeaderSize ∨ thisLength.toNat < kHeaderSize ∨
        entireLength < thisLength then
      .error (.error (protocolError "the AFC packet length is out of range"))
    else if packetNumber ≠ packetNum then
      .error (.error (protocolError "the AFC packet number does not match"))
    else do
      let operation ← getLe64 header 32
      return (operation, entireLength.toNat - kHeaderSize)

/-- What `transact` makes of an answer. -/
def checkAnswer (answer : Packet) : Result Packet :=
  if answer.operation = kOpStatus then
    if answer.data.length < 8 then
      .error (.error (protocolError "the AFC status is too short"))
    else do
      let code ← getLe64 answer.data 0
      if code ≠ 0 then
        .error (.error (deviceError
          (ascii "the device reported AFC error " ++ decimal code.toNat)))
      else return answer
  else if answer.operation ≠ kOpData ∧ answer.operation ≠ kOpFileOpenRes then
    .error (.error (protocolError
      "the device sent an unexpected AFC operation"))
  else return answer

section Exchange

variable {σ : Type} [ByteStream σ]

/-- An operation of the stream. -/
def onStream {α : Type} (x : Action Error σ α) : Action Error (σ × Afc) α :=
  Action.zoom Prod.fst (fun state stream => (stream, state.2)) x

def send (operation : UInt64) (extra payload : Bytes) :
    Action Error (σ × Afc) Unit := do
  modify fun state =>
    (state.1, { state.2 with packetNum := state.2.packetNum + 1 })
  let state ← get
  onStream (ByteStream.write
    (requestPacket state.2.packetNum operation extra payload))

def receive : Action Error (σ × Afc) Packet := do
  let header ← onStream (ByteStream.readExact kHeaderSize)
  let state ← get
  let fields ← Action.lift (parseHeader state.2.packetNum header)
  Action.lift (resize fields.2)
  let data ← onStream (ByteStream.readExact fields.2)
  return ⟨fields.1, data⟩

def transact (operation : UInt64) (extra payload : Bytes) :
    Action Error (σ × Afc) Packet := do
  send operation extra payload
  let answer ← receive
  Action.lift (checkAnswer answer)

end Exchange

/-! ## Metadata -/

/-- A file's metadata. -/
structure FileStat where
  mode : UInt32 := 0
  size : UInt64 := 0
  mtime : Int64 := 0
  deriving DecidableEq, Repr

/-- A directory entry: a name, and the metadata that may follow it. -/
structure DirEntry extends FileStat where
  name : Bytes := []
  deriving DecidableEq, Repr

/-- The `st_mode` for an `st_ifmt` string. -/
def modeFromIfmt (ifmt : Bytes) : UInt32 :=
  if ifmt = ascii "S_IFDIR" then 0o40000
  else if ifmt = ascii "S_IFLNK" then 0o120000
  else 0o100000

/-- Stores the value of a stat key. -/
def FileStat.store (key value : Bytes) (stat : FileStat) : FileStat :=
  if key = ascii "st_mtime" then
    { stat with mtime := (strtoull value).toInt64 }
  else if key = ascii "st_size" then
    { stat with size := strtoull value }
  else if key = ascii "st_mode" then
    { stat with mode := (strtoull value).toUInt32 }
  else if key = ascii "st_ifmt" ∧ stat.mode = 0 then
    { stat with mode := modeFromIfmt value }
  else stat

/-- The NUL-terminated tokens of a payload, one for each call of `next_token`.  A
token takes a byte at least, so `fuel` is the length of the data. -/
def tokensLoop : Nat → Bytes → List Bytes
  | 0, _ => []
  | fuel + 1, data =>
      if data = [] then []
      else data.takeWhile (· ≠ 0) ::
        tokensLoop fuel ((data.dropWhile (· ≠ 0)).drop 1)

def tokens (data : Bytes) : List Bytes := tokensLoop data.length data

/-- What stands behind a token, with the NUL that ends it, is shorter. -/
theorem length_behindToken (data : Bytes) :
    ((data.dropWhile (· ≠ 0)).drop 1).length ≤ data.length - 1 := by
  have hlength := List.length_dropWhile_le (fun byte => decide (byte ≠ 0)) data
  rw [List.length_drop]
  omega

/-- Turns for all the bytes are turns enough. -/
theorem tokensLoop_eq {fuel other : Nat} {data : Bytes} (h : data.length ≤ fuel)
    (h' : data.length ≤ other) : tokensLoop fuel data = tokensLoop other data := by
  have hshort := length_behindToken data
  induction fuel generalizing data other with
  | zero =>
      obtain rfl := List.length_eq_zero_iff.mp (Nat.le_zero.mp h)
      cases other <;> rfl
  | succ fuel ih =>
      cases other with
      | zero =>
          obtain rfl := List.length_eq_zero_iff.mp (Nat.le_zero.mp h')
          rfl
      | succ other =>
          have hrest : tokensLoop fuel ((data.dropWhile (· ≠ 0)).drop 1) =
              tokensLoop other ((data.dropWhile (· ≠ 0)).drop 1) :=
            ih (by omega) (by omega) (length_behindToken _)
          rw [tokensLoop, hrest]
          rfl

/-- What the loop finds in data, with as many turns as that takes. -/
theorem tokens_of_ne_nil {data : Bytes} (h : data ≠ []) :
    tokens data = data.takeWhile (· ≠ 0) :: tokens ((data.dropWhile (· ≠ 0)).drop 1) := by
  have hshort := length_behindToken data
  obtain ⟨fuel, hfuel⟩ := Nat.exists_eq_add_one_of_ne_zero
    (List.length_pos_iff.mpr h).ne'
  have hrest : tokensLoop fuel ((data.dropWhile (· ≠ 0)).drop 1) =
      tokens ((data.dropWhile (· ≠ 0)).drop 1) := tokensLoop_eq (by omega) le_rfl
  rw [tokens, hfuel, tokensLoop, if_neg h, hrest]

/-- The entries of a listing.  A token that is not a stat key starts the next
entry. -/
def listLoop : List Bytes → DirEntry → List DirEntry → List DirEntry
  | [], entry, entries =>
      if entry.name ≠ [] then entries ++ [entry] else entries
  | token :: rest, entry, entries =>
      if ¬ (ascii "st_").isPrefixOf token then
        if entry.name ≠ [] then
          listLoop rest { name := token } (entries ++ [entry])
        else listLoop rest { entry with name := token } entries
      else
        match rest with
        | [] => listLoop [] entry entries
        | value :: rest =>
            listLoop rest
              { entry with toFileStat := entry.toFileStat.store token value }
              entries

/-- The metadata of alternating keys and values. -/
def parseTokens : List Bytes → FileStat → FileStat
  | key :: value :: rest, info => parseTokens rest (info.store key value)
  | _, info => info

/-! ## Operations on paths -/

section Operations

variable {σ : Type} [ByteStream σ]

def list (path : Bytes) : Action Error (σ × Afc) (List DirEntry) := do
  let answer ← transact kOpReadDir (appendPath [] path) []
  if answer.operation ≠ kOpData then
    Action.fail (protocolError "the device sent an unexpected AFC operation")
  else return listLoop (tokens answer.data) {} []

/-- The metadata of a path, or none when the device reports an error. -/
def stat (path : Bytes) : Action Error (σ × Afc) (Option FileStat) := do
  match ← Action.outcome (transact kOpGetFileInfo (appendPath [] path) []) with
  | .ok answer => return some (parseTokens (tokens answer.data) {})
  | .error (.error ⟨.device, _⟩) => return none
  | .error fault => Action.lift (.error fault)

/-- A request that is answered with no more than a status. -/
def request (operation : UInt64) (extra : Bytes) : Action Error (σ × Afc) Unit := do
  let _ ← transact operation extra []
  return ()

def remove (path : Bytes) : Action Error (σ × Afc) Unit :=
  request kOpRemovePath (appendPath [] path)

def makeDirectory (path : Bytes) : Action Error (σ × Afc) Unit :=
  request kOpMakeDir (appendPath [] path)

def rename (source target : Bytes) : Action Error (σ × Afc) Unit :=
  request kOpRenamePath (appendPath (appendPath [] source) target)

/-- Opens a file: the handle. -/
def openFile (path : Bytes) (mode : UInt64) : Action Error (σ × Afc) UInt64 := do
  let answer ← transact kOpFileOpen (appendPath (putLe64 mode) path) []
  if answer.data.length < 8 then
    Action.fail (protocolError "the AFC open answer has no handle")
  else Action.lift (getLe64 answer.data 0)

end Operations

/-! ## Local files -/

/-- A local file to read: whether it opens, what is left of it, and how many
bytes each `std::fread` can return.  A read error ends a call early, and the next
call goes on behind what was returned. -/
structure SourceFile where
  opens : Bool := true
  unread : Bytes
  reads : Nat → Nat
  calls : Nat := 0

/-- `std::fread` of up to `count` bytes. -/
def SourceFile.fread (count : Nat) : Action Error SourceFile Bytes := do
  let file ← get
  let data := file.unread.take (min count (file.reads file.calls))
  set { file with
    unread := file.unread.drop data.length
    calls := file.calls + 1 }
  return data

/-- A local file to write: whether it opens, how many bytes each `std::fwrite`
can take, the bytes that were taken, how many of the last of them `std::fclose`
fails to write, and what the file holds. -/
structure TargetFile where
  opens : Bool := true
  writes : Nat → Nat
  calls : Nat := 0
  taken : Bytes := []
  lost : Nat := 0
  content : Bytes := []

/-- `std::fopen` for writing: the file is empty then. -/
def TargetFile.fopen : Action Error TargetFile Bool := do
  let file ← get
  if file.opens then do
    set { file with
      taken := []
      content := [] }
    return true
  else return false

/-- `std::fwrite`: how many bytes it took. -/
def TargetFile.fwrite (data : Bytes) : Action Error TargetFile Nat := do
  let file ← get
  let count := min data.length (file.writes file.calls)
  set { file with
    taken := file.taken ++ data.take count
    calls := file.calls + 1 }
  return count

/-- `std::fclose`: what was taken is written, but for what is lost. -/
def TargetFile.fclose : Action Error TargetFile Unit :=
  modify fun file =>
    { file with content := file.taken.take (file.taken.length - file.lost) }

/-! ## Transfers -/

section Transfers

variable {σ φ α : Type} [ByteStream σ]

/-- An operation of the client, beside a local file. -/
def onClient (x : Action Error (σ × Afc) α) : Action Error ((σ × Afc) × φ) α :=
  Action.zoom Prod.fst (fun state client => (client, state.2)) x

/-- A call on the local file. -/
def onFile (x : Action Error φ α) : Action Error ((σ × Afc) × φ) α :=
  Action.zoom Prod.snd (fun state file => (state.1, file)) x

/-- The loop of `FILE_READ` requests.  The device ends the file, so `fuel` bounds
the turns. -/
def pullLoop (handle : UInt64) : Nat → Action Error ((σ × Afc) × TargetFile) Unit
  | 0 => Action.lift (.error .outOfFuel)
  | fuel + 1 => do
      let answer ← onClient (transact kOpFileRead
        (putLe64 handle ++ putLe64 (UInt64.ofNat kChunkSize)) [])
      if answer.operation = kOpStatus ∨ answer.data = [] then return ()
      else do
        let count ← onFile (TargetFile.fwrite answer.data)
        if count ≠ answer.data.length then
          Action.fail ⟨.io, ascii "the local file was only partly written"⟩
        else pullLoop handle fuel

/-- Copies a file from the device. -/
def pull (fuel : Nat) (remote : Bytes) :
    Action Error ((σ × Afc) × TargetFile) Unit := do
  let handle ← onClient (openFile remote kFopenRdonly)
  if ← onFile TargetFile.fopen then do
    let result ← Action.outcome (pullLoop handle fuel)
    onFile TargetFile.fclose
    let _ ← Action.outcome (onClient (transact kOpFileClose (putLe64 handle) []))
    Action.lift result
  else Action.fail ⟨.io, ascii "the local file could not be created"⟩

/-- The loop of `FILE_WRITE` requests.  A turn reads a byte at least, so `fuel`
is one more than the length of the file. -/
def pushLoop (handle : UInt64) : Nat → Action Error ((σ × Afc) × SourceFile) Unit
  | 0 => Action.lift (.error .outOfFuel)
  | fuel + 1 => do
      let chunk ← onFile (SourceFile.fread kChunkSize)
      if chunk = [] then return ()
      else do
        let _ ← onClient (transact kOpFileWrite (putLe64 handle) chunk)
        pushLoop handle fuel

/-- Copies a file to the device.  Closing the local file has no part in it. -/
def push (remote : Bytes) : Action Error ((σ × Afc) × SourceFile) Unit := do
  let state ← get
  if state.2.opens then do
    let handle ← onClient (openFile remote kFopenWr)
    let result ← Action.outcome (pushLoop handle (state.2.unread.length + 1))
    let _ ← Action.outcome (onClient (transact kOpFileClose (putLe64 handle) []))
    Action.lift result
  else Action.fail ⟨.io, ascii "the local file could not be read"⟩

end Transfers

end Afc

end Ioscpp
