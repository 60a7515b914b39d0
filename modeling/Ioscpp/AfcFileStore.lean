import Ioscpp.AfcDevice
import Ioscpp.AfcListing

/-!
# The file service of a device

What AFC is for: a store of files by their paths, that a client changes and reads.
`fileDevice` is a device that keeps such a store, with the handles of its open
files.  Calls of the client then do to the store what their names say, whole files
at a time, and leave no handle behind.
-/

namespace Ioscpp.Afc

open Ioscpp.Support
open Ioscpp.Support.Action

/-! ## Stores -/

/-- What is at a path. -/
inductive Node where
  | file (content : Bytes)
  | directory
  deriving DecidableEq, Repr

/-- What is at each path. -/
abbrev Store := Bytes → Option Node

def kInvalidHandle : UInt64 := 7
def kNotFound : UInt64 := 8
def kIsDirectory : UInt64 := 9
def kExists : UInt64 := 16

/-- What a client is told of a refusal. -/
def refusal {α : Type} (code : UInt64) : Result α :=
  .error (.error (deviceError
    (ascii "the device reported AFC error " ++ decimal code.toNat)))

namespace Store

/-- Writes a whole file. -/
def put (path content : Bytes) (store : Store) : Result Unit × Store :=
  if store path = some .directory then (refusal kIsDirectory, store)
  else (.ok (), Function.update store path (some (.file content)))

/-- Reads a whole file. -/
def get (path : Bytes) (store : Store) : Result Bytes :=
  match store path with
  | none => refusal kNotFound
  | some .directory => refusal kIsDirectory
  | some (.file content) => .ok content

def remove (path : Bytes) (store : Store) : Result Unit × Store :=
  if store path = none then (refusal kNotFound, store)
  else (.ok (), Function.update store path none)

def makeDirectory (path : Bytes) (store : Store) : Result Unit × Store :=
  match store path with
  | none => (.ok (), Function.update store path (some .directory))
  | some .directory => (.ok (), store)
  | some (.file _) => (refusal kExists, store)

def rename (source target : Bytes) (store : Store) : Result Unit × Store :=
  match store source with
  | none => (refusal kNotFound, store)
  | some node =>
      (.ok (), Function.update (Function.update store source none) target
        (some node))

/-- The metadata of a path.  The size is told as a number of 64 bits. -/
def stat (path : Bytes) (store : Store) : Option FileStat :=
  (store path).map fun
    | .file content =>
      { mode := 0o100000, size := UInt64.ofNat (min content.length (2 ^ 64 - 1)) }
    | .directory => { mode := 0o40000 }

end Store

/-! ## The device -/

/-- A file that is open, and how far it was read or written. -/
structure OpenFile where
  path : Bytes
  position : Nat := 0
  deriving DecidableEq, Repr

structure FileServer where
  store : Store
  opened : List (UInt64 × OpenFile) := []
  nextHandle : UInt64 := 1

/-- The longest data of a reply. -/
def kLongestData : Nat := 65535 - kHeaderSize

namespace Reply

/-- A status. -/
def status (code : UInt64) : Reply :=
  .whole kOpStatus (putLe64 code) (by rw [length_putLe64]; decide)

/-- A handle. -/
def handle (value : UInt64) : Reply :=
  .whole kOpFileOpenRes (putLe64 value) (by rw [length_putLe64]; decide)

/-- As much of the data as a reply carries. -/
def carrying (data : Bytes) : Reply :=
  .whole kOpData (data.take kLongestData) (by
    have hle : kLongestData ≤ 2 ^ 63 - 1 := by decide
    exact (List.length_take_le _ _).trans hle)

end Reply

namespace FileServer

/-- A path up to the NUL behind it, and what follows. -/
def takePath (bytes : Bytes) : Bytes × Bytes :=
  (bytes.takeWhile (· ≠ 0), (bytes.dropWhile (· ≠ 0)).drop 1)

/-- The server with one more open file. -/
def withOpen (server : FileServer) (path : Bytes) : Reply × FileServer :=
  (.handle server.nextHandle, { server with
    opened := (server.nextHandle, ⟨path, 0⟩) :: server.opened
    nextHandle := server.nextHandle + 1 })

/-- Opening to write empties the file, or makes it. -/
def openFile (server : FileServer) (mode : UInt64) (path : Bytes) :
    Reply × FileServer :=
  if mode = kFopenWr then
    match server.store.put path [] with
    | (.ok (), store) => { server with store }.withOpen path
    | (.error _, _) => (.status kIsDirectory, server)
  else
    match server.store path with
    | none => (.status kNotFound, server)
    | some .directory => (.status kIsDirectory, server)
    | some (.file _) => server.withOpen path

/-- The server with an open file at another position. -/
def moveTo (server : FileServer) (handle : UInt64) (position : Nat) : FileServer :=
  { server with opened := server.opened.map fun (key, file) =>
      if key = handle then (key, { file with position }) else (key, file) }

/-- The content of an open file. -/
def content (server : FileServer) (file : OpenFile) : Bytes :=
  match server.store file.path with
  | some (.file content) => content
  | _ => []

def readFile (server : FileServer) (handle : UInt64) (count : Nat) :
    Reply × FileServer :=
  match server.opened.lookup handle with
  | none => (.status kInvalidHandle, server)
  | some file =>
      let chunk := ((server.content file).drop file.position).take
        (min count kLongestData)
      if chunk = [] then (.status 0, server)
      else (.carrying chunk, server.moveTo handle (file.position + chunk.length))

def writeFile (server : FileServer) (handle : UInt64) (data : Bytes) :
    Reply × FileServer :=
  match server.opened.lookup handle with
  | none => (.status kInvalidHandle, server)
  | some file =>
      let content := server.content file
      let written := content.take file.position ++ data ++
        content.drop (file.position + data.length)
      let store := Function.update server.store file.path (some (.file written))
      (.status 0, { server with store }.moveTo handle (file.position + data.length))

def closeFile (server : FileServer) (handle : UInt64) : Reply × FileServer :=
  (.status 0, { server with
    opened := server.opened.filter fun entry => entry.1 ≠ handle })

/-- The reply to a change of the store. -/
def changed (server : FileServer) (code : UInt64) (outcome : Result Unit × Store) :
    Reply × FileServer :=
  match outcome with
  | (.ok (), store) => (.status 0, { server with store })
  | (.error _, _) => (.status code, server)

/-- The stat keys and values of a node. -/
def statTokens : Node → List Bytes
  | .file content => [ascii "st_size",
      decimal (min content.length (2 ^ 64 - 1)), ascii "st_ifmt", ascii "S_IFREG"]
  | .directory => [ascii "st_size", decimal 0, ascii "st_ifmt", ascii "S_IFDIR"]

def fileInfo (server : FileServer) (path : Bytes) : Reply :=
  match server.store path with
  | none => .status kNotFound
  | some node => .carrying (listing (statTokens node))

end FileServer

/-- A device with a file service. -/
def fileDevice : Device FileServer := fun server request =>
  let paths := FileServer.takePath request.extra
  if request.operation = kOpFileOpen then
    server.openFile (word request.extra 0)
      (FileServer.takePath (request.extra.drop 8)).1
  else if request.operation = kOpFileRead then
    server.readFile (word request.extra 0) (word request.extra 8).toNat
  else if request.operation = kOpFileWrite then
    server.writeFile (word request.extra 0) request.payload
  else if request.operation = kOpFileClose then
    server.closeFile (word request.extra 0)
  else if request.operation = kOpRemovePath then
    server.changed kNotFound (server.store.remove paths.1)
  else if request.operation = kOpMakeDir then
    server.changed kExists (server.store.makeDirectory paths.1)
  else if request.operation = kOpRenamePath then
    server.changed kNotFound
      (server.store.rename paths.1 (FileServer.takePath paths.2).1)
  else if request.operation = kOpGetFileInfo then
    (server.fileInfo paths.1, server)
  else (.status kInvalidHandle, server)

end Ioscpp.Afc
