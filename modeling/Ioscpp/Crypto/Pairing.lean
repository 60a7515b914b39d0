import Ioscpp.PlistService
import Ioscpp.Protocol.PlistXmlCut
import Ioscpp.Support.Settled

/-!
# Pairing records

A pairing record is the host's part of the trust that it has with a device.
`save` writes it to a file as an XML property list and `load` reads it back, or
makes a fresh one when there is no file or an empty one.

`save` truncates the file before it writes, so after a failed write the file
holds a beginning of the new record.

## Main results

- `load_take_eq_ok_iff`: which beginnings of a saved record are loaded.
- `load_of_save`: what was saved is loaded again.
- `load_failed_save_iff`: when the record of before is loaded after a save that
  failed.
-/

namespace Ioscpp.Crypto

open Ioscpp.Support
open Ioscpp.Protocol

/-- The record, and the path and session that are not part of it. -/
structure Pairing where
  path : Bytes := []
  hostId : Bytes := []
  systemBuid : Bytes := []
  udid : Bytes := []
  hostCertificate : Bytes := []
  hostPrivateKey : Bytes := []
  rootCertificate : Bytes := []
  rootPrivateKey : Bytes := []
  deviceCertificate : Bytes := []
  escrowBag : Bytes := []
  wifiMacAddress : Bytes := []
  sessionId : Bytes := []
  deriving DecidableEq, Repr

namespace Pairing

/-- The files that exist, by their paths. -/
abbrev Files := Bytes → Option Bytes

/-- What the system does while a file is read: whether it has a size for it, whether
it opens it, and how many bytes it reads of so many. -/
structure Reads where
  sized : Bool := true
  opens : Bool := true
  count : Nat → Nat := id

/-- What the system does while a file is written: it does not open it, or it
writes so many bytes. -/
inductive Writes where
  | refused
  | wrote (count : Nat)
  deriving DecidableEq, Repr

/-- Whether the device's side of the record is present. -/
def paired (pairing : Pairing) : Bool := pairing.deviceCertificate ≠ []

/-! ## Saving -/

/-- The entries that are written for every record. -/
def required (pairing : Pairing) : List (Bytes × Plist) := [
  (ascii "DeviceCertificate", .data pairing.deviceCertificate),
  (ascii "HostCertificate", .data pairing.hostCertificate),
  (ascii "HostID", .string pairing.hostId),
  (ascii "HostPrivateKey", .data pairing.hostPrivateKey),
  (ascii "RootCertificate", .data pairing.rootCertificate),
  (ascii "RootPrivateKey", .data pairing.rootPrivateKey),
  (ascii "SystemBUID", .string pairing.systemBuid),
  (ascii "UniqueDeviceID", .string pairing.udid)]

/-- The entries that are written; two of them only when they are not empty. -/
def record (pairing : Pairing) : List (Bytes × Plist) :=
  let record :=
    if pairing.escrowBag ≠ [] then
      SortedMap.emplace (ascii "EscrowBag") (.data pairing.escrowBag)
        pairing.required
    else pairing.required
  if pairing.wifiMacAddress ≠ [] then
    SortedMap.emplace (ascii "WiFiMACAddress") (.string pairing.wifiMacAddress)
      record
  else record

/-- The text of the record. -/
def toXml (pairing : Pairing) : Bytes := (Plist.dictionary pairing.record).toXml

/-- Writes the record to its path. -/
def save (writes : Writes) (pairing : Pairing) (files : Files) :
    Result Unit × Files :=
  match writes with
  | .refused =>
      (.error (.error
        ⟨.io, ascii "the pairing record could not be written"⟩), files)
  | .wrote count =>
      let files := Function.update files pairing.path
        (some (pairing.toXml.take count))
      if min count pairing.toXml.length ≠ pairing.toXml.length then
        (.error (.error
          ⟨.io, ascii "the pairing record was only partly written"⟩), files)
      else (.ok (), files)

/-! ## Loading -/

/-- The bytes of an entry, or none when it is absent or of another kind. -/
def dataOf (record : Plist) (key : String) : Bytes :=
  match record.find (ascii key) with
  | some (.data bytes) => bytes
  | _ => []

def stringOf (record : Plist) (key : String) : Bytes :=
  match record.find (ascii key) with
  | some (.string text) => text
  | _ => []

/-- The fields of a record that was read. -/
def ofRecord (recordPath : Bytes) (record : Plist) : Pairing where
  path := recordPath
  hostId := stringOf record "HostID"
  systemBuid := stringOf record "SystemBUID"
  udid := stringOf record "UniqueDeviceID"
  hostCertificate := dataOf record "HostCertificate"
  hostPrivateKey := dataOf record "HostPrivateKey"
  rootCertificate := dataOf record "RootCertificate"
  rootPrivateKey := dataOf record "RootPrivateKey"
  deviceCertificate := dataOf record "DeviceCertificate"
  escrowBag := dataOf record "EscrowBag"
  wifiMacAddress := stringOf record "WiFiMACAddress"

def readRefused : Error :=
  ⟨.crypto, ascii "the pairing record could not be read"⟩

/-- A record of this host with a key and a certificate. -/
def ofGenerated (recordPath key certificate : Bytes) : Pairing where
  path := recordPath
  hostId := ascii "6BA7B810-9DAD-11D1-80B4-00C04FD430C8"
  systemBuid := ascii "30142955-444094379208051516"
  hostPrivateKey := key
  hostCertificate := certificate

def fresh (generated : Result (Bytes × Bytes)) (recordPath : Bytes) :
    Result Pairing := do
  let (key, certificate) ← generated
  return ofGenerated recordPath key certificate

/-- Loads the record at a path, or makes a fresh one with what
`generate_key_and_cert` returns. -/
def load (reads : Reads) (generated : Result (Bytes × Bytes))
    (recordPath : Bytes) (files : Files) : Result Pairing :=
  match files recordPath with
  | none => fresh generated recordPath
  | some bytes =>
      if reads.sized ∧ 0 < bytes.length then
        if reads.opens then do
          let record ← Plist.parse (bytes.take (reads.count bytes.length))
          return ofRecord recordPath record
        else .error (.error readRefused)
      else fresh generated recordPath

/-! ## What a record holds -/

/-- The part of a pairing that is saved. -/
def persisted (pairing : Pairing) : Pairing :=
  { pairing with path := [], sessionId := [] }

section Record

variable (pairing : Pairing)

theorem sorted_required : SortedMap.Sorted pairing.required := by
  show List.Pairwise (· < ·) [ascii "DeviceCertificate",
    ascii "HostCertificate", ascii "HostID", ascii "HostPrivateKey",
    ascii "RootCertificate", ascii "RootPrivateKey", ascii "SystemBUID",
    ascii "UniqueDeviceID"]
  decide +kernel

theorem sorted_record : SortedMap.Sorted pairing.record := by
  have hrequired := pairing.sorted_required
  unfold record
  dsimp only
  split
  · split
    · exact SortedMap.sorted_emplace _ _ (SortedMap.sorted_emplace _ _ hrequired)
    · exact SortedMap.sorted_emplace _ _ hrequired
  · split
    · exact SortedMap.sorted_emplace _ _ hrequired
    · exact hrequired

/-- The values of a record are bytes and strings. -/
inductive IsField : Plist → Prop where
  | data (bytes : Bytes) : IsField (.data bytes)
  | string (text : Bytes) : IsField (.string text)

theorem IsField.leaf {value : Plist} (h : IsField value) :
    value.IsLeaf ∧ value.IsText := by
  cases h with
  | data bytes => exact ⟨trivial, trivial⟩
  | string text => exact ⟨trivial, trivial⟩

theorem isField_of_mem_emplace {key : Bytes} {value : Plist}
    {map : List (Bytes × Plist)} (hvalue : IsField value)
    (hmap : ∀ entry ∈ map, IsField entry.2) :
    ∀ entry ∈ SortedMap.emplace key value map, IsField entry.2 := by
  intro entry hmem
  rcases SortedMap.mem_emplace hmem with rfl | hmem
  · exact hvalue
  · exact hmap entry hmem

theorem isField_record : ∀ entry ∈ pairing.record, IsField entry.2 := by
  have hrequired : ∀ entry ∈ pairing.required, IsField entry.2 := by
    unfold required
    simp only [List.forall_mem_cons]
    exact ⟨.data _, .data _, .string _, .data _, .data _, .data _, .string _,
      .string _, nofun⟩
  unfold record
  dsimp only
  split
  · apply isField_of_mem_emplace (.string _)
    split
    · exact isField_of_mem_emplace (.data _) hrequired
    · exact hrequired
  · split
    · exact isField_of_mem_emplace (.data _) hrequired
    · exact hrequired

theorem wellFormed_record : (Plist.dictionary pairing.record).WellFormed := by
  apply Plist.WellFormed.dictionary pairing.sorted_record
  intro entry hmem
  exact .leaf (pairing.isField_record entry hmem).leaf.1

theorem leaves_record :
    (Plist.dictionary pairing.record).AllLeaves Plist.IsText := by
  apply Plist.AllLeaves.dictionary
  · intro entry _
    trivial
  · intro entry hmem
    have hfield := (pairing.isField_record entry hmem).leaf
    exact .leaf hfield.1 hfield.2

/-- The fields are those that were saved. -/
theorem ofRecord_record (recordPath : Bytes) :
    (ofRecord recordPath (.dictionary pairing.record)).persisted =
      pairing.persisted := by
  obtain ⟨path, hostId, systemBuid, udid, hostCertificate, hostPrivateKey,
    rootCertificate, rootPrivateKey, deviceCertificate, escrowBag,
    wifiMacAddress, sessionId⟩ := pairing
  cases escrowBag with
  | nil =>
      cases wifiMacAddress with
      | nil => rfl
      | cons => rfl
  | cons =>
      cases wifiMacAddress with
      | nil => rfl
      | cons => rfl

end Record

/-! ## What a file holds -/

section Files

variable {pairing : Pairing} {files : Files} {recordPath : Bytes}
variable {generated : Result (Bytes × Bytes)} {count : Nat}

/-- A beginning of a record is not taken for a binary property list. -/
theorem parse_take_toXml (pairing : Pairing) (count : Nat) :
    Plist.parse (pairing.toXml.take count) =
      Plist.parseXml (pairing.toXml.take count) := by
  rw [Plist.parse, if_neg]
  intro hbinary
  obtain ⟨hlength, hheader⟩ := hbinary
  have hhead : ((pairing.toXml.take count).take 8).head? = some 0x3c := by
    rw [List.length_take] at hlength
    rw [List.take_take, List.head?_take, if_neg (by omega)]
    rfl
  rw [hheader] at hhead
  cases hhead

/-- A file with a beginning of a record. -/
theorem load_take (h : files recordPath = some (pairing.toXml.take count))
    (hcount : 0 < count) :
    load {} generated recordPath files = (do
      let record ← Plist.parseXml (pairing.toXml.take count)
      return ofRecord recordPath record) := by
  have hpos : 0 < (pairing.toXml.take count).length := by
    have hlength := Plist.length_toXml (.dictionary pairing.record)
    rw [List.length_take]
    unfold toXml
    omega
  unfold load
  rw [h]
  dsimp only
  rw [if_pos ⟨rfl, hpos⟩, if_pos rfl, id_eq, List.take_length,
    parse_take_toXml]

/-- What is loaded of it is the record, and only the close of the document may be
missing. -/
theorem load_take_eq_ok_iff
    (h : files recordPath = some (pairing.toXml.take count))
    (hcount : 0 < count) {loaded : Pairing} :
    load {} generated recordPath files = .ok loaded ↔
      loaded = ofRecord recordPath (.dictionary pairing.record) ∧
        pairing.toXml.length ≤ count + 9 := by
  rw [load_take h hcount, bind_eq_ok]
  constructor
  · intro ⟨record, hrecord, hloaded⟩
    obtain ⟨rfl, hle⟩ := (Plist.parseXml_take_eq_ok_iff pairing.wellFormed_record
      pairing.leaves_record).mp hrecord
    exact ⟨(Except.ok.inj hloaded).symm, hle⟩
  · intro ⟨hloaded, hle⟩
    apply Exists.intro (Plist.dictionary pairing.record)
    constructor
    · exact (Plist.parseXml_take_eq_ok_iff pairing.wellFormed_record
        pairing.leaves_record).mpr ⟨rfl, hle⟩
    · rw [hloaded]
      rfl

/-- A file with a whole record. -/
theorem load_toXml (h : files recordPath = some pairing.toXml) :
    load {} generated recordPath files =
      .ok (ofRecord recordPath (.dictionary pairing.record)) := by
  have hpos : 0 < pairing.toXml.length := by
    have hlength := Plist.length_toXml (.dictionary pairing.record)
    unfold toXml
    omega
  rw [← List.take_length (l := pairing.toXml)] at h
  exact (load_take_eq_ok_iff h hpos).mpr ⟨rfl, by omega⟩

/-! ## After a save -/

/-- The file of a save that wrote. -/
theorem save_wrote (pairing : Pairing) (files : Files) (count : Nat) :
    (save (.wrote count) pairing files).2 pairing.path =
      some (pairing.toXml.take count) := by
  have hfiles : (save (.wrote count) pairing files).2 =
      Function.update files pairing.path (some (pairing.toXml.take count)) := by
    unfold save
    dsimp only
    split <;> rfl
  rw [hfiles, Function.update_self]

/-- A save succeeds when it writes the whole record. -/
theorem length_le_of_save {writes : Writes}
    (h : (save writes pairing files).1 = .ok ()) :
    ∃ count, writes = .wrote count ∧ pairing.toXml.length ≤ count := by
  cases writes with
  | refused => cases h
  | wrote count =>
      unfold save at h
      dsimp only at h
      split at h
      · cases h
      · rename_i hwhole
        exact ⟨count, rfl, by omega⟩

/-- A record that was saved is loaded again from its path: with the fields that are
written to the file as they were, and counting as paired exactly if it did. -/
theorem load_of_save {writes : Writes}
    (h : (save writes pairing files).1 = .ok ()) :
    ∃ loaded, load {} generated pairing.path (save writes pairing files).2 =
        .ok loaded ∧
      loaded.persisted = pairing.persisted ∧ loaded.paired = pairing.paired := by
  obtain ⟨count, rfl, hcount⟩ := length_le_of_save h
  have hfile := save_wrote pairing files count
  rw [List.take_of_length_le hcount] at hfile
  have hfields := pairing.ofRecord_record pairing.path
  refine ⟨_, load_toXml hfile, hfields, ?_⟩
  have hcertificate := congrArg deviceCertificate hfields
  show decide (dataOf _ "DeviceCertificate" ≠ []) = decide (_ ≠ [])
  exact congrArg (fun bytes => decide (bytes ≠ [])) hcertificate

/-- The old record is still there: nothing was opened; or nothing was written, and
what is made afresh is the old record; or all was written but some of the close of
the document, and the record is the old one. -/
def Spared (generated : Result (Bytes × Bytes)) (old new : Pairing) :
    Writes → Prop
  | .refused => True
  | .wrote 0 => ∃ key certificate, generated = .ok (key, certificate) ∧
      (ofGenerated new.path key certificate).persisted = old.persisted
  | .wrote count => new.toXml.length ≤ count + 9 ∧ new.persisted = old.persisted

/-- Of an empty file a fresh record is made. -/
theorem load_empty_iff {old : Pairing} {bytes : Bytes}
    (h : files recordPath = some (bytes.take 0)) :
    (∃ loaded, load {} generated recordPath files = .ok loaded ∧
        loaded.persisted = old.persisted) ↔
      ∃ key certificate, generated = .ok (key, certificate) ∧
        (ofGenerated recordPath key certificate).persisted = old.persisted := by
  have hload : load {} generated recordPath files =
      fresh generated recordPath := by
    unfold load
    rw [h]
    rfl
  rw [hload]
  unfold fresh
  constructor
  · intro ⟨loaded, hloaded, hsame⟩
    obtain ⟨⟨key, certificate⟩, hgenerated, hmade⟩ := bind_eq_ok.mp hloaded
    cases hmade
    exact ⟨key, certificate, hgenerated, hsame⟩
  · intro ⟨key, certificate, hgenerated, hsame⟩
    rw [hgenerated]
    exact ⟨_, rfl, hsame⟩

/-- After a save that fails, the record that the file held is loaded exactly if it was
spared: the file was not opened, or it was emptied and the fresh record is the same, or
all of the same record was written but for the close of its document. -/
theorem load_failed_save_iff {old new : Pairing} {writes : Writes}
    (hold : files new.path = some old.toXml) {e : Fault Error}
    (hfailed : (save writes new files).1 = .error e) :
    (∃ loaded, load {} generated new.path (save writes new files).2 =
        .ok loaded ∧ loaded.persisted = old.persisted) ↔
      Spared generated old new writes := by
  cases writes with
  | refused =>
      apply iff_of_true _ trivial
      exact ⟨_, load_toXml hold, old.ofRecord_record new.path⟩
  | wrote count =>
      have hfile := save_wrote new files count
      cases count with
      | zero => exact load_empty_iff hfile
      | succ count =>
          have hload (loaded : Pairing) : load {} generated new.path
              (save (.wrote (count + 1)) new files).2 = .ok loaded ↔ _ :=
            load_take_eq_ok_iff hfile (Nat.succ_pos count)
          constructor
          · intro ⟨loaded, hloaded, hsame⟩
            obtain ⟨rfl, hle⟩ := (hload loaded).mp hloaded
            rw [new.ofRecord_record new.path] at hsame
            exact ⟨hle, hsame⟩
          · intro ⟨hle, hsame⟩
            refine ⟨_, (hload _).mpr ⟨rfl, hle⟩, ?_⟩
            rw [new.ofRecord_record new.path, hsame]

end Files

/-! ## Examples -/

/-- A record with a device's certificate. -/
private def sample : Pairing where
  path := ascii "/p"
  hostId := ascii "a<&b"
  deviceCertificate := [0, 255]

theorem load_of_save_sample :
    ∃ loaded, load {} (.error .exception) sample.path
        (save (.wrote 1000) sample fun _ => none).2 = .ok loaded ∧
      loaded.persisted = sample.persisted ∧ loaded.paired = sample.paired :=
  load_of_save (by decide +kernel)

private def partlyWritten : Error :=
  ⟨.io, ascii "the pairing record was only partly written"⟩

theorem load_failed_save_iff_sample :
    (∃ loaded, load {} (.error .exception) sample.path
        (save (.wrote 100) sample fun _ => some sample.toXml).2 = .ok loaded ∧
      loaded.persisted = sample.persisted) ↔
      Spared (.error .exception) sample sample (.wrote 100) :=
  load_failed_save_iff (e := .error partlyWritten) rfl (by decide +kernel)

/-- The record is saved again, and a hundred bytes are written: what is left is
refused. -/
theorem not_load_failed_save_sample :
    (save (.wrote 100) sample fun _ => some sample.toXml).1 =
        .error (.error partlyWritten) ∧
      load {} (.error .exception) sample.path
        (save (.wrote 100) sample fun _ => some sample.toXml).2 =
        .error (.error (protocolError "the plist has no <plist> element")) := by
  constructor
  · decide +kernel
  · decide +kernel

end Pairing

end Ioscpp.Crypto
