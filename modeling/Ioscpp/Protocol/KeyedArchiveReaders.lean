import Ioscpp.Protocol.BinaryPlistStandard
import Ioscpp.Protocol.KeyedArchiveRoundTrip

/-!
# An archive for any reader of its property list

An archive is a property list, and whoever reads that list as it was written can
resolve its references.  So a reader gives the value back when it reads the leaves
that an archive adds and the value's own leaves as themselves: this library's
reader, integers included, and the reader of the standard format on a device.

## Main results

- `unarchiveWith_archive`: any reader.
- `unarchiveWith_standard`: the reader of the standard format.
- `unarchive_archive_scalars`: this library's reader.
-/

namespace Ioscpp.Protocol.KeyedArchive

open Ioscpp.Support
open Plist

/-- A reader of property lists, and the references of what it read. -/
def unarchiveWith (head : Nat → Reading Error Head) (bytes : Bytes) :
    Result Plist := do
  let parsed ← unfoldBinary head bytes
  unarchiveParsed parsed

/-- A reader that reads the leaves of a value as themselves, and those that an
archive adds to them, gives back from the archive a value that is nested at most
`kMaxNesting` deep, and fails on any other. -/
theorem unarchiveWith_archive {head : Nat → Reading Error Head}
    {reads : Plist → Option Plist} (speaks : Speaks head reads)
    (hconstants : Constants fun leaf => reads leaf = some leaf) {value : Plist}
    (hwell : value.WellFormed)
    (hreads : value.AllLeaves fun leaf => reads leaf = some leaf)
    (hscalars : value.AllLeaves IsScalar) (hfits : FitsVector (archive value)) :
    unarchiveWith head (archive value) =
      if nesting value ≤ kMaxNesting then .ok value
      else .error (.error tooDeep) := by
  obtain ⟨hlist, hleaves⟩ := built_archived hconstants hreads
  rw [unarchiveWith, archive_eq,
    (unfoldBinary_toBinary_iff speaks hlist hfits).mpr hleaves, ok_bind]
  exact unarchiveParsed_archived hwell hscalars hfits

/-- The reader of the standard format. -/
theorem constants_standard :
    Constants fun leaf => Standard.readBack leaf = some leaf where
  null := rfl
  version := by
    rw [Standard.readBack_eq_iff]
    unfold Standard.IsStandard Standard.ShortNegative
    decide
  uid := fun _ => rfl
  text := by
    intro text htext
    change Standard.asciiString text = _
    rw [Standard.asciiString, if_pos htext]

/-- A device that reads the standard format gives back each value whose integers
and strings are written in it. -/
theorem unarchiveWith_standard {value : Plist} (hwell : value.WellFormed)
    (hstandard : value.AllLeaves Standard.IsStandard)
    (hscalars : value.AllLeaves IsScalar) (hfits : FitsVector (archive value)) :
    unarchiveWith Standard.readHead (archive value) =
      if nesting value ≤ kMaxNesting then .ok value
      else .error (.error tooDeep) := by
  refine unarchiveWith_archive Standard.speaks_readHead constants_standard hwell ?_
    hscalars hfits
  simpa only [Standard.readBack_eq_iff] using hstandard

/-- The library gives back each value whose integers it reads back. -/
theorem unarchive_archive_scalars {value : Plist} (hwell : value.WellFormed)
    (hleaves : value.AllLeaves RoundTrips) (hscalars : value.AllLeaves IsScalar)
    (hfits : FitsVector (archive value)) :
    unarchive (archive value) =
      if nesting value ≤ kMaxNesting then .ok value
      else .error (.error tooDeep) := by
  obtain ⟨hlist, hexact⟩ := built_archived constants_readBack
    (hleaves.imp fun leaf => (readBack_eq_iff leaf).mpr)
  rw [unarchive, archive_eq, (parseBinary_toBinary_leaves hlist hfits).mpr hexact,
    ok_bind]
  exact unarchiveParsed_archived hwell hscalars hfits

end Ioscpp.Protocol.KeyedArchive
