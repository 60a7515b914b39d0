import Ioscpp.Protocol.RemoteXpcWrapper
import Ioscpp.Support.Extension

/-!
# XPC objects delimit themselves

Decoding an object ends in a value or an error, whatever its bytes are: an object
inside another begins behind its type word, so the fuel, a step for each byte,
suffices.  What is decoded is determined by the bytes that are consumed, so of an
accepted object, payload or wrapper no proper prefix and no proper extension is
accepted.

## Main results

- `settles_decodeObject`: decoding an object ends, whatever its bytes are.
- `extends_decodeObject`: an object that is read is read in the same way with more
  behind it.
- `xpc_formats_prefixFree`: the three parsers accept no proper prefix of what they
  accept.
-/

namespace Ioscpp.Protocol

open Ioscpp.Support
open Ioscpp.Support.Reading

namespace Xpc

/-! ## Decoding ends -/

section Settles

variable {room : Nat}

theorem settles_decodeKeyBytes {fuel : Nat} (h : room < fuel) (key : Bytes) :
    Settles room (decodeKeyBytes fuel key) := by
  induction fuel generalizing room key with
  | zero => omega
  | succ fuel ih =>
      unfold decodeKeyBytes
      apply Settles.take_bind
      intro byte _ less hless
      apply Settles.ite
      · exact settles_pure key
      · exact ih (by omega) (key ++ byte)

theorem settles_decodeKey : Settles room decodeKey := by
  unfold decodeKey
  apply Settles.get_bind
  intro reader _
  apply Settles.bind
  · exact settles_decodeKeyBytes (by omega) []
  · intro key
    apply Settles.bind
    · exact settles_skipPadding truncated 4
    · intro _
      exact settles_pure key

theorem settles_measured {α : Type} {step : Reading Error α}
    (h : Settles room step) (length : Nat) (mismatch : Error) :
    Settles room (measured length mismatch step) := by
  unfold measured
  apply Settles.get_bind
  intro start hstart
  apply Settles.bind
  · exact h.mono (by omega)
  · intro value
    apply Settles.get_bind
    intro reader _
    exact Settles.ite (settles_fail mismatch) (settles_pure value)

variable {decode : Reading Error Xpc}

theorem settles_decodeItems (h : Settles room decode) (count : Nat)
    (items : List Xpc) : Settles room (decodeItems decode count items) := by
  induction count generalizing items with
  | zero => exact settles_pure items
  | succ count ih =>
      unfold decodeItems
      apply h.bind
      intro item
      exact ih (items ++ [item])

theorem settles_decodeEntries (h : Settles room decode) (count : Nat)
    (entries : List (Bytes × Xpc)) :
    Settles room (decodeEntries decode count entries) := by
  induction count generalizing entries with
  | zero => exact settles_pure entries
  | succ count ih =>
      unfold decodeEntries
      apply settles_decodeKey.bind
      intro key
      apply h.bind
      intro value
      exact ih (SortedMap.emplace key value entries)

theorem settles_decodeArray (h : Settles room decode) :
    Settles room (decodeArray decode) := by
  unfold decodeArray
  apply (settles_word truncated (by decide)).bind
  intro count
  apply Settles.get_bind
  intro reader hroom
  apply Settles.ite
  · exact settles_fail _
  · exact settles_decodeItems (h.mono (by omega)) count []

theorem settles_decodeDictionary (h : Settles room decode) :
    Settles room (decodeDictionary decode) := by
  unfold decodeDictionary
  apply (settles_word truncated (by decide)).bind
  intro count
  exact settles_decodeEntries h count []

/-- A value of some bytes and their padding. -/
private theorem settles_padded (make : Bytes → Xpc) :
    Settles room (do
      let length ← readU32
      let payload ← take truncated length
      skipPadding truncated 4
      return make payload) := by
  apply (settles_word truncated (by decide)).bind
  intro length
  apply (settles_take truncated length).bind
  intro payload
  apply (settles_skipPadding truncated 4).bind
  intro _
  exact settles_pure (make payload)

/-- A value of one word. -/
private theorem settles_single {size : Nat} (hsize : 0 < size)
    (make : Nat → Xpc) :
    Settles room (do
      let value ← word truncated size
      return make value) := by
  apply (settles_word truncated hsize).bind
  intro value
  exact settles_pure (make value)

theorem settles_decodeValue (h : Settles room decode) (type : Nat) :
    Settles room (decodeValue decode type) := by
  unfold decodeValue
  split
  · exact settles_pure _
  · exact settles_single (by decide) _
  · exact settles_single (by decide) _
  · exact settles_single (by decide) _
  · exact settles_single (by decide) _
  · exact settles_single (by decide) _
  · exact settles_padded _
  · exact settles_padded _
  · apply Settles.take_bind
    intro payload hlength less _
    rw [dif_pos hlength]
    exact settles_pure _
  · apply (settles_word truncated (by decide)).bind
    intro length
    apply (settles_measured (settles_decodeArray h) length _).bind
    intro items
    exact settles_pure _
  · apply (settles_word truncated (by decide)).bind
    intro length
    apply (settles_measured (settles_decodeDictionary h) length _).bind
    intro entries
    exact settles_pure _
  · exact settles_fail _

end Settles

/-- Decoding an object ends in a value or an error when there are more turns than bytes:
an object inside another begins after its type word. -/
theorem settles_decodeObject {room fuel : Nat} (h : room < fuel) :
    Settles room (decodeObject fuel) := by
  induction fuel generalizing room with
  | zero => omega
  | succ fuel ih =>
      unfold decodeObject
      apply Settles.word_bind (by decide)
      intro type less hless
      exact settles_decodeValue (ih (by omega)) type

/-! ## Decoding is determined by what it consumes -/

section Extends

private theorem extends_readU32 : Extends readU32 readU32 :=
  (stable_word truncated 4 (by decide)).extends

theorem extends_decodeKeyBytes {fuel more : Nat} (h : fuel ≤ more) (key : Bytes) :
    Extends (decodeKeyBytes fuel key) (decodeKeyBytes more key) := by
  induction fuel generalizing more key with
  | zero => exact extends_lift_error _ _
  | succ fuel ih =>
      obtain ⟨more, rfl⟩ := Nat.exists_eq_add_of_le' (show 1 ≤ more by omega)
      unfold decodeKeyBytes
      apply (stable_take truncated 1).extends.bind
      intro byte
      by_cases hend : byte = [0]
      · rw [if_pos hend, if_pos hend]
        exact (stable_pure key).extends
      · rw [if_neg hend, if_neg hend]
        exact ih (by omega) (key ++ byte)

theorem extends_decodeKey : Extends decodeKey decodeKey := by
  unfold decodeKey
  apply Extends.get_bind
  intro bytes more offset
  apply Extends.bind
  · apply extends_decodeKeyBytes
    show bytes.length - offset + 1 ≤ (bytes ++ more).length - offset + 1
    rw [List.length_append]
    omega
  · intro key
    apply (stable_skipPadding truncated 4).extends.bind
    intro _
    exact (stable_pure key).extends

theorem extends_measured {α : Type} {step longer : Reading Error α}
    (h : Extends step longer) (length : Nat) (mismatch : Error) :
    Extends (measured length mismatch step) (measured length mismatch longer) := by
  unfold measured
  apply Extends.get_bind
  intro _ _ start
  apply h.bind
  intro value
  apply Extends.get_bind
  intro _ _ stop
  dsimp only
  by_cases hlength : stop - start ≠ length
  · rw [if_pos hlength]
    exact extends_fail mismatch _
  · rw [if_neg hlength]
    exact (stable_pure value).extends

variable {decode longer : Reading Error Xpc}

theorem extends_decodeItems (h : Extends decode longer) (count : Nat)
    (items : List Xpc) :
    Extends (decodeItems decode count items) (decodeItems longer count items) := by
  induction count generalizing items with
  | zero => exact (stable_pure items).extends
  | succ count ih =>
      unfold decodeItems
      apply h.bind
      intro item
      exact ih (items ++ [item])

theorem extends_decodeEntries (h : Extends decode longer) (count : Nat)
    (entries : List (Bytes × Xpc)) :
    Extends (decodeEntries decode count entries)
      (decodeEntries longer count entries) := by
  induction count generalizing entries with
  | zero => exact (stable_pure entries).extends
  | succ count ih =>
      unfold decodeEntries
      apply extends_decodeKey.bind
      intro key
      apply h.bind
      intro value
      exact ih (SortedMap.emplace key value entries)

/-- A count that its bytes allow, more bytes allow as well. -/
theorem extends_decodeArray (h : Extends decode longer) :
    Extends (decodeArray decode) (decodeArray longer) := by
  unfold decodeArray
  apply extends_readU32.bind
  intro count
  apply Extends.get_bind
  intro bytes more offset
  dsimp only
  by_cases hcount : (bytes.length - offset) / 4 < count
  · rw [if_pos hcount]
    exact extends_fail _ _
  · have hmore : ¬ ((bytes ++ more).length - offset) / 4 < count := by
      rw [List.length_append]
      omega
    rw [if_neg hcount, if_neg hmore]
    exact extends_decodeItems h count []

theorem extends_decodeDictionary (h : Extends decode longer) :
    Extends (decodeDictionary decode) (decodeDictionary longer) := by
  unfold decodeDictionary
  apply extends_readU32.bind
  intro count
  exact extends_decodeEntries h count []

/-- A value of some bytes and their padding. -/
private theorem stable_padded (make : Bytes → Xpc) :
    Stable (do
      let length ← readU32
      let payload ← take truncated length
      skipPadding truncated 4
      return make payload) := by
  apply (stable_word truncated 4 (by decide)).bind
  intro length
  apply (stable_take truncated length).bind
  intro payload
  apply (stable_skipPadding truncated 4).bind
  intro _
  exact stable_pure (make payload)

/-- A value of one word. -/
private theorem stable_single {size : Nat} (hsize : 0 < size)
    (make : Nat → Xpc) :
    Stable (do
      let value ← word truncated size
      return make value) := by
  apply (stable_word truncated size hsize).bind
  intro value
  exact stable_pure (make value)

theorem extends_decodeValue (h : Extends decode longer) (type : Nat) :
    Extends (decodeValue decode type) (decodeValue longer type) := by
  unfold decodeValue
  split
  · exact (stable_pure _).extends
  · exact (stable_single (by decide) _).extends
  · exact (stable_single (by decide) _).extends
  · exact (stable_single (by decide) _).extends
  · exact (stable_single (by decide) _).extends
  · exact (stable_single (by decide) _).extends
  · exact (stable_padded _).extends
  · exact (stable_padded _).extends
  · apply (stable_take truncated 16).extends.bind
    intro payload
    by_cases hlength : payload.length = 16
    · rw [dif_pos hlength]
      exact (stable_pure _).extends
    · rw [dif_neg hlength]
      exact extends_lift_error _ _
  · apply extends_readU32.bind
    intro length
    apply (extends_measured (extends_decodeArray h) length _).bind
    intro items
    exact (stable_pure _).extends
  · apply extends_readU32.bind
    intro length
    apply (extends_measured (extends_decodeDictionary h) length _).bind
    intro entries
    exact (stable_pure _).extends
  · exact extends_fail _ _

end Extends

/-- More fuel changes nothing, and neither do more bytes behind: what is decoded is the
same, and ends at the same place. -/
theorem extends_decodeObject {fuel more : Nat} (h : fuel ≤ more) :
    Extends (decodeObject fuel) (decodeObject more) := by
  induction fuel generalizing more with
  | zero => exact extends_lift_error _ _
  | succ fuel ih =>
      obtain ⟨more, rfl⟩ := Nat.exists_eq_add_of_le' (show 1 ≤ more by omega)
      unfold decodeObject
      apply extends_readU32.bind
      intro type
      exact extends_decodeValue (ih (by omega)) type

end Xpc

/-! ## Parsers that take all their bytes -/

/-- A decoder that must take all its bytes. -/
theorem settled_whole {α β : Type} {p : Reading Error α} {bytes : Bytes}
    (h : Settles bytes.length p) {f : α × Cursor → Result β}
    (hf : ∀ a last, p ⟨bytes, 0⟩ = .ok (a, last) → last.bytes = bytes →
      last.Inside → Settled (f (a, last))) :
    Settled (p ⟨bytes, 0⟩ >>= f) := by
  rcases h ⟨bytes, 0⟩ (Nat.zero_le _) (by simp) with
    ⟨a, last, hrun, hbytes, hinside, -⟩ | ⟨e, hrun⟩
  · rw [hrun, ok_bind]
    exact hf a last hrun hbytes hinside
  · rw [hrun]
    exact settled_error e

/-- Bytes that are taken whole. -/
theorem eq_ok_of_whole {α β : Type} {p : Reading Error α} {bytes : Bytes}
    {trailing : Error} {make : α → β} {b : β}
    (h : (p ⟨bytes, 0⟩ >>= fun read =>
      if read.2.offset ≠ bytes.length then .error (.error trailing)
      else .ok (make read.1)) = .ok b) :
    ∃ a last, p ⟨bytes, 0⟩ = .ok (a, last) ∧ last.offset = bytes.length := by
  obtain ⟨⟨a, last⟩, hrun, h⟩ := bind_eq_ok.mp h
  dsimp only at h
  split at h
  · cases h
  · rename_i hend
    exact ⟨a, last, hrun, not_not.mp hend⟩

/-- A parser that takes all its bytes by a decoder that extends itself. -/
theorem prefixFree_whole {α β : Type} {decode : Nat → Reading Error α}
    (hsettles : ∀ room, Settles room (decode (room + 1)))
    (hextends : ∀ fuel more, fuel ≤ more → Extends (decode fuel) (decode more))
    {trailing : Error} {make : α → β} {parse : Bytes → Result β}
    (h : ∀ bytes, parse bytes = decode (bytes.length + 1) ⟨bytes, 0⟩ >>= fun read =>
      if read.2.offset ≠ bytes.length then .error (.error trailing)
      else .ok (make read.1)) : PrefixFree parse := by
  apply PrefixFree.of_append
  · intro bytes
    rw [h]
    apply settled_whole (hsettles bytes.length)
    intro a last _ _ _
    exact Settled.ite (settled_error _) (settled_ok _)
  · intro bytes more a b hbytes hmore
    rw [h] at hbytes hmore
    obtain ⟨_, first, hfirst, hend⟩ := eq_ok_of_whole hbytes
    obtain ⟨_, second, hsecond, hlast⟩ := eq_ok_of_whole hmore
    have hfuel : bytes.length + 1 ≤ (bytes ++ more).length + 1 := by
      rw [List.length_append]
      omega
    exact (hextends _ _ hfuel).eq_nil hfirst hend hsecond hlast

theorem prefixFree_xpc : PrefixFree Xpc.parse := by
  have hwhole (bytes : Bytes) : Xpc.parse bytes =
      (Xpc.decodeObject (bytes.length + 1) ⟨bytes, 0⟩ >>= fun read =>
        if read.2.offset ≠ bytes.length then
          .error (.error (protocolError "an xpc object has trailing bytes"))
        else .ok (id read.1)) := rfl
  apply prefixFree_whole _ _ hwhole
  · intro room
    exact Xpc.settles_decodeObject (Nat.lt_succ_self room)
  · intro fuel more hle
    exact Xpc.extends_decodeObject hle

namespace XpcPayload

theorem settles_decode (room : Nat) : Settles room (decode (room + 1)) := by
  unfold decode
  apply (settles_word Xpc.truncated (by decide)).bind
  intro magic
  apply Settles.ite (settles_fail _)
  apply (settles_word Xpc.truncated (by decide)).bind
  intro version
  apply Settles.ite (settles_fail _)
  exact Xpc.settles_decodeObject (Nat.lt_succ_self _)

theorem extends_decode {fuel more : Nat} (h : fuel ≤ more) :
    Extends (decode fuel) (decode more) := by
  have hword : Extends Xpc.readU32 Xpc.readU32 :=
    (stable_word Xpc.truncated 4 (by decide)).extends
  unfold decode
  apply hword.bind
  intro magic
  by_cases hmagic : magic ≠ kXpcPayloadMagic
  · rw [if_pos hmagic]
    exact extends_fail _ _
  · rw [if_neg hmagic, if_neg hmagic]
    apply hword.bind
    intro version
    by_cases hversion : version ≠ kXpcPayloadVersion
    · rw [if_pos hversion]
      exact extends_fail _ _
    · rw [if_neg hversion, if_neg hversion]
      exact Xpc.extends_decodeObject h

end XpcPayload

theorem prefixFree_xpcPayload : PrefixFree XpcPayload.parse :=
  prefixFree_whole XpcPayload.settles_decode
    (fun _ _ => XpcPayload.extends_decode) fun _ => rfl

/-! ## Wrappers -/

theorem settles_decodeHeader {room : Nat} :
    Settles room XpcWrapper.decodeHeader := by
  unfold XpcWrapper.decodeHeader
  apply (settles_word Xpc.truncated (by decide)).bind
  intro magic
  apply Settles.ite (settles_fail _)
  apply (settles_word Xpc.truncated (by decide)).bind
  intro flags
  apply (settles_word Xpc.truncated (by decide)).bind
  intro bodyLength
  apply (settles_word Xpc.truncated (by decide)).bind
  intro messageId
  exact settles_pure _

theorem settled_xpcWrapper (bytes : Bytes) : Settled (XpcWrapper.parse bytes) := by
  unfold XpcWrapper.parse
  apply settled_whole settles_decodeHeader
  intro ⟨flags, bodyLength, messageId⟩ last _ hbytes hinside
  dsimp only
  apply Settled.ite
  · exact Settled.ite (settled_error _) (settled_ok _)
  · apply (settles_take Xpc.truncated bodyLength last hinside
      (Nat.le_add_left _ _)).settled.bind
    intro ⟨body, final⟩ _
    apply Settled.ite (settled_error _)
    apply (prefixFree_xpcPayload.settled body).bind
    intro payload _
    exact settled_ok _

theorem prefixFree_xpcWrapper : PrefixFree XpcWrapper.parse := by
  apply PrefixFree.of_append settled_xpcWrapper
  intro bytes more wrapper other hbytes hmore
  have hpiece : bytes ++ more = (bytes ++ more) ++ [] := (List.append_nil _).symm
  rcases XpcWrapper.parse_piece hmore hpiece with heq | ⟨e, -, herror⟩
  · exact List.self_eq_append_right.mp heq
  · rw [hbytes] at herror
    cases herror

/-- The parsers of objects, of payloads and of wrappers end in a value or an error
for every sequence of bytes, and of a sequence that they accept they accept
neither a proper prefix nor a proper extension. -/
theorem xpc_formats_prefixFree :
    PrefixFree Xpc.parse ∧ PrefixFree XpcPayload.parse ∧
      PrefixFree XpcWrapper.parse :=
  ⟨prefixFree_xpc, prefixFree_xpcPayload, prefixFree_xpcWrapper⟩

end Ioscpp.Protocol
