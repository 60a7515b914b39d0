import Ioscpp.Protocol.RemoteXpc
import Ioscpp.Support.Truncation

/-!
# A part of a wrapper

A wrapper has a header of 24 bytes, which says how long its body is.  So bytes that
begin as an accepted wrapper does either are that wrapper, or end too early, or go on
behind it, and in the last two cases they are refused.

## Main results

- `header_of_parse`: what an accepted wrapper consists of.
- `parse_piece`: bytes that begin as a wrapper does.
-/

namespace Ioscpp.Protocol.XpcWrapper

open Ioscpp.Support
open Ioscpp.Support.Reading
open Xpc

theorem truncates_decodeHeader : Truncates truncated decodeHeader := by
  have h32 : Truncates truncated readU32 := truncates_word truncated (by decide)
  have h64 : Truncates truncated readU64 := truncates_word truncated (by decide)
  exact h32.bind fun _ => (truncates_fail _ _).ite (h32.bind fun _ =>
    h64.bind fun _ => h64.bind fun _ => truncates_pure _ _)

theorem stable_decodeHeader : Stable decodeHeader := by
  have h32 : Stable readU32 := stable_word truncated 4 (by decide)
  have h64 : Stable readU64 := stable_word truncated 8 (by decide)
  refine h32.bind fun magic => ?_
  split
  · exact stable_fail _
  · exact h32.bind fun _ => h64.bind fun _ => h64.bind fun _ => stable_pure _

/-- The header takes 24 bytes. -/
theorem decodeHeader_eq_ok {bytes : Bytes} {last : Cursor}
    {header : UInt32 × Nat × UInt64}
    (h : decodeHeader ⟨bytes, 0⟩ = .ok (header, last)) : last = ⟨bytes, 24⟩ := by
  obtain ⟨⟨magic, first⟩, hmagic, h⟩ := bind_eq_ok.mp h
  obtain ⟨-, -, rfl⟩ := word_eq_ok (by decide) hmagic
  dsimp only at h
  split at h
  · cases h
  obtain ⟨⟨flags, second⟩, hflags, h⟩ := bind_eq_ok.mp h
  obtain ⟨-, -, rfl⟩ := word_eq_ok (by decide) hflags
  obtain ⟨⟨length, third⟩, hlength, h⟩ := bind_eq_ok.mp h
  obtain ⟨-, -, rfl⟩ := word_eq_ok (by decide) hlength
  obtain ⟨⟨messageId, fourth⟩, hmessage, h⟩ := bind_eq_ok.mp h
  obtain ⟨-, -, rfl⟩ := word_eq_ok (by decide) hmessage
  cases h
  rfl

/-- What is accepted as a wrapper is a header and a body of the length that the
header says. -/
theorem header_of_parse {bytes : Bytes} {wrapper : XpcWrapper}
    (h : parse bytes = .ok wrapper) :
    ∃ (flags : UInt32) (length : Nat) (messageId : UInt64),
      decodeHeader ⟨bytes, 0⟩ = .ok ((flags, length, messageId), ⟨bytes, 24⟩) ∧
        bytes.length = 24 + length := by
  rw [parse] at h
  obtain ⟨⟨⟨flags, length, messageId⟩, reader⟩, hheader, h⟩ := bind_eq_ok.mp h
  obtain rfl := decodeHeader_eq_ok hheader
  refine ⟨flags, length, messageId, hheader, ?_⟩
  dsimp only at h
  split at h
  · rename_i hnone
    split at h
    · cases h
    · rename_i hend
      omega
  · obtain ⟨⟨body, last⟩, hbody, h⟩ := bind_eq_ok.mp h
    obtain ⟨-, -, rfl⟩ := take_eq_ok hbody
    dsimp only at h
    split at h
    · cases h
    · rename_i hend
      omega

/-- The errors of bytes that end too early or too late: `an xpc object is truncated` and
`the xpc wrapper has trailing bytes`. -/
def IsRefusal (e : Error) : Prop := e = truncated ∨ e = trailingBytes

/-- Bytes that begin as a wrapper does are that wrapper, or they are refused. -/
theorem parse_piece {bytes : Bytes} {wrapper : XpcWrapper}
    (h : parse bytes = .ok wrapper) {piece more tail : Bytes}
    (hpiece : piece ++ more = bytes ++ tail) :
    piece = bytes ∨ ∃ e, IsRefusal e ∧ parse piece = .error (.error e) := by
  obtain ⟨flags, length, messageId, hheader, hlength⟩ := header_of_parse h
  have hheader := stable_decodeHeader.extend _ tail _ _ _ hheader
  rw [← hpiece] at hheader
  by_cases hshort : piece.length < 24
  · have hfail := truncates_decodeHeader.short piece more 0 _ _ hheader
      (Nat.zero_le _) hshort
    refine .inr ⟨truncated, .inl rfl, ?_⟩
    rw [parse, hfail, error_bind]
  · rw [Nat.not_lt] at hshort
    have hwhole := truncates_decodeHeader.whole piece more 0 _ _ hheader hshort
    have hsame : piece.length = 24 + length → piece = bytes := fun heq =>
      (List.append_inj hpiece (heq.trans hlength.symm)).1
    rw [parse, hwhole, ok_bind]
    dsimp only
    by_cases hnone : length = 0
    · rw [if_pos hnone]
      by_cases hend : piece.length = 24
      · exact .inl (hsame (by omega))
      · rw [if_pos (fun heq => hend heq.symm)]
        exact .inr ⟨trailingBytes, .inr rfl, rfl⟩
    · rw [if_neg hnone]
      by_cases hlt : piece.length < 24 + length
      · rw [take_of_lt ⟨piece, 24⟩ hlt (Nat.pos_of_ne_zero hnone), error_bind]
        exact .inr ⟨truncated, .inl rfl, rfl⟩
      · rw [Nat.not_lt] at hlt
        rw [take_of_le ⟨piece, 24⟩ hlt, ok_bind]
        dsimp only
        by_cases hend : piece.length = 24 + length
        · exact .inl (hsame hend)
        · rw [if_pos (fun heq => hend heq.symm)]
          exact .inr ⟨trailingBytes, .inr rfl, rfl⟩

end Ioscpp.Protocol.XpcWrapper
