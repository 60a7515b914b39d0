import Ioscpp.Protocol.BinaryPlistUnfold
import Ioscpp.Protocol.Cdtunnel
import Ioscpp.Protocol.Dtx
import Ioscpp.Protocol.JsonRoundTrip
import Ioscpp.Protocol.KeyedArchive
import Ioscpp.Support.Settled

/-!
# Parsers that end on all bytes

JSON, the tunnel's answer, keyed archives and DTX messages are parsed to a value or
to an error, whatever the bytes are: the loops and the recursion take no more turns
than they have, and nothing is read outside the bytes.

## Main results

- `Json.settled_parse`, `CdtunnelResponse.settled_parse`: every text.
- `KeyedArchive.settled_unarchive`, `Dtx.settled_parse`: every sequence of bytes.
-/

namespace Ioscpp.Protocol

open Ioscpp.Support

/-! ## JSON -/

namespace Json.JsonParser

variable {α β : Type} {text : Bytes}

theorem shortens_fail (message : String) (least : Nat) :
    Shortens least (fail message : JsonParser α) text := .inr ⟨_, rfl⟩

theorem shortens_skipWhitespace : Shortens 0 skipWhitespace text :=
  .inl ⟨(), _, rfl, (List.dropWhile_sublist _).length_le⟩

theorem shortens_advance (count : Nat) : Shortens 0 (advance count) text := by
  refine .inl ⟨(), text.drop count, rfl, ?_⟩
  rw [List.length_drop]
  omega

/-- The next character is there when it is not a zero. -/
theorem shortens_advance_one (h : text.headD 0 ≠ 0) : Shortens 1 (advance 1) text := by
  cases text with
  | nil => exact absurd rfl h
  | cons c rest => exact .inl ⟨(), rest, rfl, le_rfl⟩

theorem shortens_peek_bind {f : UInt8 → JsonParser β}
    (h : Shortens 0 (f (text.headD 0)) text) : Shortens 0 (peek >>= f) text := h

theorem shortens_get_bind {f : Bytes → JsonParser β} (h : Shortens 0 (f text) text) :
    Shortens 0 (get >>= f) text := h

theorem shortens_parseHex4 : Shortens 0 parseHex4 text := by
  apply shortens_get_bind
  apply Shortens.ite
  · intro _
    exact shortens_fail _ 0
  · intro _
    cases hexValue (text.take 4) with
    | none => exact shortens_fail _ 0
    | some value => exact (shortens_advance 4).bind fun _ _ _ => shortens_pure value

/-- An escape that is no low surrogate is read and left. -/
theorem shortens_codePoint (high : Nat) : Shortens 0 (codePoint high) text := by
  apply shortens_get_bind
  apply Shortens.ite
  · intro _
    have hdrop : (text.drop 2).length ≤ text.length := by
      rw [List.length_drop]
      omega
    have hadvance : advance 2 text = .ok ((), text.drop 2) := rfl
    rcases @shortens_parseHex4 (text.drop 2) with ⟨low, rest, hrun, hle⟩ | ⟨e, hrun⟩
    · by_cases hlow : 0xdc00 ≤ low ∧ low ≤ 0xdfff
      · refine .inl ⟨0x10000 + ((high - 0xd800) <<< 10) + (low - 0xdc00), rest, ?_,
          by omega⟩
        rw [bind_apply, hadvance, ok_bind, bind_apply, hrun, ok_bind, if_pos hlow]
        rfl
      · refine .inl ⟨high, text, ?_, le_rfl⟩
        rw [bind_apply, hadvance, ok_bind, bind_apply, hrun, ok_bind, if_neg hlow]
        rfl
    · refine .inr ⟨e, ?_⟩
      rw [bind_apply, hadvance, ok_bind, bind_apply, hrun]
      rfl
  · intro _
    exact shortens_pure high

theorem shortens_parseEscape (c : UInt8) : Shortens 0 (parseEscape c) text := by
  unfold parseEscape
  split
  case h_9 =>
    apply shortens_parseHex4.bind
    intro high rest _
    apply (shortens_codePoint high).bind
    intro codePoint rest _
    exact shortens_pure _
  case h_10 => exact shortens_fail _ 0
  all_goals exact shortens_pure _

/-- Each turn of the loop takes a character. -/
theorem shortens_parseCharacters {fuel : Nat} (out : Bytes)
    (hfuel : text.length < fuel) : Shortens 0 (parseCharacters fuel out) text := by
  induction fuel generalizing text out with
  | zero => omega
  | succ fuel ih =>
      cases text with
      | nil => exact shortens_fail _ 0
      | cons c rest =>
          rw [List.length_cons] at hfuel
          by_cases hquote : c = 0x22
          · subst hquote
            exact .inl ⟨out, rest, parseCharacters_quote fuel out rest, by simp⟩
          by_cases hslash : c = 0x5c
          · subst hslash
            cases rest with
            | nil => exact shortens_fail _ 0
            | cons c rest =>
                rw [List.length_cons] at hfuel
                rcases @shortens_parseEscape rest c with
                  ⟨bytes, rest', hescape, hle⟩ | ⟨e, hescape⟩
                · have hstep := parseCharacters_escape fuel out hescape
                  apply (ih (out ++ bytes) (by omega)).of_eq hstep
                  simp only [List.length_cons]
                  omega
                · refine .inr ⟨e, ?_⟩
                  show (parseEscape c >>= fun bytes =>
                    parseCharacters fuel (out ++ bytes)) rest = _
                  rw [bind_apply, hescape]
                  rfl
          · apply (ih (out ++ [c]) (by omega)).of_eq
              (parseCharacters_plain fuel out rest hquote hslash)
            simp

theorem shortens_parseString : Shortens 0 parseString text := by
  apply shortens_peek_bind
  apply Shortens.ite
  · intro _
    exact shortens_fail _ 0
  · intro _
    apply (shortens_advance 1).bind
    intro _ rest _
    exact shortens_get_bind (shortens_parseCharacters [] (Nat.lt_succ_self _))

/-! ### Values -/

theorem shortens_parseLiteral (literal : String) (value : Json) :
    Shortens 0 (parseLiteral literal value) text := by
  apply shortens_get_bind
  apply Shortens.ite
  · intro _
    exact (shortens_advance _).bind fun _ _ _ => shortens_pure value
  · intro _
    exact shortens_fail _ 0

theorem length_spanDigits (text : Bytes) :
    (spanDigits text).2.length ≤ text.length :=
  (List.dropWhile_sublist _).length_le

/-- What is left behind the token of a number is no more than the text. -/
theorem length_numberToken (text : Bytes) :
    (numberToken text).2.length ≤ text.length := by
  have hwhole {more : Bytes} (hmore : more.length ≤ text.length) :
      (spanDigits more).2.length ≤ text.length :=
    (length_spanDigits more).trans hmore
  unfold numberToken
  dsimp only
  split
  · rename_i c rest hrest
    have hbound : (c :: rest).length ≤ text.length := by
      rw [← hrest]
      clear hrest
      split
      · rename_i fraction hfraction
        have hdot : (0x2e :: fraction).length ≤ text.length := by
          rw [← hfraction]
          split
          · exact hwhole (by simp)
          · exact hwhole le_rfl
        rw [List.length_cons] at hdot
        exact hwhole (by omega)
      · split
        · exact hwhole (by simp)
        · exact hwhole le_rfl
    rw [List.length_cons] at hbound
    split
    · split
      · split
        · rw [List.length_cons] at hbound
          exact hwhole (by omega)
        · exact hwhole (by omega)
      · exact Nat.zero_le _
    · rw [hrest]
      exact hbound
  · exact Nat.zero_le _

theorem shortens_parseNumber : Shortens 0 parseNumber text := by
  apply shortens_get_bind
  have hle := length_numberToken text
  generalize numberToken text = parsed at hle ⊢
  obtain ⟨token, rest⟩ := parsed
  dsimp only at hle ⊢
  cases fromChars token with
  | none => exact shortens_fail _ 0
  | some bits => exact .inl ⟨Json.number bits, rest, rfl, hle⟩

/-- The parsers end when there are two turns for each character: a value in a
container takes a turn for the value and one of the container's loop. -/
def Ending (fuel : Nat) : Prop :=
  (∀ text, 2 * text.length + 1 ≤ fuel → Shortens 0 (parseValue fuel) text) ∧
  (∀ members text, 2 * text.length + 2 ≤ fuel →
    Shortens 0 (parseMembers fuel members) text) ∧
  ∀ elements text, 2 * text.length + 2 ≤ fuel →
    Shortens 0 (parseElements fuel elements) text

theorem shortens_parseValue {fuel : Nat} (hending : Ending fuel)
    (hfuel : 2 * text.length + 1 ≤ fuel + 1) :
    Shortens 0 (parseValue (fuel + 1)) text := by
  obtain ⟨-, hmembers, helements⟩ := hending
  rw [parseValue]
  apply shortens_peek_bind
  split
  case h_1 h =>
    apply (shortens_advance_one (by rw [h]; decide)).bind
    intro _ rest hrest
    apply shortens_skipWhitespace.bind
    intro _ rest' hrest'
    apply shortens_peek_bind
    apply Shortens.ite
    · intro _
      exact (shortens_advance 1).bind fun _ _ _ => shortens_pure _
    · intro _
      exact hmembers [] rest' (by omega)
  case h_2 h =>
    apply (shortens_advance_one (by rw [h]; decide)).bind
    intro _ rest hrest
    apply shortens_skipWhitespace.bind
    intro _ rest' hrest'
    apply shortens_peek_bind
    apply Shortens.ite
    · intro _
      exact (shortens_advance 1).bind fun _ _ _ => shortens_pure _
    · intro _
      exact helements [] rest' (by omega)
  case h_3 =>
    apply shortens_parseString.bind
    intro text rest _
    exact shortens_pure (Json.string text)
  case h_4 => exact shortens_parseLiteral _ _
  case h_5 => exact shortens_parseLiteral _ _
  case h_6 => exact shortens_parseLiteral _ _
  case h_7 => exact shortens_parseNumber

theorem shortens_parseElements {fuel : Nat} (hending : Ending fuel)
    (elements : List Json) (hfuel : 2 * text.length + 2 ≤ fuel + 1) :
    Shortens 0 (parseElements (fuel + 1) elements) text := by
  obtain ⟨hvalue, -, helements⟩ := hending
  rw [parseElements]
  apply shortens_skipWhitespace.bind
  intro _ rest hrest
  apply (hvalue rest (by omega)).bind
  intro value rest' hrest'
  apply shortens_skipWhitespace.bind
  intro _ rest hrest
  apply shortens_peek_bind
  split
  case h_1 h =>
    apply (shortens_advance_one (by rw [h]; decide)).bind
    intro _ last hlast
    exact helements _ last (by omega)
  case h_2 => exact (shortens_advance 1).bind fun _ _ _ => shortens_pure _
  case h_3 => exact shortens_fail _ 0

theorem shortens_parseMembers {fuel : Nat} (hending : Ending fuel)
    (members : List (Bytes × Json)) (hfuel : 2 * text.length + 2 ≤ fuel + 1) :
    Shortens 0 (parseMembers (fuel + 1) members) text := by
  obtain ⟨hvalue, hmembers, -⟩ := hending
  rw [parseMembers]
  apply shortens_skipWhitespace.bind
  intro _ before hbefore
  apply shortens_parseString.bind
  intro key afterKey hafterKey
  apply shortens_skipWhitespace.bind
  intro _ colon hcolon
  apply shortens_peek_bind
  apply Shortens.ite
  · intro _
    exact shortens_fail _ 0
  intro _
  apply (shortens_advance 1).bind
  intro _ afterColon hafterColon
  apply shortens_skipWhitespace.bind
  intro _ rest hrest
  apply (hvalue rest (by omega)).bind
  intro value rest' hrest'
  apply shortens_skipWhitespace.bind
  intro _ rest hrest
  apply shortens_peek_bind
  split
  case h_1 h =>
    apply (shortens_advance_one (by rw [h]; decide)).bind
    intro _ last hlast
    exact hmembers _ last (by omega)
  case h_2 => exact (shortens_advance 1).bind fun _ _ _ => shortens_pure _
  case h_3 => exact shortens_fail _ 0

theorem ending (fuel : Nat) : Ending fuel := by
  induction fuel with
  | zero =>
      refine ⟨?_, ?_, ?_⟩
      · intro text hfuel
        omega
      · intro members text hfuel
        omega
      · intro elements text hfuel
        omega
  | succ fuel ih =>
      exact ⟨fun text => shortens_parseValue ih,
        fun members text => shortens_parseMembers ih members,
        fun elements text => shortens_parseElements ih elements⟩

end Json.JsonParser

open Json.JsonParser in
theorem Json.settled_parse (text : Bytes) : Settled (Json.parse text) := by
  have hvalue : Shortens 0 (do
      skipWhitespace
      let value ← parseValue (2 * text.length + 1)
      skipWhitespace
      return value : JsonParser Json) text := by
    apply shortens_skipWhitespace.bind
    intro _ rest hrest
    apply ((ending _).1 rest (by omega)).bind
    intro value rest' _
    exact shortens_skipWhitespace.bind fun _ _ _ => shortens_pure value
  apply hvalue.settled.bind
  intro parsed _
  exact Settled.ite (settled_error _) (settled_ok _)

theorem CdtunnelResponse.settled_parse (undefined : UInt64 → UInt16) (json : Bytes) :
    Settled (CdtunnelResponse.parse undefined json) := by
  have hrequired : ∀ {α : Type} (field : Option α) (message : String),
      Settled (required field message) := by
    intro α field message
    cases field with
    | none => exact settled_error _
    | some value => exact settled_ok value
  apply (Json.settled_parse json).bind
  intro parsed _
  apply (hrequired _ _).bind
  intro client _
  apply (hrequired _ _).bind
  intro clientAddress _
  apply (hrequired _ _).bind
  intro clientMtu _
  apply (hrequired _ _).bind
  intro serverAddress _
  apply (hrequired _ _).bind
  intro serverRsdPort _
  exact settled_ok _

/-! ## Keyed archives -/

namespace KeyedArchive

open Plist

section Resolver

variable {f : Plist → Result Plist} (hf : ∀ value, Settled (f value))

include hf

theorem settled_items (refs : List Plist) :
    Settled (refs.mapM f >>= fun items => (.ok (.array items) : Result Plist)) :=
  (settled_mapM hf refs).bind fun _ _ => settled_ok _

theorem settled_resolveEntries (pairs : List (Plist × Plist))
    (entries : List (Bytes × Plist)) : Settled (resolveEntries f pairs entries) := by
  induction pairs generalizing entries with
  | nil => exact settled_ok entries
  | cons pair rest ih =>
      apply (hf pair.1).bind
      intro key _
      apply (hf pair.2).bind
      intro item _
      exact ih _

theorem settled_resolveObject (objects : List Plist) (value : Plist) :
    Settled (resolveObject objects f value) := by
  unfold resolveObject
  split
  · split
    · exact settled_error _
    · exact hf _
  · exact settled_items hf _
  · split
    · exact settled_ok _
    · split
      · exact settled_error _
      · dsimp only
        split
        · split
          · exact settled_error _
          · exact settled_items hf _
        split
        · split
          · split
            · exact settled_error _
            · exact (settled_resolveEntries hf _ _).bind fun _ _ => settled_ok _
          · exact settled_error _
        · exact settled_ok _
    · exact settled_error _
  · exact settled_ok _

end Resolver

theorem settled_resolve (objects : List Plist) (levels : Nat) (value : Plist) :
    Settled (resolve objects levels value) := by
  induction levels generalizing value with
  | zero => exact settled_error tooDeep
  | succ levels ih => exact settled_resolveObject ih objects value

theorem settled_unarchive (bytes : Bytes) : Settled (unarchive bytes) := by
  have hparse : Settled (parseBinary bytes) := by
    rw [parseBinary_eq_unfold]
    exact unfoldBinary_outcome bytes
  apply hparse.bind
  intro parsed _
  unfold unarchiveParsed
  split
  · exact settled_error _
  split
  · split
    · exact settled_error _
    split
    · exact settled_error _
    split
    · exact settled_resolve _ _ _
    · exact settled_error _
  · exact settled_error _

end KeyedArchive

/-! ## DTX messages -/

namespace Dtx

open Reading

variable {room : Nat}

/-- A value is read from its type on, which has four bytes. -/
theorem past_decodeValue (reader : Cursor) :
    (∃ value last, decodeValue reader = .ok (value, last) ∧
      last.bytes = reader.bytes ∧ last.Inside ∧ reader.offset + 4 ≤ last.offset) ∨
      ∃ e, decodeValue reader = .error (.error e) := by
  have hroom : reader.bytes.length ≤ reader.offset + reader.bytes.length := by omega
  refine Settles.past_word (by decide) (fun type => ?_) hroom
  split
  · exact settles_pure _
  · exact (settles_word _ (by decide)).bind fun _ => settles_pure _
  · exact (settles_word _ (by decide)).bind fun _ => settles_pure _
  · exact (settles_word _ (by decide)).bind fun _ => settles_pure _
  · apply (settles_word _ (by decide)).bind
    intro length
    exact (settles_take _ length).bind fun _ => settles_pure _
  · apply (settles_word _ (by decide)).bind
    intro length
    exact (settles_take _ length).bind fun _ => settles_pure _
  · exact settles_fail _

/-- Each turn of the loop takes eight bytes at least. -/
theorem settled_decodeEntries {fuel : Nat} {entries : Cursor}
    (auxiliary : List DtxValue)
    (hfuel : entries.bytes.length ≤ entries.offset + fuel) :
    Settled (decodeEntries fuel entries auxiliary) := by
  induction fuel generalizing entries auxiliary with
  | zero =>
      rw [decodeEntries, if_neg (by omega)]
      exact settled_ok auxiliary
  | succ fuel ih =>
      rw [decodeEntries]
      split
      · rcases past_decodeValue entries with ⟨key, first, hkey, hbytes, -, hle⟩ |
          ⟨e, hkey⟩
        · rw [hkey, ok_bind]
          rcases past_decodeValue first with ⟨value, last, hvalue, hbytes', -, hle'⟩ |
            ⟨e, hvalue⟩
          · dsimp only
            rw [hvalue, ok_bind]
            apply ih
            rw [hbytes', hbytes]
            show entries.bytes.length ≤ last.offset + fuel
            omega
          · dsimp only
            rw [hvalue]
            exact settled_error e
        · rw [hkey]
          exact settled_error e
      · exact settled_ok auxiliary

theorem settles_decodeAuxiliary : Settles room decodeAuxiliary := by
  apply (settles_word _ (by decide)).bind
  intro magic
  apply Settles.ite
  · exact settles_fail _
  apply (settles_take _ 4).bind
  intro _
  apply (settles_word _ (by decide)).bind
  intro bodyLength
  apply (settles_take _ bodyLength).bind
  intro body
  apply settles_lift
  exact settled_decodeEntries [] (Nat.le_add_left _ _)

theorem settles_parseHeaderSize : Settles room parseHeaderSize := by
  apply (settles_word _ (by decide)).bind
  intro magic
  apply Settles.ite
  · exact settles_fail _
  apply (settles_word _ (by decide)).bind
  intro headerSize
  apply Settles.ite
  · exact settles_fail _
  apply Settles.ite
  · exact (settles_take _ _).bind fun _ => settles_pure _
  · exact settles_pure _

theorem settles_parseHeader : Settles room parseHeader := by
  apply (settles_word _ (by decide)).bind
  intro fragmentIndex
  apply (settles_word _ (by decide)).bind
  intro fragmentCount
  apply Settles.ite
  · exact settles_fail _
  apply (settles_word _ (by decide)).bind
  intro messageLength
  apply Settles.ite
  · exact settles_fail _
  apply (settles_word _ (by decide)).bind
  intro identifier
  apply (settles_word _ (by decide)).bind
  intro conversationIndex
  apply (settles_word _ (by decide)).bind
  intro channelCode
  exact (settles_word _ (by decide)).bind fun _ => settles_pure _

theorem settles_parsePayload (messageLength : Nat) :
    Settles room (parsePayload messageLength) := by
  have hheader : Settles room parsePayloadHeader := by
    apply (settles_word _ (by decide)).bind
    intro messageType
    apply (settles_take _ 3).bind
    intro _
    apply (settles_word _ (by decide)).bind
    intro auxiliarySize
    apply (settles_word _ (by decide)).bind
    intro totalSize
    exact (settles_take _ 4).bind fun _ => settles_pure _
  apply hheader.bind
  intro sizes
  apply Settles.ite
  · exact settles_fail _
  apply Settles.ite
  · exact settles_fail _
  apply Settles.ite
  · apply settles_decodeAuxiliary.bind
    intro auxiliary
    exact (settles_take _ _).bind fun _ => settles_pure _
  · apply (settles_pure []).bind
    intro auxiliary
    exact (settles_take _ _).bind fun _ => settles_pure _

theorem settled_parse (bytes : Bytes) : Settled (Dtx.parse bytes) := by
  have hmessage : Settles bytes.length parseMessage := by
    apply settles_parseHeaderSize.bind
    intro _
    apply settles_parseHeader.bind
    intro header
    exact (settles_parsePayload _).bind fun _ => settles_pure _
  apply ((hmessage ⟨bytes, 0⟩ (Nat.zero_le _) (Nat.le_add_left _ _)).settled).bind
  intro parsed _
  exact Settled.ite (settled_error _) (settled_ok _)

end Dtx

end Ioscpp.Protocol
