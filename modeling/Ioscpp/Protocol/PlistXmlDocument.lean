import Ioscpp.Protocol.PlistXmlGrammar

/-!
# XML documents

A document is a prolog with the open tag of `<plist>`, a value, and anything
after it: `parseXml` accepts these texts (`parseXml_eq_ok_iff`) and ends in a
protocol error on every other (`parseXml_ends`).  `Around` is a text with a hole
at one place of the grammar, and `Document` a whole document around it.

## Main results

- `parseXml_eq_ok_iff`: the texts that are accepted, and their values.
- `ends_parseXml`: every other text ends in a protocol error.
-/

namespace Ioscpp.Protocol.Plist

open Ioscpp.Support

namespace XmlParser

/-! ## The prolog -/

/-- What ends the declaration or comment that a text begins with. -/
def prologEnd (text : Bytes) : Option Bytes :=
  if (ascii "<?").isPrefixOf text then some (ascii ">")
  else if (ascii "<!--").isPrefixOf text then some (ascii "-->")
  else if (ascii "<!").isPrefixOf text then some (ascii ">")
  else none

theorem skipProlog_succ (fuel : Nat) (text : Bytes) :
    skipProlog (fuel + 1) text =
      match prologEnd (text.dropWhile isSpace) with
      | some pattern =>
          skipProlog fuel (after pattern (text.dropWhile isSpace))
      | none => .ok ((), text.dropWhile isSpace) := by
  rw [skipProlog, bind_apply, prologEnd]
  change (if _ then _ else _ : XmlParser Unit) _ = _
  split_ifs <;> rfl

theorem prologEnd_ne_nil {text pattern : Bytes}
    (h : prologEnd text = some pattern) : pattern ≠ [] ∧ Solid text := by
  have hsolid : ∀ tail : Bytes, (0x3c :: tail).isPrefixOf text → Solid text := by
    intro tail hstarts
    obtain ⟨rest, rfl⟩ := List.isPrefixOf_iff_prefix.mp hstarts
    exact ⟨0x3c, _, rfl, rfl⟩
  rw [prologEnd] at h
  split_ifs at h with hquestion hcomment hbang
  · cases h
    exact ⟨List.cons_ne_nil _ _, hsolid _ hquestion⟩
  · cases h
    exact ⟨List.cons_ne_nil _ _, hsolid _ hcomment⟩
  · cases h
    exact ⟨List.cons_ne_nil _ _, hsolid _ hbang⟩

theorem isPrefixOf_append (token : Bytes) {text : Bytes}
    (h : token.length ≤ text.length) (rest : Bytes) :
    token.isPrefixOf (text ++ rest) = token.isPrefixOf text := by
  rw [Bool.eq_iff_iff, List.isPrefixOf_iff_prefix, List.isPrefixOf_iff_prefix]
  constructor
  · intro hstarts
    exact List.prefix_of_prefix_length_le hstarts (List.prefix_append _ _) h
  · intro hstarts
    exact hstarts.trans (List.prefix_append _ _)

/-- Four characters tell what a text begins with. -/
theorem prologEnd_append {text : Bytes} (h : 4 ≤ text.length) (rest : Bytes) :
    prologEnd (text ++ rest) = prologEnd text := by
  have htwo : 2 ≤ text.length := by omega
  rw [prologEnd, prologEnd, isPrefixOf_append (ascii "<?") htwo,
    isPrefixOf_append (ascii "<!--") h,
    isPrefixOf_append (ascii "<!") htwo]

/-- What is skipped, whatever follows. -/
def Skips (pre : Bytes) : Prop :=
  ∀ fuel tail, pre.length < fuel →
    skipProlog fuel (pre ++ (ascii "<plist" ++ tail)) =
      .ok ((), ascii "<plist" ++ tail)

theorem skips_spaces {s : Bytes} (hs : Spaces s) : Skips s := by
  intro fuel tail hfuel
  obtain ⟨fuel, rfl⟩ := Nat.exists_eq_add_one_of_ne_zero (n := fuel) (by omega)
  have hsolid : Solid (ascii "<plist" ++ tail) := ⟨0x3c, _, rfl, rfl⟩
  rw [skipProlog_succ, dropWhile_spaces hs hsolid]
  rfl

theorem skips_declaration {s before pattern pre : Bytes} (hs : Spaces s)
    (hend : prologEnd (before ++ (pattern ++ (pre ++ ascii "<plist"))) =
      some pattern)
    (hcut : cutAt pattern (before ++ (pattern ++ [])) = some (before, []))
    (hpre : Skips pre) : Skips (s ++ (before ++ (pattern ++ pre))) := by
  intro fuel tail hfuel
  obtain ⟨hpattern, hsolid⟩ := prologEnd_ne_nil hend
  have hlen := List.length_pos_iff.mpr hpattern
  simp only [List.length_append] at hfuel
  obtain ⟨fuel, rfl⟩ := Nat.exists_eq_add_one_of_ne_zero (n := fuel) (by omega)
  have htext : s ++ (before ++ (pattern ++ pre)) ++ (ascii "<plist" ++ tail) =
      s ++ (before ++ (pattern ++ (pre ++ ascii "<plist")) ++ tail) := by
    simp only [List.append_assoc]
  have hfour : 4 ≤ (before ++ (pattern ++ (pre ++ ascii "<plist"))).length := by
    have hsix : (ascii "<plist").length = 6 := rfl
    simp only [List.length_append]
    omega
  rw [htext, skipProlog_succ, dropWhile_spaces hs (hsolid.append tail),
    prologEnd_append hfour, hend]
  simp only [List.append_assoc]
  rw [after, cutAt_append_rest hpattern [] _ hcut]
  exact hpre fuel tail (by omega)

/-- A prolog that is skipped up to `<plist` is skipped whatever follows. -/
theorem skips_of_skipProlog {fuel : Nat} {text s tail : Bytes} (hs : Spaces s)
    (h : skipProlog fuel text = .ok ((), s ++ (ascii "<plist" ++ tail))) :
    ∃ pre, Skips pre ∧ text = pre ++ (ascii "<plist" ++ tail) := by
  induction fuel generalizing text with
  | zero => cases h
  | succ fuel ih =>
      obtain ⟨s', hs', htext⟩ := eq_spaces_append text
      rw [skipProlog_succ] at h
      cases hend : prologEnd (text.dropWhile isSpace) with
      | none =>
          rw [hend] at h
          have hdrop : text.dropWhile isSpace = s ++ (ascii "<plist" ++ tail) :=
            (Prod.mk.inj (Except.ok.inj h)).2
          refine ⟨s' ++ s, skips_spaces (hs'.append hs), ?_⟩
          rw [List.append_assoc, ← hdrop]
          exact htext
      | some pattern =>
          obtain ⟨hpattern, -⟩ := prologEnd_ne_nil hend
          rw [hend] at h
          obtain ⟨pre, hskips, hafter⟩ := ih h
          rw [after] at hafter
          cases hcut : cutAt pattern (text.dropWhile isSpace) with
          | none =>
              rw [hcut] at hafter
              exact absurd hafter.symm (by simp [ascii])
          | some parts =>
              obtain ⟨before, rest⟩ := parts
              have hdrop := eq_of_cutAt hpattern hcut
              rw [hcut] at hafter
              simp only at hafter
              rw [hdrop] at hcut hend
              rw [hafter] at hdrop hend
              refine ⟨s' ++ (before ++ (pattern ++ pre)),
                skips_declaration hs' ?_ (cutAt_append_rest hpattern _ [] hcut)
                  hskips, ?_⟩
              · rw [← hend]
                have hfour : 4 ≤
                    (before ++ (pattern ++ (pre ++ ascii "<plist"))).length := by
                  have hsix : (ascii "<plist").length = 6 := rfl
                  simp only [List.length_append]
                  omega
                rw [← prologEnd_append hfour tail]
                simp only [List.append_assoc]
              · rw [htext, hdrop]
                simp only [List.append_assoc]

/-! ## The open tag of the document -/

/-- Reads the prolog and the open tag of `<plist>`. -/
def opening (fuel : Nat) : XmlParser Unit := do
  skipProlog fuel
  if ← consume (ascii "<plist") then skipTo 0x3e
  else fail "the plist has no <plist> element"

theorem parse_apply (fuel : Nat) (text : Bytes) :
    parse fuel text = opening fuel text >>= fun x => parseValue fuel x.2 := by
  rw [parse, opening, bind_apply, bind_apply]
  cases skipProlog fuel text with
  | error fault => rfl
  | ok x =>
      rw [ok_bind, ok_bind, bind_apply, bind_apply]
      cases consume (ascii "<plist") x.2 with
      | error fault => rfl
      | ok y =>
          obtain ⟨found, rest⟩ := y
          cases found <;> rfl

/-- The text before the value of a document. -/
def Opens (pre : Bytes) : Prop :=
  ∀ fuel tail, pre.length < fuel → opening fuel (pre ++ tail) = .ok ((), tail)

theorem opens_of_skips {pre attributes : Bytes} (hpre : Skips pre)
    (hcut : cutAt (ascii ">") (attributes ++ (ascii ">" ++ [])) =
      some (attributes, [])) :
    Opens (pre ++ (ascii "<plist" ++ (attributes ++ ascii ">"))) := by
  intro fuel tail hfuel
  have hplist : Solid (ascii "<plist") := ⟨0x3c, _, rfl, rfl⟩
  have hconsume := consume_of_spaces spaces_nil hplist
    (attributes ++ (ascii ">" ++ tail))
  have hangle : ascii ">" ≠ [] := List.cons_ne_nil _ _
  have hrest := cutAt_append_rest hangle [] tail hcut
  simp only [List.length_append] at hfuel
  simp only [List.append_assoc]
  rw [List.nil_append] at hconsume
  rw [opening, bind_apply, hpre fuel _ (by omega), ok_bind, bind_apply, hconsume,
    ok_bind, if_pos rfl]
  change Except.ok ((), after (ascii ">") (attributes ++ (ascii ">" ++ tail))) = _
  rw [after, hrest]

/-- An opening with something after it is one whatever follows. -/
theorem opens_of_opening {fuel : Nat} {text tail : Bytes} (htail : tail ≠ [])
    (h : opening fuel text = .ok ((), tail)) :
    ∃ pre, Opens pre ∧ text = pre ++ tail := by
  rw [opening, bind_apply, bind_eq_ok] at h
  obtain ⟨⟨⟨⟩, text'⟩, hskip, h⟩ := h
  rw [bind_apply, bind_eq_ok] at h
  obtain ⟨⟨found, text''⟩, hconsume, h⟩ := h
  cases found with
  | false => cases h
  | true =>
      obtain ⟨s, hs, rfl⟩ := spaces_of_consume hconsume
      obtain ⟨pre, hpre, htext⟩ := skips_of_skipProlog hs hskip
      have hafter : after (ascii ">") text'' = tail :=
        (Prod.mk.inj (Except.ok.inj h)).2
      have hangle : ascii ">" ≠ [] := List.cons_ne_nil _ _
      rw [after] at hafter
      cases hcut : cutAt (ascii ">") text'' with
      | none =>
          rw [hcut] at hafter
          exact absurd hafter.symm htail
      | some parts =>
          obtain ⟨attributes, rest⟩ := parts
          rw [hcut] at hafter
          simp only at hafter
          have hrest := eq_of_cutAt hangle hcut
          rw [hrest] at hcut
          refine ⟨_, opens_of_skips hpre
            (cutAt_append_rest hangle rest [] hcut), ?_⟩
          rw [htext, hrest, hafter]
          simp only [List.append_assoc]

end XmlParser

open XmlParser

/-- The texts that are accepted, and their values: what opens a document, a value as the
grammar has it, and anything behind it. -/
theorem parseXml_eq_ok_iff {text : Bytes} {value : Plist} :
    parseXml text = .ok value ↔
      ∃ pre used rest, Opens pre ∧ XmlParser.Written (.value value) used ∧
        text = pre ++ (used ++ rest) := by
  rw [parseXml, parse_apply, bind_eq_ok]
  constructor
  · rintro ⟨⟨value', rest⟩, h, hvalue⟩
    cases hvalue
    obtain ⟨⟨⟨⟩, text'⟩, hopening, hparse⟩ := bind_eq_ok.mp h
    obtain ⟨used, hwritten, htext'⟩ := (sound _).1 _ _ _ hparse
    have hne : text' ≠ [] := by
      rw [show text' = used ++ rest from htext']
      exact List.append_ne_nil_of_left_ne_nil hwritten.ne_nil _
    obtain ⟨pre, hpre, htext⟩ := opens_of_opening hne hopening
    exact ⟨pre, used, rest, hpre, hwritten, by rw [htext, ← htext']⟩
  · rintro ⟨pre, used, rest, hpre, hwritten, rfl⟩
    have hlen : (pre ++ (used ++ rest)).length =
        pre.length + (used.length + rest.length) := by
      rw [List.length_append, List.length_append]
    refine ⟨(value, rest), ?_, rfl⟩
    rw [hpre _ _ (by omega), ok_bind]
    exact accepts hwritten _ rest (by omega)

/-! ## Every text ends -/

/-- A computation that returns a value or a protocol error. -/
def Ends {α : Type} (result : Result α) : Prop :=
  (∃ x, result = .ok x) ∨ result.IsProtocolError

theorem ends_ok {α : Type} (x : α) : Ends (.ok x) := .inl ⟨x, rfl⟩

theorem ends_protocolError {α : Type} (message : String) :
    Ends (.error (.error (protocolError message)) : Result α) :=
  .inr ⟨_, rfl⟩

theorem ends_fail {α : Type} (message : String) (text : Bytes) :
    Ends (fail message text : Result (α × Bytes)) := ends_protocolError message

theorem Ends.bind {α β : Type} {result : Result α} {f : α → Result β}
    (h : Ends result) (hf : ∀ x, result = .ok x → Ends (f x)) :
    Ends (result >>= f) := by
  rcases h with ⟨x, rfl⟩ | ⟨message, rfl⟩
  · exact hf x rfl
  · exact .inr ⟨message, rfl⟩

theorem ends_base64Decode (text : Bytes) : Ends (base64Decode text) := by
  suffices h : ∀ buffer bits out, Ends (base64Loop buffer bits out text) from
    h 0 0 []
  intro buffer bits out
  induction text generalizing buffer bits out with
  | nil => exact ends_ok _
  | cons c text ih =>
      rw [base64Loop]
      split
      · exact ends_ok _
      · split
        · exact ih _ _ _
        · split
          · exact ends_protocolError _
          · dsimp only
            split
            · exact ih _ _ _
            · exact ih _ _ _

theorem ends_parseDate (text : Bytes) : Ends (parseDate text) := by
  rw [parseDate]
  split
  · exact ends_protocolError _
  · split
    · exact ends_ok _
    · exact ends_protocolError _

theorem ends_decode (kind : Scalar) (body : Bytes) : Ends (kind.decode body) := by
  cases kind with
  | integer => exact ends_ok _
  | real => exact ends_ok _
  | string => exact ends_ok _
  | data => exact (ends_base64Decode _).bind fun data _ => ends_ok _
  | date => exact (ends_parseDate _).bind fun seconds _ => ends_ok _

namespace XmlParser

theorem ends_consume (token text : Bytes) : Ends (consume token text) := by
  rcases consume_cases token text with ⟨rest, h⟩ | h
  · exact .inl ⟨_, h⟩
  · exact .inl ⟨_, h⟩

theorem ends_readBody (name : String) (text : Bytes) :
    Ends (readBody name text) := by
  rw [readBody, bind_apply]
  refine (ends_consume _ _).bind ?_
  rintro ⟨found, text'⟩ -
  cases found with
  | true => exact ends_ok _
  | false =>
      rw [if_neg Bool.false_ne_true, bind_apply]
      refine (ends_consume _ _).bind ?_
      rintro ⟨closed, text''⟩ -
      cases closed with
      | false => exact ends_fail _ text''
      | true =>
          rw [if_pos rfl, get_bind_apply]
          cases cutAt (closeTag name) text'' with
          | none => exact ends_fail _ text''
          | some parts => exact ends_ok _

theorem ends_bodyOf (name : String) (text : Bytes) :
    Ends (bodyOf name text) := by
  rw [bodyOf, bind_apply]
  refine (ends_consume _ _).bind ?_
  rintro ⟨found, text'⟩ -
  cases found with
  | true => exact ends_readBody name text'
  | false => exact ends_fail _ text'

theorem ends_readScalar (kind : Scalar) (text : Bytes) :
    Ends (readScalar kind text) := by
  refine (ends_bodyOf _ _).bind fun x _ => ?_
  exact (ends_decode kind x.1).bind fun value _ => ends_ok _

theorem ends_openContainer (name message : String) (text : Bytes) :
    Ends (openContainer name message text) := by
  rw [openContainer, bind_apply]
  refine (ends_consume _ _).bind ?_
  rintro ⟨found, text'⟩ -
  cases found with
  | false => exact ends_fail _ text'
  | true =>
      rw [if_pos rfl, bind_apply]
      refine (ends_consume _ _).bind ?_
      rintro ⟨closed, text''⟩ -
      cases closed with
      | false => exact ends_fail _ text''
      | true => exact ends_ok _

/-- The inside of a container is two characters shorter at least. -/
theorem ends_readContainer {α : Type} {name message : String}
    {inside : XmlParser α} {wrap : α → Plist} {text : Bytes}
    (h : ∀ within, within.length + 2 ≤ text.length → Ends (inside within)) :
    Ends (readContainer name message inside wrap text) := by
  refine (ends_openContainer _ _ _).bind ?_
  rintro ⟨⟨⟩, within⟩ hopen
  obtain ⟨s, s', -, -, htext⟩ := openAngle_of_openContainer hopen
  refine (h within ?_).bind fun x _ => ends_ok _
  have hopenTag : (openTag name).length = (ascii name).length + 1 :=
    List.length_cons
  have hangle : (ascii ">").length = 1 := rfl
  rw [htext, openAngle_append]
  simp only [List.length_append]
  omega

/-- The parsers end when the fuel is more than the text. -/
def Ending (fuel : Nat) : Prop :=
  (∀ text, text.length < fuel → Ends (parseValue fuel text)) ∧
  (∀ parsed text, text.length + 1 < fuel →
    Ends (parseItems fuel parsed text)) ∧
  ∀ map text, text.length + 1 < fuel → Ends (parseEntries fuel map text)

theorem length_dropWhile_le (text : Bytes) :
    (text.dropWhile isSpace).length ≤ text.length :=
  (List.dropWhile_sublist isSpace).length_le

theorem ends_parseElement {fuel : Nat} (hending : Ending fuel) {text : Bytes}
    (hfuel : text.length ≤ fuel) :
    Ends (parseElement (parseItems fuel []) (parseEntries fuel []) text) := by
  obtain ⟨-, hitems, hentries⟩ := hending
  rw [parseElement_apply]
  split_ifs
  · exact ends_readScalar _ _
  · exact ends_readScalar _ _
  · exact ends_readScalar _ _
  · exact ends_readScalar _ _
  · exact ends_readScalar _ _
  · exact ends_readContainer fun within hwithin => hitems _ _ (by omega)
  · exact ends_readContainer fun within hwithin => hentries _ _ (by omega)
  · exact ends_fail _ _

theorem ends_parseValue {fuel : Nat} (hending : Ending fuel) {text : Bytes}
    (hfuel : text.length < fuel + 1) : Ends (parseValue (fuel + 1) text) := by
  have hdrop := length_dropWhile_le text
  rcases parseValue_cases fuel text with
    ⟨message, hfail⟩ | ⟨kind, after, -, hparse⟩ | helement
  · rw [hfail]
    exact ends_protocolError message
  · rw [hparse]
    exact ends_ok _
  · rw [helement]
    exact ends_parseElement hending (by omega)

theorem ends_parseItems {fuel : Nat} (hending : Ending fuel)
    {parsed : List Plist} {text : Bytes} (hfuel : text.length + 1 < fuel + 1) :
    Ends (parseItems (fuel + 1) parsed text) := by
  obtain ⟨hvalue, hitems, -⟩ := hending
  rw [parseItems_succ]
  refine (ends_consume _ _).bind ?_
  rintro ⟨found, text'⟩ hclose
  cases found with
  | true => exact ends_ok _
  | false =>
      have hdrop := length_dropWhile_le text
      rw [← eq_of_consume_false hclose] at hdrop
      refine (hvalue text' (by omega)).bind ?_
      rintro ⟨item, rest⟩ hitem
      obtain ⟨used, hwritten, htext⟩ := (sound fuel).1 _ _ _ hitem
      have hpos := List.length_pos_iff.mpr hwritten.ne_nil
      rw [htext, List.length_append] at hdrop
      exact hitems _ rest (by omega)

theorem ends_parseEntries {fuel : Nat} (hending : Ending fuel)
    {map : List (Bytes × Plist)} {text : Bytes}
    (hfuel : text.length + 1 < fuel + 1) :
    Ends (parseEntries (fuel + 1) map text) := by
  obtain ⟨hvalue, -, hentries⟩ := hending
  rw [parseEntries_succ]
  refine (ends_consume _ _).bind ?_
  rintro ⟨found, text'⟩ hclose
  cases found with
  | true => exact ends_ok _
  | false =>
      have hdrop := length_dropWhile_le text
      rw [← eq_of_consume_false hclose] at hdrop
      refine (ends_bodyOf _ _).bind ?_
      rintro ⟨key, afterKey⟩ hkey
      obtain ⟨keyUsed, -, hkeyText⟩ := tagged_of_bodyOf hkey
      simp only at hkeyText
      rw [hkeyText, List.length_append] at hdrop
      refine (hvalue afterKey (by omega)).bind ?_
      rintro ⟨item, rest⟩ hitem
      obtain ⟨used, hwritten, htext⟩ := (sound fuel).1 _ _ _ hitem
      have hpos := List.length_pos_iff.mpr hwritten.ne_nil
      rw [htext, List.length_append] at hdrop
      exact hentries _ rest (by omega)

theorem ending (fuel : Nat) : Ending fuel := by
  induction fuel with
  | zero =>
      refine ⟨?_, ?_, ?_⟩
      · intro text hfuel
        omega
      · intro parsed text hfuel
        omega
      · intro map text hfuel
        omega
  | succ fuel ih =>
      exact ⟨fun text => ends_parseValue ih, fun parsed text => ends_parseItems ih,
        fun map text => ends_parseEntries ih⟩

theorem length_after_lt {pattern text : Bytes} (hpattern : pattern ≠ [])
    (htext : text ≠ []) : (after pattern text).length < text.length := by
  rw [after]
  cases hcut : cutAt pattern text with
  | none => exact List.length_pos_iff.mpr htext
  | some parts =>
      obtain ⟨before, rest⟩ := parts
      have hpos := List.length_pos_iff.mpr hpattern
      rw [eq_of_cutAt hpattern hcut]
      simp only [List.length_append]
      omega

theorem length_after_le {pattern : Bytes} (hpattern : pattern ≠ [])
    (text : Bytes) : (after pattern text).length ≤ text.length := by
  by_cases htext : text = []
  · rw [htext, after, cutAt, if_neg (by simpa using hpattern)]
  · exact (length_after_lt hpattern htext).le

/-- The prolog is skipped, up to white space or an unknown character. -/
theorem skipProlog_eq_ok {fuel : Nat} {text : Bytes}
    (hfuel : text.length < fuel) :
    ∃ rest, skipProlog fuel text = .ok ((), rest) ∧
      rest.length ≤ text.length := by
  induction fuel generalizing text with
  | zero => omega
  | succ fuel ih =>
      have hdrop := length_dropWhile_le text
      rw [skipProlog_succ]
      cases hend : prologEnd (text.dropWhile isSpace) with
      | none => exact ⟨_, rfl, hdrop⟩
      | some pattern =>
          obtain ⟨hpattern, c, tail, hsolid, -⟩ := prologEnd_ne_nil hend
          have hlt := length_after_lt hpattern
            (show text.dropWhile isSpace ≠ [] by simp [hsolid])
          have hfuel' : (after pattern (text.dropWhile isSpace)).length <
              fuel := by omega
          obtain ⟨rest, hskip, hrest⟩ := ih hfuel'
          exact ⟨rest, hskip, by omega⟩

theorem opening_cases {fuel : Nat} {text : Bytes} (hfuel : text.length < fuel) :
    (∃ rest, opening fuel text = .ok ((), rest) ∧ rest.length ≤ text.length) ∨
      Result.IsProtocolError (opening fuel text) := by
  obtain ⟨text', hskip, hlen⟩ := skipProlog_eq_ok hfuel
  have hdrop := length_dropWhile_le text'
  rw [opening, bind_apply, hskip, ok_bind, bind_apply, consume_apply]
  split
  · refine .inl ⟨_, rfl, ?_⟩
    refine (length_after_le (List.cons_ne_nil _ _) _).trans ?_
    exact (List.drop_sublist _ _).length_le.trans (hdrop.trans hlen)
  · exact .inr ⟨_, rfl⟩

end XmlParser

/-- A text that is not accepted ends in a protocol error. -/
theorem ends_parseXml (text : Bytes) : Ends (parseXml text) := by
  have hfuel : text.length < text.length + 1 := Nat.lt_succ_self _
  rw [parseXml, parse_apply]
  rcases opening_cases hfuel with ⟨rest, hopening, hrest⟩ | ⟨message, herror⟩
  · rw [hopening, ok_bind]
    exact ((ending _).1 rest (by omega)).bind fun x _ => ends_ok x.1
  · rw [herror]
    exact .inr ⟨message, rfl⟩

/-! ## Places -/

namespace XmlParser

section Places

variable {ι : Type} (hole : (ι → Node) → (ι → Bytes) → Prop)

/-- A node with a hole at one place: what is read and its text, for each way to
fill the hole. -/
inductive Around : (ι → Node) → (ι → Bytes) → Prop where
  | here {node : ι → Node} {text : ι → Bytes} (h : hole node text) :
      Around node text
  | array {s s' : Bytes} {items : ι → List Plist} {text : ι → Bytes}
      (hs : Spaces s) (hs' : Spaces s')
      (hitems : Around (fun i => .items (items i)) text) :
      Around (fun i => .value (.array (items i)))
        fun i => openAngle "array" s s' ++ text i
  | dictionary {s s' : Bytes} {entries : ι → List (Bytes × Plist)}
      {text : ι → Bytes} (hs : Spaces s) (hs' : Spaces s')
      (hentries : Around (fun i => .entries (entries i)) text) :
      Around (fun i => .value (.dictionary (collect (entries i) [])))
        fun i => openAngle "dict" s s' ++ text i
  | item {item : ι → Plist} {text : ι → Bytes} {items : List Plist}
      {after : Bytes} (hitem : Around (fun i => .value (item i)) text)
      (hitems : Written (.items items) after) :
      Around (fun i => .items (item i :: items)) fun i => text i ++ after
  | items {item : Plist} {used : Bytes} {items : ι → List Plist}
      {text : ι → Bytes} (hitem : Written (.value item) used)
      (hitems : Around (fun i => .items (items i)) text) :
      Around (fun i => .items (item :: items i)) fun i => used ++ text i
  | entry {keyUsed key : Bytes} {item : ι → Plist} {text : ι → Bytes}
      {entries : List (Bytes × Plist)} {after : Bytes}
      (hkey : Tagged "key" keyUsed key)
      (hitem : Around (fun i => .value (item i)) text)
      (hentries : Written (.entries entries) after) :
      Around (fun i => .entries ((xmlUnescape key, item i) :: entries))
        fun i => keyUsed ++ (text i ++ after)
  | entries {keyUsed key used : Bytes} {item : Plist}
      {entries : ι → List (Bytes × Plist)} {text : ι → Bytes}
      (hkey : Tagged "key" keyUsed key) (hitem : Written (.value item) used)
      (hentries : Around (fun i => .entries (entries i)) text) :
      Around (fun i => .entries ((xmlUnescape key, item) :: entries i))
        fun i => keyUsed ++ (used ++ text i)

/-- A document with a hole at one place of its value. -/
def Document (value : ι → Plist) (text : ι → Bytes) : Prop :=
  ∃ (pre : Bytes) (used : ι → Bytes) (rest : Bytes), Opens pre ∧
    Around hole (fun i => .value (value i)) used ∧
    text = fun i => pre ++ (used i ++ rest)

variable {hole}

/-- What fills the hole with a text that is written gives one that is. -/
theorem Around.written {node : ι → Node} {text : ι → Bytes}
    (h : Around hole node text) (i : ι)
    (hfill : ∀ node text, hole node text → Written (node i) (text i)) :
    Written (node i) (text i) := by
  induction h with
  | here h => exact hfill _ _ h
  | array hs hs' _ ih => exact .array hs hs' ih
  | dictionary hs hs' _ ih => exact .dictionary hs hs' ih
  | item _ hitems ih => exact .itemsCons ih hitems
  | items hitem _ ih => exact .itemsCons hitem ih
  | entry hkey _ hentries ih => exact .entriesCons hkey ih hentries
  | entries hkey hitem _ ih => exact .entriesCons hkey hitem ih

theorem Document.parseXml_eq_ok {value : ι → Plist} {text : ι → Bytes}
    (h : Document hole value text) (i : ι)
    (hfill : ∀ node text, hole node text → Written (node i) (text i)) :
    parseXml (text i) = .ok (value i) := by
  obtain ⟨pre, used, rest, hpre, haround, rfl⟩ := h
  exact parseXml_eq_ok_iff.mpr
    ⟨pre, used i, rest, hpre, haround.written i hfill, rfl⟩

end Places

end XmlParser

end Ioscpp.Protocol.Plist
