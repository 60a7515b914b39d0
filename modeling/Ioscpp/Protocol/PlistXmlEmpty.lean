import Ioscpp.Protocol.PlistXmlDocument

/-!
# Empty elements

An empty element can be written as a pair of tags or as one tag that closes
itself.  The elements whose body is text are read in both spellings, for
`readBody` knows both.  The open tag of a container is read by other code, which
knows only the first: with `<array/>` or `<dict/>` a document is rejected
(`parseXml_selfClosing_iff`).

## Main results

- `node_emptyHole`: what is read of a text value does not depend on the spelling.
- `refuses_emptyHole`: a container that closes itself is refused where it stands.
- `parseXml_selfClosing_iff`: when the value stays as it is.
-/

namespace Ioscpp.Protocol.Plist

open Ioscpp.Support XmlParser

/-- The elements that can be empty. -/
inductive EmptyElement where
  | string
  | data
  | key
  | array
  | dict
  deriving DecidableEq

def EmptyElement.name : EmptyElement → String
  | .string => "string"
  | .data => "data"
  | .key => "key"
  | .array => "array"
  | .dict => "dict"

/-- The two spellings of an empty element. -/
inductive Spelling where
  | paired
  | selfClosing

def Spelling.text (name : String) : Spelling → Bytes
  | .paired => ascii "<" ++ ascii name ++ ascii ">" ++ closeTag name
  | .selfClosing => ascii "<" ++ ascii name ++ ascii "/>"

/-- An empty element where a value or a key can stand. -/
inductive EmptyHole : EmptyElement → (Spelling → Node) → (Spelling → Bytes) → Prop
    where
  | string {s : Bytes} (hs : Spaces s) :
      EmptyHole .string (fun _ => .value (.string []))
        fun i => s ++ i.text "string"
  | data {s : Bytes} (hs : Spaces s) :
      EmptyHole .data (fun _ => .value (.data [])) fun i => s ++ i.text "data"
  | array {s : Bytes} (hs : Spaces s) :
      EmptyHole .array (fun _ => .value (.array []))
        fun i => s ++ i.text "array"
  | dict {s : Bytes} (hs : Spaces s) :
      EmptyHole .dict (fun _ => .value (.dictionary []))
        fun i => s ++ i.text "dict"
  | key {s used after : Bytes} {item : Plist} {entries : List (Bytes × Plist)}
      (hs : Spaces s) (hitem : XmlParser.Written (.value item) used)
      (hentries : XmlParser.Written (.entries entries) after) :
      EmptyHole .key (fun _ => .entries (([], item) :: entries))
        fun i => s ++ i.text "key" ++ (used ++ after)

/-- The first text has an empty element at one place, and the second text is the
same with a tag that closes itself in its place. -/
def EmptyAt (name : EmptyElement) (text text' : Bytes) : Prop :=
  ∃ value spelled, Document (EmptyHole name) value spelled ∧
    text = spelled .paired ∧ text' = spelled .selfClosing

/-! ## Elements with a body -/

theorem tagged_paired (name : String) {s : Bytes} (hs : Spaces s) :
    Tagged name (s ++ Spelling.paired.text name) [] := by
  have hcut : cutAt (closeTag name) ([] ++ (closeTag name ++ [])) =
      some ([], []) := cutAt_append (0x2f :: ascii name ++ ascii ">") List.not_mem_nil
  have htag := Tagged.paired hs spaces_nil hcut
  simpa only [Spelling.text, openTag, List.append_assoc, List.nil_append] using htag

theorem tagged_selfClosing (name : String) {s : Bytes} (hs : Spaces s) :
    Tagged name (s ++ Spelling.selfClosing.text name) [] := by
  have htag : Tagged name _ _ := .selfClosing hs spaces_nil
  simpa only [Spelling.text, openTag, List.append_assoc, List.nil_append] using htag

theorem tagged_spelling (name : String) {s : Bytes} (hs : Spaces s)
    (i : Spelling) : Tagged name (s ++ i.text name) [] := by
  cases i with
  | paired => exact tagged_paired name hs
  | selfClosing => exact tagged_selfClosing name hs

/-- Without a container in the hole both spellings are written. -/
theorem written_emptyHole {name : EmptyElement} {node : Spelling → Node}
    {text : Spelling → Bytes} (h : EmptyHole name node text) (i : Spelling)
    (hi : name ≠ .array ∧ name ≠ .dict) : XmlParser.Written (node i) (text i) := by
  cases h with
  | string hs => exact .scalar .string (tagged_spelling _ hs i) rfl
  | data hs => exact .scalar .data (tagged_spelling _ hs i) rfl
  | array => exact absurd rfl hi.1
  | dict => exact absurd rfl hi.2
  | key hs hitem hentries =>
      exact .entriesCons (tagged_spelling _ hs i) hitem hentries

theorem written_emptyHole_paired {name : EmptyElement} {node : Spelling → Node}
    {text : Spelling → Bytes} (h : EmptyHole name node text) :
    XmlParser.Written (node .paired) (text .paired) := by
  cases h with
  | string hs => exact .scalar .string (tagged_spelling _ hs _) rfl
  | data hs => exact .scalar .data (tagged_spelling _ hs _) rfl
  | array hs =>
      have harray := XmlParser.Written.array hs spaces_nil (.itemsEnd spaces_nil)
      simpa only [Spelling.text, openAngle, openTag, List.append_assoc,
        List.nil_append] using harray
  | dict hs =>
      have hdict :=
        XmlParser.Written.dictionary hs spaces_nil (.entriesEnd spaces_nil)
      simpa only [Spelling.text, collect, List.foldl_nil, openAngle, openTag,
        List.append_assoc, List.nil_append] using hdict
  | key hs hitem hentries =>
      exact .entriesCons (tagged_spelling _ hs _) hitem hentries

/-! ## Containers -/

/-- No value is read from the text, whatever follows. -/
def Refuses (text : Bytes) : Node → Prop
  | .value _ => Opening text ∧ ∀ fuel rest, text.length < fuel →
      Result.IsProtocolError (parseValue fuel (text ++ rest))
  | .items _ => ∀ fuel parsed rest, text.length < fuel →
      Result.IsProtocolError (parseItems fuel parsed (text ++ rest))
  | .entries _ => ∀ fuel map rest, text.length < fuel →
      Result.IsProtocolError (parseEntries fuel map (text ++ rest))

theorem isProtocolError_bind {α β : Type} {result : Result α}
    (f : α → Result β) (h : result.IsProtocolError) :
    Result.IsProtocolError (result >>= f) := by
  obtain ⟨message, rfl⟩ := h
  exact ⟨message, rfl⟩

/-- The open tag of a container does not close itself. -/
theorem readContainer_selfClosing {α : Type} (name message : String)
    (inside : XmlParser α) (wrap : α → Plist) (rest : Bytes) :
    Result.IsProtocolError (readContainer name message inside wrap
      (openTag name ++ (ascii "/>" ++ rest))) := by
  have hopen := consume_of_spaces spaces_nil (solid_openTag name)
    (ascii "/>" ++ rest)
  have hslash : Solid (ascii "/>" ++ rest) := ⟨0x2f, _, rfl, rfl⟩
  have hnot : (ascii ">").isPrefixOf (ascii "/>" ++ rest) = false := rfl
  have hangle := consume_of_not_prefix spaces_nil hslash hnot
  rw [List.nil_append, openTag] at hopen
  rw [List.nil_append] at hangle
  rw [readContainer, openContainer, bind_apply, openTag, hopen, ok_bind,
    if_pos rfl, bind_apply, hangle]
  exact ⟨_, rfl⟩

/-- A container that closes itself is refused. -/
theorem refuses_selfClosing {α : Type} {name message : String}
    {inside : Nat → XmlParser α} {wrap : α → Plist} {s : Bytes} (hs : Spaces s)
    {c : UInt8} {tail : Bytes} (hname : ascii name = c :: tail) (hc : c ≠ 0x2f)
    (hread : ∀ fuel tail, parseValue (fuel + 1) (openTag name ++ tail) =
      readContainer name message (inside fuel) wrap (openTag name ++ tail))
    (value : Plist) :
    Refuses (s ++ Spelling.selfClosing.text name) (.value value) := by
  refine ⟨(tagged_selfClosing name hs).opening hname hc, ?_⟩
  intro fuel rest hfuel
  obtain ⟨fuel, rfl⟩ := Nat.exists_eq_add_one_of_ne_zero (n := fuel) (by omega)
  have htext : s ++ Spelling.selfClosing.text name ++ rest =
      s ++ (openTag name ++ (ascii "/>" ++ rest)) := by
    simp only [Spelling.text, openTag, List.append_assoc]
  rw [htext, parseValue_of_solid hs ((solid_openTag name).append _), hread]
  exact readContainer_selfClosing name message (inside fuel) wrap rest

/-- A container is refused when its inside is. -/
theorem refuses_container {α : Type} {name message : String}
    {inside : Nat → XmlParser α} {wrap : α → Plist} {s s' text : Bytes}
    (hs : Spaces s) (hs' : Spaces s') {c : UInt8} {tail : Bytes}
    (hname : ascii name = c :: tail) (hc : c ≠ 0x2f)
    (hread : ∀ fuel tail, parseValue (fuel + 1) (openTag name ++ tail) =
      readContainer name message (inside fuel) wrap (openTag name ++ tail))
    (h : ∀ fuel rest, text.length < fuel →
      Result.IsProtocolError (inside fuel (text ++ rest))) (value : Plist) :
    Refuses (openAngle name s s' ++ text) (.value value) := by
  constructor
  · refine ⟨s, c, tail ++ (s' ++ (ascii ">" ++ text)), hs, ?_, hc⟩
    rw [openAngle_append, openTag, hname]
    rfl
  · intro fuel rest hfuel
    rw [openAngle_append] at hfuel ⊢
    have hpos : 0 < (openTag name).length := Nat.succ_pos _
    simp only [List.length_append] at hfuel
    obtain ⟨fuel, rfl⟩ := Nat.exists_eq_add_one_of_ne_zero (n := fuel) (by omega)
    simp only [List.append_assoc]
    rw [parseValue_of_solid hs ((solid_openTag name).append _), hread,
      readContainer_openAngle _ _ _ _ hs']
    exact isProtocolError_bind _ (h fuel rest (by omega))

theorem refuses_item {text after : Bytes} {item : Plist} (items : List Plist)
    (hafter : after ≠ []) (h : Refuses text (.value item)) :
    Refuses (text ++ after) (.items (item :: items)) := by
  obtain ⟨hopening, h⟩ := h
  intro fuel parsed rest hfuel
  have hpos := List.length_pos_iff.mpr hafter
  rw [List.length_append] at hfuel
  obtain ⟨fuel, rfl⟩ := Nat.exists_eq_add_one_of_ne_zero (n := fuel) (by omega)
  rw [List.append_assoc, parseItems_succ, consume_closeTag_of_opening hopening,
    ok_bind, if_neg Bool.false_ne_true, parseValue_dropWhile]
  exact isProtocolError_bind _ (h fuel _ (by omega))

theorem refuses_items {used text : Bytes} {item : Plist} {items : List Plist}
    (hitem : XmlParser.Written (.value item) used)
    (h : Refuses text (.items items)) :
    Refuses (used ++ text) (.items (item :: items)) := by
  intro fuel parsed rest hfuel
  have hpos := hitem.opening.length_pos
  rw [List.length_append] at hfuel
  obtain ⟨fuel, rfl⟩ := Nat.exists_eq_add_one_of_ne_zero (n := fuel) (by omega)
  have haccept : parseValue fuel (used ++ (text ++ rest)) =
      .ok (item, text ++ rest) := accepts hitem fuel _ (by omega)
  rw [List.append_assoc, parseItems_succ,
    consume_closeTag_of_opening hitem.opening, ok_bind,
    if_neg Bool.false_ne_true, parseValue_dropWhile, haccept, ok_bind]
  exact h fuel _ rest (by omega)

theorem parseEntries_key {keyUsed key : Bytes} (hkey : Tagged "key" keyUsed key)
    (fuel : Nat) (map : List (Bytes × Plist)) (rest : Bytes) :
    parseEntries (fuel + 1) map (keyUsed ++ rest) =
      parseValue fuel rest >>= fun z => parseEntries fuel
        (SortedMap.emplace (xmlUnescape key) z.1 map) z.2 := by
  rw [parseEntries_succ, consume_closeTag_of_opening
    (hkey.opening rfl (by decide)), ok_bind, if_neg Bool.false_ne_true,
    bodyOf_dropWhile, bodyOf_of_tagged hkey, ok_bind]

theorem refuses_entry {keyUsed key text after : Bytes} {item : Plist}
    (entries : List (Bytes × Plist)) (hkey : Tagged "key" keyUsed key)
    (h : Refuses text (.value item)) :
    Refuses (keyUsed ++ (text ++ after))
      (.entries ((xmlUnescape key, item) :: entries)) := by
  obtain ⟨-, h⟩ := h
  intro fuel map rest hfuel
  have hopening : Opening keyUsed := hkey.opening rfl (by decide)
  have hpos := hopening.length_pos
  simp only [List.length_append] at hfuel
  obtain ⟨fuel, rfl⟩ := Nat.exists_eq_add_one_of_ne_zero (n := fuel) (by omega)
  simp only [List.append_assoc]
  rw [parseEntries_key hkey]
  exact isProtocolError_bind _ (h fuel _ (by omega))

theorem refuses_entries {keyUsed key used text : Bytes} {item : Plist}
    {entries : List (Bytes × Plist)} (hkey : Tagged "key" keyUsed key)
    (hitem : XmlParser.Written (.value item) used)
    (h : Refuses text (.entries entries)) :
    Refuses (keyUsed ++ (used ++ text))
      (.entries ((xmlUnescape key, item) :: entries)) := by
  intro fuel map rest hfuel
  have hopening : Opening keyUsed := hkey.opening rfl (by decide)
  have hpos := hopening.length_pos
  simp only [List.length_append] at hfuel
  obtain ⟨fuel, rfl⟩ := Nat.exists_eq_add_one_of_ne_zero (n := fuel) (by omega)
  have haccept : parseValue fuel (used ++ (text ++ rest)) =
      .ok (item, text ++ rest) := accepts hitem fuel _ (by omega)
  simp only [List.append_assoc]
  rw [parseEntries_key hkey, haccept, ok_bind]
  exact h fuel _ rest (by omega)

/-- A text with a hole that is refused is refused. -/
theorem refuses_of_around {ι : Type} {hole : (ι → Node) → (ι → Bytes) → Prop}
    {node : ι → Node} {text : ι → Bytes} (h : Around hole node text) (i : ι)
    (hfill : ∀ node text, hole node text → Refuses (text i) (node i)) :
    Refuses (text i) (node i) := by
  induction h with
  | here h => exact hfill _ _ h
  | array hs hs' _ ih =>
      exact refuses_container hs hs' rfl (by decide) parseValue_openTag_array
        (fun fuel rest hfuel => ih fuel [] rest hfuel) _
  | dictionary hs hs' _ ih =>
      exact refuses_container hs hs' rfl (by decide) parseValue_openTag_dict
        (fun fuel rest hfuel => ih fuel [] rest hfuel) _
  | item _ hitems ih => exact refuses_item _ hitems.ne_nil ih
  | items hitem _ ih => exact refuses_items hitem ih
  | entry hkey _ _ ih => exact refuses_entry _ hkey ih
  | entries hkey hitem _ ih => exact refuses_entries hkey hitem ih

/-- A container that closes itself is refused where it stands: the reader looks for
`<array>` or `<dict>` and finds neither. -/
theorem refuses_emptyHole {name : EmptyElement} {node : Spelling → Node}
    {text : Spelling → Bytes} (h : EmptyHole name node text)
    (hi : name = .array ∨ name = .dict) :
    Refuses (text .selfClosing) (node .selfClosing) := by
  cases h with
  | array hs =>
      exact refuses_selfClosing hs rfl (by decide) parseValue_openTag_array _
  | dict hs =>
      exact refuses_selfClosing hs rfl (by decide) parseValue_openTag_dict _
  | string | data | key => simp at hi

/-! ## Documents -/

/-- What is read does not depend on the spelling of the empty element, as long as each
of the two texts is read. -/
theorem node_emptyHole {name : EmptyElement} {node : Spelling → Node}
    {text : Spelling → Bytes} (h : Around (EmptyHole name) node text) :
    node .paired = node .selfClosing := by
  induction h with
  | here h => cases h <;> rfl
  | array _ _ _ ih =>
      exact congrArg (fun items => Node.value (.array items)) (Node.items.inj ih)
  | dictionary _ _ _ ih =>
      exact congrArg (fun entries => Node.value (.dictionary (collect entries [])))
        (Node.entries.inj ih)
  | item _ _ ih =>
      exact congrArg (fun item => Node.items (item :: _)) (Node.value.inj ih)
  | items _ _ ih =>
      exact congrArg (fun items => Node.items (_ :: items)) (Node.items.inj ih)
  | entry _ _ _ ih =>
      exact congrArg (fun item => Node.entries ((_, item) :: _))
        (Node.value.inj ih)
  | entries _ _ _ ih =>
      exact congrArg (fun entries => Node.entries (_ :: entries))
        (Node.entries.inj ih)

theorem isProtocolError_of_container {name : EmptyElement}
    {value : Spelling → Plist} {text : Spelling → Bytes}
    (h : Document (EmptyHole name) value text)
    (hname : name = .array ∨ name = .dict) :
    (parseXml (text .selfClosing)).IsProtocolError := by
  obtain ⟨pre, used, rest, hpre, haround, rfl⟩ := h
  obtain ⟨-, hrefuses⟩ := refuses_of_around haround .selfClosing
    fun _ _ hhole => refuses_emptyHole hhole hname
  have hlen : (pre ++ (used .selfClosing ++ rest)).length =
      pre.length + ((used .selfClosing).length + rest.length) := by
    rw [List.length_append, List.length_append]
  change Result.IsProtocolError (parseXml (pre ++ (used .selfClosing ++ rest)))
  rw [parseXml, parse_apply, hpre _ _ (by omega), ok_bind]
  exact isProtocolError_bind _ (hrefuses _ rest (by omega))

/-- A document that is one empty element. -/
theorem document_element {name : EmptyElement} {value : Plist}
    (h : EmptyHole name (fun _ => .value value)
      fun i => [] ++ i.text name.name) :
    Document (EmptyHole name) (fun _ => value)
      fun i => ascii "<plist" ++ ascii ">" ++ i.text name.name := by
  have hopens := opens_of_skips (skips_spaces spaces_nil)
    (cutAt_append [] (List.not_mem_nil : (0x3e : UInt8) ∉ []))
  refine ⟨_, _, [], hopens, .here h, ?_⟩
  funext i
  simp

/-- An empty element that closes itself leaves the value as it is exactly when it
is not a container. -/
theorem parseXml_selfClosing_iff {name : EmptyElement} {text text' : Bytes}
    {value : Plist} (hvalue : parseXml text = .ok value)
    (h : EmptyAt name text text') :
    parseXml text' = .ok value ↔ name ≠ .array ∧ name ≠ .dict := by
  obtain ⟨valueAt, spelled, hdocument, rfl, rfl⟩ := h
  have hpaired := hdocument.parseXml_eq_ok .paired fun _ _ hhole =>
    written_emptyHole_paired hhole
  rw [hvalue] at hpaired
  constructor
  · intro hread
    by_contra hname
    have hcontainer : name = .array ∨ name = .dict := by
      by_contra hnot
      exact hname (not_or.mp hnot)
    obtain ⟨message, herror⟩ := isProtocolError_of_container hdocument hcontainer
    rw [hread] at herror
    cases herror
  · intro hname
    have hread := hdocument.parseXml_eq_ok .selfClosing fun _ _ hhole =>
      written_emptyHole hhole .selfClosing hname
    obtain ⟨pre, used, rest, -, haround, -⟩ := hdocument
    rw [hread, Except.ok.inj hpaired, Node.value.inj (node_emptyHole haround)]

theorem parseXml_selfClosing_iff_string :
    parseXml (ascii "<plist" ++ ascii ">" ++ Spelling.selfClosing.text "string") =
        .ok (.string []) ↔
      EmptyElement.string ≠ .array ∧ EmptyElement.string ≠ .dict := by
  have hdocument : Document (EmptyHole .string) (fun _ => .string [])
      fun i => ascii "<plist" ++ ascii ">" ++ i.text "string" :=
    document_element (.string spaces_nil)
  have hpaired := hdocument.parseXml_eq_ok .paired fun _ _ hhole =>
    written_emptyHole_paired hhole
  exact parseXml_selfClosing_iff hpaired ⟨_, _, hdocument, rfl, rfl⟩

/-- `<array></array>` is read and `<array/>` is not. -/
theorem not_parseXml_selfClosing_array :
    EmptyAt .array (ascii "<plist><array></array>") (ascii "<plist><array/>") ∧
      parseXml (ascii "<plist><array></array>") = .ok (.array []) ∧
      (parseXml (ascii "<plist><array/>")).IsProtocolError := by
  have hpaired : ascii "<plist><array></array>" =
      ascii "<plist" ++ ascii ">" ++ Spelling.paired.text "array" := by
    decide +kernel
  have hself : ascii "<plist><array/>" =
      ascii "<plist" ++ ascii ">" ++ Spelling.selfClosing.text "array" := by
    decide +kernel
  have hdocument : Document (EmptyHole .array) (fun _ => .array [])
      fun i => ascii "<plist" ++ ascii ">" ++ i.text "array" :=
    document_element (.array spaces_nil)
  have hrefused := isProtocolError_of_container hdocument (.inl rfl)
  rw [hpaired, hself]
  refine ⟨⟨_, _, hdocument, rfl, rfl⟩, ?_, ?_⟩
  · exact hdocument.parseXml_eq_ok .paired fun _ _ hhole =>
      written_emptyHole_paired hhole
  · exact hrefused

end Ioscpp.Protocol.Plist
