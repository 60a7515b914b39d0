import Ioscpp.Protocol.PlistXml

/-!
# The XML round trip

The parser undoes the writer element by element.  A body holds no `<` of its
own, so it ends where its close tag begins; an element inside a container
begins with `<` and a letter, so it is not taken for the container's close tag.

## Main results

- `bodyOf_element`: the body of an element is read.
- `parses`: a tree is parsed from its text.
- `parseXml_toXml`: so is the document of one.
-/

namespace Ioscpp.Protocol.Plist

open Ioscpp.Support

namespace XmlParser

theorem bind_apply {α β : Type} (p : XmlParser α) (f : α → XmlParser β)
    (text : Bytes) : (p >>= f) text = p text >>= fun x => f x.1 x.2 := rfl

theorem get_bind_apply {β : Type} (f : Bytes → XmlParser β) (text : Bytes) :
    ((get : XmlParser Bytes) >>= f) text = f text text := rfl

/-! ## Elements -/

/-- A name is matched after its `<`. -/
theorem consume_open (name : String) (rest : Bytes) :
    consume (ascii "<" ++ ascii name) (ascii "<" ++ ascii name ++ rest) =
      .ok (true, rest) := by
  have hprefix : (ascii "<" ++ ascii name).isPrefixOf
      (ascii "<" ++ ascii name ++ rest) = true := by
    rw [List.isPrefixOf_iff_prefix]
    exact List.prefix_append _ _
  have hspace : (ascii "<" ++ ascii name ++ rest).dropWhile isSpace =
      ascii "<" ++ ascii name ++ rest := rfl
  change (if (ascii "<" ++ ascii name).isPrefixOf
      ((ascii "<" ++ ascii name ++ rest).dropWhile isSpace) then _ else _ :
    XmlParser Bool) _ = _
  rw [hspace, if_pos hprefix]
  exact congrArg (fun text => Except.ok (true, text)) List.drop_left

/-- A body without a `<` of its own is read up to its close tag. -/
theorem readBody_append (name : String) {body rest : Bytes}
    (h : 0x3c ∉ body) :
    readBody name (ascii ">" ++ body ++ closeTag name ++ rest) =
      .ok (body, rest) := by
  have hcut : cutAt (closeTag name) (body ++ (closeTag name ++ rest)) =
      some (body, rest) := cutAt_append (0x2f :: ascii name ++ ascii ">") h
  have hslash : consume (ascii "/>") (ascii ">" ++ body ++ closeTag name ++ rest) =
      .ok (false, ascii ">" ++ body ++ closeTag name ++ rest) := rfl
  have hangle : consume (ascii ">") (ascii ">" ++ body ++ closeTag name ++ rest) =
      .ok (true, body ++ closeTag name ++ rest) := rfl
  rw [readBody, bind_apply, hslash, ok_bind, if_neg Bool.false_ne_true,
    bind_apply, hangle, ok_bind, if_pos rfl, get_bind_apply, List.append_assoc,
    hcut]
  rfl

/-- The body of an element is read, up to its own close tag: a body of the writer's
holds no `<`. -/
theorem bodyOf_element (name : String) {body : Bytes} (h : 0x3c ∉ body)
    (rest : Bytes) :
    bodyOf name (element name body ++ rest) = .ok (body, rest) := by
  have htext : element name body ++ rest =
      ascii "<" ++ ascii name ++ (ascii ">" ++ body ++ closeTag name ++ rest) := by
    simp [element, List.append_assoc]
  rw [htext, bodyOf, bind_apply, consume_open, ok_bind, if_pos rfl,
    readBody_append name h]

/-! ## Values -/

/-- Every value begins with an open tag. -/
theorem appendXml_eq_cons (value : Plist) :
    ∃ c tail, appendXml value = 0x3c :: c :: tail ∧ c ≠ 0x2f := by
  cases value with
  | boolean value => cases value <;> exact ⟨_, _, rfl, by decide⟩
  | _ => exact ⟨_, _, by rw [appendXml]; rfl, by decide⟩

/-- A value is not taken for the close tag of a container. -/
theorem consume_closeTag_appendXml (name : String) (value : Plist)
    (rest : Bytes) :
    consume (closeTag name) (appendXml value ++ rest) =
      .ok (false, appendXml value ++ rest) := by
  obtain ⟨c, tail, htext, hc⟩ := appendXml_eq_cons value
  have hclose : closeTag name = 0x3c :: 0x2f :: (ascii name ++ ascii ">") := rfl
  have hnot : (closeTag name).isPrefixOf (0x3c :: c :: tail ++ rest) = false := by
    simp [hclose, List.isPrefixOf, hc.symm]
  change (if (closeTag name).isPrefixOf
      ((appendXml value ++ rest).dropWhile isSpace) then _ else _ :
    XmlParser Bool) _ = _
  rw [htext]
  change (if (closeTag name).isPrefixOf (0x3c :: c :: tail ++ rest) then _ else _ :
    XmlParser Bool) _ = _
  rw [hnot]
  rfl

/-- A value is parsed from its text, with fuel for its length. -/
def Parses (value : Plist) : Prop :=
  ∀ (fuel : Nat) (rest : Bytes), (appendXml value).length ≤ fuel →
    parseValue fuel (appendXml value ++ rest) = .ok (value, rest)

theorem parseItems_appendItems {items : List Plist}
    (h : ∀ item ∈ items, Parses item) {parsed : List Plist} {fuel : Nat}
    (hfuel : (appendItems items).length < fuel) (rest : Bytes) :
    parseItems fuel parsed (appendItems items ++ closeTag "array" ++ rest) =
      .ok (parsed ++ items, rest) := by
  induction items generalizing parsed fuel with
  | nil =>
      obtain ⟨fuel, rfl⟩ := Nat.exists_eq_add_one_of_ne_zero (n := fuel) (by omega)
      rw [List.append_nil]
      rfl
  | cons item items ih =>
      obtain ⟨fuel, rfl⟩ := Nat.exists_eq_add_one_of_ne_zero (n := fuel) (by omega)
      obtain ⟨c, tail, htext, -⟩ := appendXml_eq_cons item
      have hpos : 0 < (appendXml item).length := by
        rw [htext]
        exact Nat.succ_pos _
      rw [appendItems, List.length_append] at hfuel
      have hskip : ∀ text, skipSpace (appendXml item ++ text) =
          .ok ((), appendXml item ++ text) := by
        intro text
        rw [htext]
        rfl
      have hassoc : appendItems (item :: items) ++ closeTag "array" ++ rest =
          appendXml item ++ (appendItems items ++ closeTag "array" ++ rest) := by
        simp [appendItems]
      have hclose : consume (ascii "</array>") _ = _ :=
        consume_closeTag_appendXml "array" item
          (appendItems items ++ closeTag "array" ++ rest)
      have hitem := h item (by simp) fuel
        (appendItems items ++ closeTag "array" ++ rest) (by omega)
      rw [hassoc, parseItems, bind_apply, hskip, ok_bind, bind_apply, hclose,
        ok_bind, if_neg Bool.false_ne_true, bind_apply, hitem, ok_bind,
        ih (fun item hmem => h item (List.mem_cons_of_mem _ hmem)) (by omega)]
      simp

theorem parseEntries_appendEntries {entries : List (Bytes × Plist)}
    (h : ∀ entry ∈ entries, Parses entry.2) {parsed : List (Bytes × Plist)}
    {fuel : Nat} (hfuel : (appendEntries entries).length < fuel) (rest : Bytes) :
    parseEntries fuel parsed (appendEntries entries ++ closeTag "dict" ++ rest) =
      .ok (entries.foldl (fun map entry => SortedMap.emplace entry.1 entry.2 map)
        parsed, rest) := by
  induction entries generalizing parsed fuel with
  | nil =>
      obtain ⟨fuel, rfl⟩ := Nat.exists_eq_add_one_of_ne_zero (n := fuel) (by omega)
      rfl
  | cons entry entries ih =>
      obtain ⟨fuel, rfl⟩ := Nat.exists_eq_add_one_of_ne_zero (n := fuel) (by omega)
      obtain ⟨key, item⟩ := entry
      have hpos : 0 < (element "key" (xmlEscape key)).length := Nat.succ_pos _
      rw [appendEntries, List.length_append, List.length_append] at hfuel
      set text := appendEntries entries ++ closeTag "dict" ++ rest with htext
      have hassoc : appendEntries ((key, item) :: entries) ++ closeTag "dict" ++
          rest = element "key" (xmlEscape key) ++ (appendXml item ++ text) := by
        simp [appendEntries, htext]
      have hkey := bodyOf_element "key" (xmlEscape_chars key)
        (appendXml item ++ text)
      have hitem := h (key, item) (by simp) fuel text
        (show (appendXml item).length ≤ fuel by omega)
      have hstep : parseEntries (fuel + 1) parsed
          (element "key" (xmlEscape key) ++ (appendXml item ++ text)) =
          (bodyOf "key" >>= fun key => parseValue fuel >>= fun item =>
            parseEntries fuel (SortedMap.emplace (xmlUnescape key) item parsed))
          (element "key" (xmlEscape key) ++ (appendXml item ++ text)) := rfl
      rw [hassoc, hstep, bind_apply, hkey, ok_bind, bind_apply, hitem, ok_bind,
        xmlUnescape_escape, htext,
        ih (fun entry hmem => h entry (List.mem_cons_of_mem _ hmem)) (by omega)]
      rfl

end XmlParser

open XmlParser

/-- The leaves that the XML form holds whole by their text. -/
def IsText : Plist → Prop
  | null | boolean _ | integer _ | string _ | data _ => True
  | _ => False

/-- A leaf is parsed from its element. -/
theorem parses_leaf {value : Plist} (h : value.IsText) : Parses value := by
  intro fuel rest hfuel
  obtain ⟨c, tail, htext, -⟩ := appendXml_eq_cons value
  obtain ⟨fuel, rfl⟩ := Nat.exists_eq_add_one_of_ne_zero (n := fuel) (by
    rw [htext, List.length_cons] at hfuel
    omega)
  cases value with
  | null => rfl
  | boolean value => cases value <;> rfl
  | integer value =>
      have hbody : 0x3c ∉ decimalInt value.toInt := by
        intro hmem
        rw [decimalInt] at hmem
        split at hmem
        · rcases List.mem_cons.mp hmem with hc | hc
          · exact absurd hc (by decide)
          · exact absurd (isDigit_of_mem_decimal _ hc) (by decide)
        · exact absurd (isDigit_of_mem_decimal _ hmem) (by decide)
      have hstep : parseValue (fuel + 1) (appendXml (.integer value) ++ rest) =
          (bodyOf "integer" >>= fun body => pure (.integer (strtoll body)))
            (element "integer" (decimalInt value.toInt) ++ rest) := by
        rw [appendXml]
        rfl
      rw [hstep, bind_apply, bodyOf_element _ hbody, ok_bind,
        strtoll_decimalInt]
      rfl
  | string text =>
      have hstep : parseValue (fuel + 1) (appendXml (.string text) ++ rest) =
          (bodyOf "string" >>= fun body => pure (.string (xmlUnescape body)))
            (element "string" (xmlEscape text) ++ rest) := by
        rw [appendXml]
        rfl
      rw [hstep, bind_apply, bodyOf_element _ (xmlEscape_chars text), ok_bind,
        xmlUnescape_escape]
      rfl
  | data bytes =>
      have hchars := base64Encode_chars bytes
      have hbody : 0x3c ∉ base64Encode bytes := fun hmem => (hchars _ hmem).2 rfl
      have hfilter : (base64Encode bytes).filter (!isSpace ·) =
          base64Encode bytes := by
        rw [List.filter_eq_self]
        intro c hmem
        rw [(hchars c hmem).1]
        rfl
      have hstep : parseValue (fuel + 1) (appendXml (.data bytes) ++ rest) =
          (bodyOf "data" >>= fun body =>
            StateT.lift (base64Decode (body.filter (!isSpace ·))) >>= fun decoded =>
              pure (.data decoded)) (element "data" (base64Encode bytes) ++ rest) := by
        rw [appendXml]
        rfl
      rw [hstep, bind_apply, bodyOf_element _ hbody, ok_bind]
      simp only [hfilter, base64Decode_encode]
      rfl
  | real bits => exact h.elim
  | date seconds => exact h.elim
  | array items => exact h.elim
  | dictionary entries => exact h.elim
  | uid index => exact h.elim

/-- A tree over such leaves is parsed from its text, whatever follows it, with a turn
for each character of the text. -/
theorem parses {value : Plist} (hwell : value.WellFormed)
    (hleaves : value.AllLeaves IsText) : Parses value := by
  induction value using Plist.induct with
  | leaf value hleaf => exact parses_leaf ((allLeaves_leaf hleaf).mp hleaves)
  | array items ih =>
      intro fuel rest hfuel
      have hitems : ∀ item ∈ items, Parses item := fun item hmem =>
        ih item hmem (wellFormed_array.mp hwell item hmem)
          (allLeaves_array.mp hleaves item hmem)
      rw [appendXml, element] at hfuel ⊢
      simp only [List.length_append] at hfuel
      obtain ⟨fuel, rfl⟩ := Nat.exists_eq_add_one_of_ne_zero (n := fuel) (by
        have : 0 < (ascii "<").length := by decide
        omega)
      have hstep : parseValue (fuel + 1) (ascii "<" ++ ascii "array" ++ ascii ">" ++
          appendItems items ++ closeTag "array" ++ rest) =
          (parseItems fuel [] >>= fun items => pure (.array items))
            (appendItems items ++ closeTag "array" ++ rest) := rfl
      have hlen : 2 ≤ (ascii "<").length + (ascii "array").length := by decide
      rw [hstep, bind_apply, parseItems_appendItems hitems (by omega), ok_bind,
        List.nil_append]
      rfl
  | dictionary entries ih =>
      intro fuel rest hfuel
      obtain ⟨hsorted, hwells⟩ := wellFormed_dictionary.mp hwell
      have hentries : ∀ entry ∈ entries, Parses entry.2 := fun entry hmem =>
        ih entry hmem (hwells entry hmem)
          ((allLeaves_dictionary.mp hleaves).2 entry hmem)
      rw [appendXml, element] at hfuel ⊢
      simp only [List.length_append] at hfuel
      obtain ⟨fuel, rfl⟩ := Nat.exists_eq_add_one_of_ne_zero (n := fuel) (by
        have : 0 < (ascii "<").length := by decide
        omega)
      have hstep : parseValue (fuel + 1) (ascii "<" ++ ascii "dict" ++ ascii ">" ++
          appendEntries entries ++ closeTag "dict" ++ rest) =
          (parseEntries fuel [] >>= fun entries => pure (.dictionary entries))
            (appendEntries entries ++ closeTag "dict" ++ rest) := rfl
      have hlen : 2 ≤ (ascii "<").length + (ascii "dict").length := by decide
      have hmap : entries.foldl
          (fun map entry => SortedMap.emplace entry.1 entry.2 map) [] = entries :=
        SortedMap.ofEntries_of_sorted hsorted
      rw [hstep, bind_apply, parseEntries_appendEntries hentries (by omega),
        ok_bind, hmap]
      rfl

set_option maxRecDepth 4000 in
/-- The parser comes to the value after the header. -/
theorem parse_header (fuel : Nat) (rest : Bytes) :
    XmlParser.parse (fuel + 3) (kXmlHeader ++ rest) =
      parseValue (fuel + 3) rest := rfl

/-- The document of such a tree is parsed up to its value, whatever follows. -/
theorem parse_document {value : Plist} (hwell : value.WellFormed)
    (hleaves : value.AllLeaves IsText) {fuel : Nat}
    (hfuel : (appendXml value).length + 3 ≤ fuel) (rest : Bytes) :
    XmlParser.parse fuel (kXmlHeader ++ appendXml value ++ rest) =
      .ok (value, rest) := by
  obtain ⟨fuel, rfl⟩ := Nat.exists_eq_add_of_le' (show 3 ≤ fuel by omega)
  rw [List.append_assoc, parse_header, parses hwell hleaves _ _ (by omega)]

theorem length_toXml (value : Plist) : (toXml value).length =
    kXmlHeader.length + (appendXml value).length + 9 := by
  have hclose : (ascii "</plist>\n").length = 9 := rfl
  simp only [toXml, List.length_append, hclose]

/-- A tree of null, boolean, integer, string and data leaves round-trips, whatever its
size and nesting and whatever characters its texts hold: its whole text is a document,
and the parser reads the tree back from it. -/
theorem parseXml_toXml {value : Plist} (hwell : value.WellFormed)
    (hleaves : value.AllLeaves IsText) : parseXml (toXml value) = .ok value := by
  have hlength := length_toXml value
  rw [parseXml, toXml, parse_document hwell hleaves
    (by rw [← toXml]; omega), ok_bind]

theorem parseXml_toXml_entities :
    parseXml (toXml (.dictionary [(ascii "<&", .array [.string (ascii " &lt; "),
      .integer (-9223372036854775808), .data [0, 255]])])) =
      .ok (.dictionary [(ascii "<&", .array [.string (ascii " &lt; "),
        .integer (-9223372036854775808), .data [0, 255]])]) :=
  parseXml_toXml
    (.dictionary (by simp [SortedMap.Sorted]) (by
      simp only [List.mem_cons, List.not_mem_nil, or_false, forall_eq,
        forall_eq_or_imp, wellFormed_array]
      exact ⟨.leaf trivial, .leaf trivial, .leaf trivial⟩))
    (.dictionary (fun _ _ => trivial) (by
      simp only [List.mem_cons, List.not_mem_nil, or_false, forall_eq,
        forall_eq_or_imp, allLeaves_array]
      exact ⟨.leaf trivial trivial, .leaf trivial trivial,
        .leaf trivial trivial⟩))

end Ioscpp.Protocol.Plist
