import Ioscpp.Protocol.PlistXmlRoundTrip

/-!
# The XML that is accepted

`Written` is the grammar of the parser: the text of a value, of the items of an
array up to its close tag, and of the entries of a dictionary up to its.  It is
about the text that is consumed and nothing that follows, so an element can be
put in the place of another.  The parser accepts exactly what is written
(`written_of_parseValue`, `parseValue_of_written`).

## Main results

- `parseValue_cases`: a value is one of the constants, or an element with a body.
- `accepts`: what is written is read, whatever follows.
-/

namespace Ioscpp.Protocol.Plist

open Ioscpp.Support

/-! ## Tokens -/

/-- White space, or nothing. -/
def Spaces (text : Bytes) : Prop := ∀ c ∈ text, isSpace c

theorem spaces_nil : Spaces [] := by simp [Spaces]

theorem Spaces.append {s t : Bytes} (hs : Spaces s) (ht : Spaces t) :
    Spaces (s ++ t) := by
  intro c hc
  rcases List.mem_append.mp hc with hc | hc
  · exact hs c hc
  · exact ht c hc

theorem spaces_takeWhile (text : Bytes) : Spaces (text.takeWhile isSpace) :=
  fun _ hc => List.mem_takeWhile_imp hc

/-- The text begins with a character that is no white space. -/
def Solid (text : Bytes) : Prop := ∃ c tail, text = c :: tail ∧ isSpace c = false

theorem Solid.append {text : Bytes} (h : Solid text) (rest : Bytes) :
    Solid (text ++ rest) := by
  obtain ⟨c, tail, rfl, hc⟩ := h
  exact ⟨c, tail ++ rest, rfl, hc⟩

/-- White space before a solid text is skipped. -/
theorem dropWhile_spaces {s text : Bytes} (hs : Spaces s) (h : Solid text) :
    (s ++ text).dropWhile isSpace = text := by
  obtain ⟨c, tail, rfl, hc⟩ := h
  induction s with
  | nil => rw [List.nil_append, List.dropWhile_cons_of_neg (by simp [hc])]
  | cons d s ih =>
      rw [List.cons_append, List.dropWhile_cons_of_pos (hs d (by simp))]
      exact ih fun c hc => hs c (List.mem_cons_of_mem _ hc)

theorem dropWhile_idem (text : Bytes) :
    (text.dropWhile isSpace).dropWhile isSpace = text.dropWhile isSpace :=
  List.dropWhile_idempotent isSpace text

/-- The start of an open tag. -/
def openTag (name : String) : Bytes := ascii "<" ++ ascii name

theorem solid_openTag (name : String) : Solid (openTag name) :=
  ⟨0x3c, ascii name, rfl, rfl⟩

namespace XmlParser

theorem consume_apply (token text : Bytes) :
    consume token text =
      if token.isPrefixOf (text.dropWhile isSpace) then
        .ok (true, (text.dropWhile isSpace).drop token.length)
      else .ok (false, text.dropWhile isSpace) := by
  change (if token.isPrefixOf (text.dropWhile isSpace) then _ else _ :
    XmlParser Bool) _ = _
  split <;> rfl

theorem consume_dropWhile (token text : Bytes) :
    consume token (text.dropWhile isSpace) = consume token text := by
  rw [consume_apply, consume_apply, dropWhile_idem]

/-- A token is consumed with the white space before it. -/
theorem consume_of_spaces {s token : Bytes} (hs : Spaces s) (h : Solid token)
    (rest : Bytes) : consume token (s ++ (token ++ rest)) = .ok (true, rest) := by
  rw [consume_apply, dropWhile_spaces hs (h.append rest), if_pos, List.drop_left]
  rw [List.isPrefixOf_iff_prefix]
  exact List.prefix_append _ _

/-- Another token is not. -/
theorem consume_of_not_prefix {s text token : Bytes} (hs : Spaces s)
    (h : Solid text) (hnot : token.isPrefixOf text = false) :
    consume token (s ++ text) = .ok (false, text) := by
  rw [consume_apply, dropWhile_spaces hs h, hnot]
  rfl

theorem spaces_of_consume {token text rest : Bytes}
    (h : consume token text = .ok (true, rest)) :
    ∃ s, Spaces s ∧ text = s ++ (token ++ rest) := by
  rw [consume_apply] at h
  split at h
  · rename_i hprefix
    obtain ⟨tail, htail⟩ := List.isPrefixOf_iff_prefix.mp hprefix
    cases h
    refine ⟨text.takeWhile isSpace, spaces_takeWhile text, ?_⟩
    rw [← htail, List.drop_left, htail, List.takeWhile_append_dropWhile]
  · cases h

theorem eq_of_consume_false {token text rest : Bytes}
    (h : consume token text = .ok (false, rest)) :
    rest = text.dropWhile isSpace := by
  rw [consume_apply] at h
  split at h
  · cases h
  · cases h
    rfl

/-! ## Elements with a body -/

/-- An element with this name and body, and the white space before it. -/
inductive Tagged (name : String) : Bytes → Bytes → Prop where
  | selfClosing {s s' : Bytes} (hs : Spaces s) (hs' : Spaces s') :
      Tagged name (s ++ (openTag name ++ (s' ++ ascii "/>"))) []
  | paired {s s' body : Bytes} (hs : Spaces s) (hs' : Spaces s')
      (hbody : cutAt (closeTag name) (body ++ (closeTag name ++ [])) =
        some (body, [])) :
      Tagged name
        (s ++ (openTag name ++ (s' ++ (ascii ">" ++ (body ++ closeTag name)))))
        body

theorem Tagged.spaces {name : String} {s used body : Bytes} (hs : Spaces s)
    (h : Tagged name used body) : Tagged name (s ++ used) body := by
  cases h with
  | selfClosing hs' hs'' =>
      rw [← List.append_assoc]
      exact .selfClosing (hs.append hs') hs''
  | paired hs' hs'' hbody =>
      rw [← List.append_assoc]
      exact .paired (hs.append hs') hs'' hbody

theorem solid_angle : Solid (ascii ">") := ⟨0x3e, [], rfl, rfl⟩

theorem solid_closeTag (name : String) : Solid (closeTag name) :=
  ⟨0x3c, 0x2f :: (ascii name ++ ascii ">"), rfl, rfl⟩

theorem closeTag_ne_nil (name : String) : closeTag name ≠ [] :=
  List.cons_ne_nil 0x3c (0x2f :: (ascii name ++ ascii ">"))

/-- The body of an element is read, whatever follows. -/
theorem bodyOf_of_tagged {name : String} {used body : Bytes}
    (h : Tagged name used body) (rest : Bytes) :
    bodyOf name (used ++ rest) = .ok (body, rest) := by
  have hslash : Solid (ascii "/>") := ⟨0x2f, [0x3e], rfl, rfl⟩
  rw [bodyOf, bind_apply]
  cases h with
  | selfClosing hs hs' =>
      simp only [List.append_assoc]
      have hopen := consume_of_spaces hs (solid_openTag name)
      rw [openTag] at hopen
      simp only [openTag, List.append_assoc] at hopen ⊢
      rw [hopen, ok_bind, if_pos rfl, readBody, bind_apply,
        consume_of_spaces hs' hslash]
      rfl
  | @paired s s' body hs hs' hbody =>
      have hcut := cutAt_append_rest (closeTag_ne_nil name) [] rest hbody
      have hnot : (ascii "/>").isPrefixOf
          (ascii ">" ++ (body ++ (closeTag name ++ rest))) = false := rfl
      have hopen := consume_of_spaces hs (solid_openTag name)
      have hconsume := consume_of_spaces spaces_nil solid_angle
        (body ++ (closeTag name ++ rest))
      rw [List.nil_append] at hconsume
      simp only [openTag, List.append_assoc] at hopen ⊢
      rw [hopen, ok_bind, if_pos rfl, readBody, bind_apply,
        consume_of_not_prefix hs' (solid_angle.append _) hnot, ok_bind,
        if_neg Bool.false_ne_true, bind_apply, hconsume, ok_bind, if_pos rfl,
        get_bind_apply, hcut]
      rfl

/-- A body that is read is that of an element. -/
theorem tagged_of_bodyOf {name : String} {text body rest : Bytes}
    (h : bodyOf name text = .ok (body, rest)) :
    ∃ used, Tagged name used body ∧ text = used ++ rest := by
  rw [bodyOf, bind_apply, bind_eq_ok] at h
  obtain ⟨⟨found, text'⟩, hopen, h⟩ := h
  cases found with
  | false => cases h
  | true =>
      obtain ⟨s, hs, rfl⟩ := spaces_of_consume hopen
      rw [if_pos rfl, readBody, bind_apply, bind_eq_ok] at h
      obtain ⟨⟨closed, after⟩, hslash, h⟩ := h
      cases closed with
      | true =>
          obtain ⟨s', hs', rfl⟩ := spaces_of_consume hslash
          cases h
          exact ⟨_, .selfClosing hs hs', by simp [openTag]⟩
      | false =>
          have hafter := eq_of_consume_false hslash
          rw [if_neg Bool.false_ne_true, bind_apply, bind_eq_ok] at h
          obtain ⟨⟨open', text''⟩, hangle, h⟩ := h
          cases open' with
          | false => cases h
          | true =>
              rw [hafter, consume_dropWhile] at hangle
              obtain ⟨s', hs', rfl⟩ := spaces_of_consume hangle
              rw [if_pos rfl, get_bind_apply] at h
              cases hcut : cutAt (closeTag name) text'' with
              | none =>
                  rw [hcut] at h
                  cases h
              | some parts =>
                  rw [hcut] at h
                  cases h
                  have htext := eq_of_cutAt (closeTag_ne_nil name) hcut
                  rw [htext] at hcut
                  refine ⟨_, .paired hs hs'
                    (cutAt_append_rest (closeTag_ne_nil name) _ [] hcut), ?_⟩
                  simp [openTag, htext]

/-! ## The grammar -/

/-- The elements without a body. -/
inductive Constant where
  | true
  | false
  | null
  deriving DecidableEq

def Constant.text : Constant → Bytes
  | .true => ascii "<true/>"
  | .false => ascii "<false/>"
  | .null => ascii "<null/>"

def Constant.value : Constant → Plist
  | .true => .boolean Bool.true
  | .false => .boolean Bool.false
  | .null => .null

/-- The elements whose value is the text of their body. -/
inductive Scalar where
  | integer
  | real
  | string
  | data
  | date
  deriving DecidableEq

def Scalar.name : Scalar → String
  | .integer => "integer"
  | .real => "real"
  | .string => "string"
  | .data => "data"
  | .date => "date"

/-- The value of a body. -/
def Scalar.decode (body : Bytes) : Scalar → Result Plist
  | .integer => .ok (.integer (strtoll body))
  | .real => .ok (.real (RealText.strtod body))
  | .string => .ok (.string (xmlUnescape body))
  | .data => Plist.data <$> base64Decode (body.filter (!isSpace ·))
  | .date => Plist.date <$> parseDate body

/-- The open tag of a container. -/
def openAngle (name : String) (s s' : Bytes) : Bytes :=
  s ++ (openTag name ++ (s' ++ ascii ">"))

/-- What is read as one: a value, the items of an array or the entries of a
dictionary, both with their close tag. -/
inductive Node where
  | value (value : Plist)
  | items (items : List Plist)
  | entries (entries : List (Bytes × Plist))

/-- The dictionary of its entries: of equal keys the first stays. -/
def collect (entries map : List (Bytes × Plist)) : List (Bytes × Plist) :=
  entries.foldl (fun map entry => SortedMap.emplace entry.1 entry.2 map) map

/-- The texts that are read as a node, with the white space before them. -/
inductive Written : Node → Bytes → Prop where
  | constant (kind : Constant) {s : Bytes} (hs : Spaces s) :
      Written (.value kind.value) (s ++ kind.text)
  | scalar (kind : Scalar) {used body : Bytes} {value : Plist}
      (htag : Tagged kind.name used body)
      (hvalue : kind.decode body = .ok value) :
      Written (.value value) used
  | array {s s' used : Bytes} {items : List Plist} (hs : Spaces s)
      (hs' : Spaces s') (hitems : Written (.items items) used) :
      Written (.value (.array items)) (openAngle "array" s s' ++ used)
  | dictionary {s s' used : Bytes} {entries : List (Bytes × Plist)}
      (hs : Spaces s) (hs' : Spaces s')
      (hentries : Written (.entries entries) used) :
      Written (.value (.dictionary (collect entries [])))
        (openAngle "dict" s s' ++ used)
  | itemsEnd {s : Bytes} (hs : Spaces s) :
      Written (.items []) (s ++ closeTag "array")
  | itemsCons {used rest : Bytes} {item : Plist} {items : List Plist}
      (hitem : Written (.value item) used)
      (hitems : Written (.items items) rest) :
      Written (.items (item :: items)) (used ++ rest)
  | entriesEnd {s : Bytes} (hs : Spaces s) :
      Written (.entries []) (s ++ closeTag "dict")
  | entriesCons {keyUsed key used rest : Bytes} {item : Plist}
      {entries : List (Bytes × Plist)} (hkey : Tagged "key" keyUsed key)
      (hitem : Written (.value item) used)
      (hentries : Written (.entries entries) rest) :
      Written (.entries ((xmlUnescape key, item) :: entries))
        (keyUsed ++ (used ++ rest))

/-! ## What is accepted is written -/

theorem parseValue_succ (fuel : Nat) (text : Bytes) :
    parseValue (fuel + 1) text =
      if (text.dropWhile isSpace).head? ≠ some 0x3c then
        fail "a plist value does not start with an element"
          (text.dropWhile isSpace)
      else (do
        if ← consume (ascii "<true/>") then return .boolean true
        else if ← consume (ascii "<false/>") then return .boolean false
        else if ← consume (ascii "<null/>") then return .null
        else parseElement (parseItems fuel []) (parseEntries fuel []) :
          XmlParser Plist) (text.dropWhile isSpace) := by
  rw [parseValue, bind_apply]
  change (if (text.dropWhile isSpace).head? ≠ some 0x3c then _ else _ :
    XmlParser Plist) _ = _
  split <;> rfl

/-- Reads an element whose value is the text of its body. -/
def readScalar (kind : Scalar) (text : Bytes) : Result (Plist × Bytes) :=
  bodyOf kind.name text >>= fun x =>
    kind.decode x.1 >>= fun value => .ok (value, x.2)

/-- Reads a container with a parser for its inside. -/
def readContainer {α : Type} (name message : String) (inside : XmlParser α)
    (wrap : α → Plist) (text : Bytes) : Result (Plist × Bytes) :=
  openContainer name message text >>= fun x =>
    inside x.2 >>= fun y => .ok (wrap y.1, y.2)

theorem parseElement_apply (items : XmlParser (List Plist))
    (entries : XmlParser (List (Bytes × Plist))) (text : Bytes) :
    parseElement items entries text =
      if (ascii "<integer").isPrefixOf text then readScalar .integer text
      else if (ascii "<real").isPrefixOf text then readScalar .real text
      else if (ascii "<string").isPrefixOf text then readScalar .string text
      else if (ascii "<data").isPrefixOf text then readScalar .data text
      else if (ascii "<date").isPrefixOf text then readScalar .date text
      else if (ascii "<array").isPrefixOf text then
        readContainer "array" "the array is malformed" items .array text
      else if (ascii "<dict").isPrefixOf text then
        readContainer "dict" "the dictionary is malformed" entries .dictionary
          text
      else fail "the plist element is not known" text := by
  have hlift : ∀ {α : Type} (decoded : Result α) (wrap : α → Plist)
      (rest : Bytes), (StateT.lift decoded >>= fun value =>
        (return wrap value : XmlParser Plist)) rest =
      ((wrap <$> decoded) >>= fun value => .ok (value, rest)) := by
    intro α decoded wrap rest
    cases decoded <;> rfl
  rw [parseElement, bind_apply]
  change (if _ then _ else _ : XmlParser Plist) _ = _
  split_ifs
  · rfl
  · rfl
  · rfl
  · exact congrArg (bodyOf "data" text >>= ·) (funext fun x => hlift _ _ x.2)
  · exact congrArg (bodyOf "date" text >>= ·) (funext fun x => hlift _ _ x.2)
  · rfl
  · rfl
  · rfl

theorem written_of_readScalar {kind : Scalar} {text rest : Bytes}
    {value : Plist} (h : readScalar kind text = .ok (value, rest)) :
    ∃ used, Written (.value value) used ∧ text = used ++ rest := by
  rw [readScalar, bind_eq_ok] at h
  obtain ⟨⟨body, after⟩, hbody, h⟩ := h
  obtain ⟨decoded, hdecode, h⟩ := bind_eq_ok.mp h
  obtain ⟨used, htag, htext⟩ := tagged_of_bodyOf hbody
  cases h
  exact ⟨used, .scalar kind htag hdecode, htext⟩

theorem openAngle_append (name : String) (s s' within : Bytes) :
    openAngle name s s' ++ within =
      s ++ (openTag name ++ (s' ++ (ascii ">" ++ within))) := by
  simp only [openAngle, List.append_assoc]

theorem openAngle_of_openContainer {name message : String}
    {text within : Bytes}
    (h : openContainer name message text = .ok ((), within)) :
    ∃ s s', Spaces s ∧ Spaces s' ∧ text = openAngle name s s' ++ within := by
  rw [openContainer, bind_apply, bind_eq_ok] at h
  obtain ⟨⟨found, text'⟩, hname, h⟩ := h
  cases found with
  | false => cases h
  | true =>
      rw [if_pos rfl, bind_apply, bind_eq_ok] at h
      obtain ⟨⟨closed, text''⟩, hangle, h⟩ := h
      cases closed with
      | false => cases h
      | true =>
          cases h
          obtain ⟨s, hs, htext⟩ := spaces_of_consume hname
          obtain ⟨s', hs', htext'⟩ := spaces_of_consume hangle
          refine ⟨s, s', hs, hs', ?_⟩
          simp only at htext htext'
          rw [htext, htext', openAngle_append, openTag]

/-- A container that is read has an open tag, and an inside that is read. -/
theorem openAngle_of_readContainer {α : Type} {name message : String}
    {inside : XmlParser α} {wrap : α → Plist} {text rest : Bytes}
    {value : Plist}
    (h : readContainer name message inside wrap text = .ok (value, rest)) :
    ∃ s s' within x, Spaces s ∧ Spaces s' ∧
      text = openAngle name s s' ++ within ∧
      inside within = .ok (x, rest) ∧ value = wrap x := by
  rw [readContainer, bind_eq_ok] at h
  obtain ⟨⟨⟨⟩, within⟩, hopen, h⟩ := h
  obtain ⟨⟨x, after⟩, hinside, h⟩ := bind_eq_ok.mp h
  cases h
  obtain ⟨s, s', hs, hs', htext⟩ := openAngle_of_openContainer hopen
  exact ⟨s, s', within, x, hs, hs', htext, hinside, rfl⟩

/-- The parsers accept only what is written. -/
def Sound (fuel : Nat) : Prop :=
  (∀ text value rest, parseValue fuel text = .ok (value, rest) →
    ∃ used, Written (.value value) used ∧ text = used ++ rest) ∧
  (∀ text parsed all rest, parseItems fuel parsed text = .ok (all, rest) →
    ∃ items used, Written (.items items) used ∧ all = parsed ++ items ∧
      text = used ++ rest) ∧
  ∀ text map all rest, parseEntries fuel map text = .ok (all, rest) →
    ∃ entries used, Written (.entries entries) used ∧
      all = collect entries map ∧ text = used ++ rest

theorem written_of_parseElement {fuel : Nat} (hsound : Sound fuel)
    {text rest : Bytes} {value : Plist}
    (h : parseElement (parseItems fuel []) (parseEntries fuel []) text =
      .ok (value, rest)) :
    ∃ used, Written (.value value) used ∧ text = used ++ rest := by
  obtain ⟨-, hitems, hentries⟩ := hsound
  rw [parseElement_apply] at h
  split_ifs at h
  · exact written_of_readScalar h
  · exact written_of_readScalar h
  · exact written_of_readScalar h
  · exact written_of_readScalar h
  · exact written_of_readScalar h
  · obtain ⟨s, s', within, all, hs, hs', htext, hinside, rfl⟩ :=
      openAngle_of_readContainer h
    obtain ⟨items, used, hwritten, hall, hwithin⟩ := hitems _ _ _ _ hinside
    rw [List.nil_append] at hall
    rw [hall]
    exact ⟨_, .array hs hs' hwritten, by
      rw [htext, hwithin, List.append_assoc]⟩
  · obtain ⟨s, s', within, all, hs, hs', htext, hinside, rfl⟩ :=
      openAngle_of_readContainer h
    obtain ⟨entries, used, hwritten, hall, hwithin⟩ :=
      hentries _ _ _ _ hinside
    rw [hall]
    exact ⟨_, .dictionary hs hs' hwritten, by
      rw [htext, hwithin, List.append_assoc]⟩
  · cases h

theorem consume_cases (token text : Bytes) :
    (∃ rest, consume token text = .ok (true, rest)) ∨
      consume token text = .ok (false, text.dropWhile isSpace) := by
  rw [consume_apply]
  split
  · exact .inl ⟨_, rfl⟩
  · exact .inr rfl

/-- A value is one of the constants, or an element with a body. -/
theorem parseValue_cases (fuel : Nat) (text : Bytes) :
    (∃ message, parseValue (fuel + 1) text =
      .error (.error (protocolError message))) ∨
    (∃ (kind : Constant) (rest : Bytes),
      consume kind.text (text.dropWhile isSpace) = .ok (true, rest) ∧
      parseValue (fuel + 1) text = .ok (kind.value, rest)) ∨
    parseValue (fuel + 1) text =
      parseElement (parseItems fuel []) (parseEntries fuel [])
        (text.dropWhile isSpace) := by
  rw [parseValue_succ]
  split
  · exact .inl ⟨_, rfl⟩
  · right
    rw [bind_apply]
    rcases consume_cases (ascii "<true/>") (text.dropWhile isSpace) with
      ⟨rest, htrue⟩ | htrue
    · refine .inl ⟨.true, rest, htrue, ?_⟩
      rw [htrue]
      rfl
    rw [htrue, dropWhile_idem, ok_bind, if_neg Bool.false_ne_true, bind_apply]
    rcases consume_cases (ascii "<false/>") (text.dropWhile isSpace) with
      ⟨rest, hfalse⟩ | hfalse
    · refine .inl ⟨.false, rest, hfalse, ?_⟩
      rw [hfalse]
      rfl
    rw [hfalse, dropWhile_idem, ok_bind, if_neg Bool.false_ne_true, bind_apply]
    rcases consume_cases (ascii "<null/>") (text.dropWhile isSpace) with
      ⟨rest, hnull⟩ | hnull
    · refine .inl ⟨.null, rest, hnull, ?_⟩
      rw [hnull]
      rfl
    rw [hnull, dropWhile_idem, ok_bind, if_neg Bool.false_ne_true]
    exact .inr rfl

/-- White space before a text that is written is part of it. -/
theorem Written.spaces {s used : Bytes} {node : Node} (hs : Spaces s)
    (h : Written node used) : Written node (s ++ used) := by
  induction h with
  | constant kind hs' =>
      rw [← List.append_assoc]
      exact .constant kind (hs.append hs')
  | scalar kind htag hvalue => exact .scalar kind (htag.spaces hs) hvalue
  | array hs' hs'' hitems =>
      have h := Written.array (hs.append hs') hs'' hitems
      simpa only [openAngle, List.append_assoc] using h
  | dictionary hs' hs'' hentries =>
      have h := Written.dictionary (hs.append hs') hs'' hentries
      simpa only [openAngle, List.append_assoc] using h
  | itemsEnd hs' =>
      rw [← List.append_assoc]
      exact .itemsEnd (hs.append hs')
  | itemsCons hitem hitems ih _ =>
      rw [← List.append_assoc]
      exact .itemsCons ih hitems
  | entriesEnd hs' =>
      rw [← List.append_assoc]
      exact .entriesEnd (hs.append hs')
  | entriesCons hkey hitem hentries =>
      rw [← List.append_assoc]
      exact .entriesCons (hkey.spaces hs) hitem hentries

/-- A text is its leading white space and what comes after. -/
theorem eq_spaces_append (text : Bytes) :
    ∃ s, Spaces s ∧ text = s ++ text.dropWhile isSpace :=
  ⟨_, spaces_takeWhile text, List.takeWhile_append_dropWhile.symm⟩

theorem sound_value {fuel : Nat} (hsound : Sound fuel) {text rest : Bytes}
    {value : Plist} (h : parseValue (fuel + 1) text = .ok (value, rest)) :
    ∃ used, Written (.value value) used ∧ text = used ++ rest := by
  obtain ⟨s, hs, htext⟩ := eq_spaces_append text
  rcases parseValue_cases fuel text with
    ⟨message, hfail⟩ | ⟨kind, after, hconsume, hparse⟩ | helement
  · rw [hfail] at h
    cases h
  · rw [hparse] at h
    cases h
    obtain ⟨s', hs', hafter⟩ := spaces_of_consume hconsume
    refine ⟨_, .constant kind (hs.append hs'), ?_⟩
    rw [htext, hafter]
    simp only [List.append_assoc]
  · rw [helement] at h
    obtain ⟨used, hwritten, hused⟩ := written_of_parseElement hsound h
    refine ⟨_, hwritten.spaces hs, ?_⟩
    rw [List.append_assoc, ← hused]
    exact htext

theorem parseItems_succ (fuel : Nat) (parsed : List Plist) (text : Bytes) :
    parseItems (fuel + 1) parsed text =
      consume (closeTag "array") text >>= fun x =>
        if x.1 then .ok (parsed, x.2)
        else parseValue fuel x.2 >>= fun y =>
          parseItems fuel (parsed ++ [y.1]) y.2 := by
  rw [parseItems, bind_apply]
  change consume (closeTag "array") (text.dropWhile isSpace) >>= _ = _
  rw [consume_dropWhile]
  refine congrArg _ (funext fun x => ?_)
  obtain ⟨found, rest⟩ := x
  cases found <;> rfl

theorem parseEntries_succ (fuel : Nat) (map : List (Bytes × Plist))
    (text : Bytes) :
    parseEntries (fuel + 1) map text =
      consume (closeTag "dict") text >>= fun x =>
        if x.1 then .ok (map, x.2)
        else bodyOf "key" x.2 >>= fun y => parseValue fuel y.2 >>= fun z =>
          parseEntries fuel (SortedMap.emplace (xmlUnescape y.1) z.1 map)
            z.2 := by
  rw [parseEntries, bind_apply]
  change consume (closeTag "dict") (text.dropWhile isSpace) >>= _ = _
  rw [consume_dropWhile]
  refine congrArg _ (funext fun x => ?_)
  obtain ⟨found, rest⟩ := x
  cases found <;> rfl

theorem sound_items {fuel : Nat} (hsound : Sound fuel) {text rest : Bytes}
    {parsed all : List Plist}
    (h : parseItems (fuel + 1) parsed text = .ok (all, rest)) :
    ∃ items used, Written (.items items) used ∧ all = parsed ++ items ∧
      text = used ++ rest := by
  obtain ⟨hvalue, hitems, -⟩ := hsound
  rw [parseItems_succ, bind_eq_ok] at h
  obtain ⟨⟨found, after⟩, hclose, h⟩ := h
  cases found with
  | true =>
      obtain ⟨s, hs, htext⟩ := spaces_of_consume hclose
      cases h
      exact ⟨[], _, .itemsEnd hs, (List.append_nil _).symm, by
        rw [htext, List.append_assoc]⟩
  | false =>
      obtain ⟨s, hs, htext⟩ := eq_spaces_append text
      have hafter := eq_of_consume_false hclose
      obtain ⟨⟨item, after'⟩, hitem, h⟩ := bind_eq_ok.mp h
      obtain ⟨used, hwritten, hused⟩ := hvalue _ _ _ hitem
      obtain ⟨items, usedRest, hwritten', hall, hrest⟩ := hitems _ _ _ _ h
      refine ⟨item :: items, _, .itemsCons (hwritten.spaces hs) hwritten', ?_,
        ?_⟩
      · rw [hall, List.append_assoc, List.singleton_append]
      · simp only at hafter hused hrest
        rw [htext, ← hafter, hused, hrest]
        simp only [List.append_assoc]

theorem sound_entries {fuel : Nat} (hsound : Sound fuel) {text rest : Bytes}
    {map all : List (Bytes × Plist)}
    (h : parseEntries (fuel + 1) map text = .ok (all, rest)) :
    ∃ entries used, Written (.entries entries) used ∧
      all = collect entries map ∧ text = used ++ rest := by
  obtain ⟨hvalue, -, hentries⟩ := hsound
  rw [parseEntries_succ, bind_eq_ok] at h
  obtain ⟨⟨found, after⟩, hclose, h⟩ := h
  cases found with
  | true =>
      obtain ⟨s, hs, htext⟩ := spaces_of_consume hclose
      cases h
      exact ⟨[], _, .entriesEnd hs, rfl, by rw [htext, List.append_assoc]⟩
  | false =>
      obtain ⟨s, hs, htext⟩ := eq_spaces_append text
      have hafter := eq_of_consume_false hclose
      obtain ⟨⟨key, afterKey⟩, hkey, h⟩ := bind_eq_ok.mp h
      obtain ⟨⟨item, afterItem⟩, hitem, h⟩ := bind_eq_ok.mp h
      obtain ⟨keyUsed, htag, hkeyUsed⟩ := tagged_of_bodyOf hkey
      obtain ⟨used, hwritten, hused⟩ := hvalue _ _ _ hitem
      obtain ⟨entries, usedRest, hwritten', hall, hrest⟩ :=
        hentries _ _ _ _ h
      refine ⟨(xmlUnescape key, item) :: entries, _,
        .entriesCons (htag.spaces hs) hwritten hwritten', hall, ?_⟩
      simp only at hafter hkeyUsed hused hrest
      rw [htext, ← hafter, hkeyUsed, hused, hrest]
      simp only [List.append_assoc]

theorem sound (fuel : Nat) : Sound fuel := by
  induction fuel with
  | zero =>
      refine ⟨?_, ?_, ?_⟩
      · intro text value rest h
        cases h
      · intro text parsed all rest h
        cases h
      · intro text map all rest h
        cases h
  | succ fuel ih =>
      refine ⟨?_, ?_, ?_⟩
      · intro text value rest h
        exact sound_value ih h
      · intro text parsed all rest h
        exact sound_items ih h
      · intro text map all rest h
        exact sound_entries ih h

/-! ## What is written is accepted -/

/-- A node is read from a text, whatever follows. -/
def Accepts (used : Bytes) : Node → Prop
  | .value value => ∀ fuel rest, used.length ≤ fuel →
      parseValue fuel (used ++ rest) = .ok (value, rest)
  | .items items => ∀ fuel parsed rest, used.length ≤ fuel →
      parseItems fuel parsed (used ++ rest) = .ok (parsed ++ items, rest)
  | .entries entries => ∀ fuel map rest, used.length ≤ fuel →
      parseEntries fuel map (used ++ rest) = .ok (collect entries map, rest)

/-- The text of a value begins with the start of an open tag. -/
def Opening (used : Bytes) : Prop :=
  ∃ s c tail, Spaces s ∧ used = s ++ (0x3c :: c :: tail) ∧ c ≠ 0x2f

theorem Opening.length_pos {used : Bytes} (h : Opening used) :
    0 < used.length := by
  obtain ⟨s, c, tail, -, rfl, -⟩ := h
  simp

theorem Tagged.opening {name : String} {c : UInt8} {tail used body : Bytes}
    (hname : ascii name = c :: tail) (hc : c ≠ 0x2f)
    (h : Tagged name used body) : Opening used := by
  cases h with
  | selfClosing hs hs' =>
      exact ⟨_, c, _, hs, by rw [openTag, hname]; rfl, hc⟩
  | paired hs hs' hbody =>
      exact ⟨_, c, _, hs, by rw [openTag, hname]; rfl, hc⟩

theorem Written.opening {value : Plist} {used : Bytes}
    (h : Written (.value value) used) : Opening used := by
  cases h with
  | constant kind hs =>
      cases kind <;> exact ⟨_, _, _, hs, rfl, by decide⟩
  | scalar kind htag hvalue =>
      cases kind <;> exact htag.opening rfl (by decide)
  | @array s s' used items hs hs' hitems =>
      exact ⟨s, 0x61, ascii "rray" ++ (s' ++ (ascii ">" ++ used)), hs,
        openAngle_append "array" s s' used, by decide⟩
  | @dictionary s s' used entries hs hs' hentries =>
      exact ⟨s, 0x64, ascii "ict" ++ (s' ++ (ascii ">" ++ used)), hs,
        openAngle_append "dict" s s' used, by decide⟩

/-- A value or a key is not taken for a close tag. -/
theorem consume_closeTag_of_opening {used : Bytes} (h : Opening used)
    (name : String) (rest : Bytes) :
    consume (closeTag name) (used ++ rest) =
      .ok (false, (used ++ rest).dropWhile isSpace) := by
  obtain ⟨s, c, tail, hs, rfl, hc⟩ := h
  have hsolid : Solid (0x3c :: c :: (tail ++ rest)) := ⟨0x3c, _, rfl, rfl⟩
  have hnot : (closeTag name).isPrefixOf (0x3c :: c :: (tail ++ rest)) =
      false := by
    have hclose : closeTag name = 0x3c :: 0x2f :: (ascii name ++ ascii ">") :=
      rfl
    simp [hclose, List.isPrefixOf, hc.symm]
  have htext : s ++ 0x3c :: c :: tail ++ rest =
      s ++ (0x3c :: c :: (tail ++ rest)) := by simp
  rw [htext, consume_of_not_prefix hs hsolid hnot, dropWhile_spaces hs hsolid]

theorem parseValue_dropWhile (fuel : Nat) (text : Bytes) :
    parseValue fuel (text.dropWhile isSpace) = parseValue fuel text := by
  cases fuel with
  | zero => rfl
  | succ fuel => rw [parseValue_succ, parseValue_succ, dropWhile_idem]

theorem bodyOf_dropWhile (name : String) (text : Bytes) :
    bodyOf name (text.dropWhile isSpace) = bodyOf name text := by
  rw [bodyOf, bind_apply, bind_apply, consume_dropWhile]

theorem parseValue_of_solid {s text : Bytes} (hs : Spaces s) (h : Solid text)
    (fuel : Nat) : parseValue fuel (s ++ text) = parseValue fuel text := by
  rw [← parseValue_dropWhile, dropWhile_spaces hs h]

theorem accepts_constant (kind : Constant) {s : Bytes} (hs : Spaces s) :
    Accepts (s ++ kind.text) (.value kind.value) := by
  intro fuel rest hfuel
  have hsolid : Solid (kind.text ++ rest) := by
    cases kind <;> exact ⟨0x3c, _, rfl, rfl⟩
  have hpos : 0 < kind.text.length := by cases kind <;> decide
  obtain ⟨fuel, rfl⟩ := Nat.exists_eq_add_one_of_ne_zero (n := fuel) (by
    rw [List.length_append] at hfuel
    omega)
  rw [List.append_assoc, parseValue_of_solid hs hsolid]
  cases kind <;> rfl

/-- An element that is read as its open tag tells. -/
theorem parseValue_openTag_scalar (kind : Scalar) (fuel : Nat) (tail : Bytes) :
    parseValue (fuel + 1) (openTag kind.name ++ tail) =
      readScalar kind (openTag kind.name ++ tail) := by
  have helement : parseValue (fuel + 1) (openTag kind.name ++ tail) =
      parseElement (parseItems fuel []) (parseEntries fuel [])
        (openTag kind.name ++ tail) := by
    cases kind <;> rfl
  rw [helement, parseElement_apply]
  cases kind <;> rfl

theorem parseValue_openTag_array (fuel : Nat) (tail : Bytes) :
    parseValue (fuel + 1) (openTag "array" ++ tail) =
      readContainer "array" "the array is malformed" (parseItems fuel [])
        .array (openTag "array" ++ tail) := rfl

theorem parseValue_openTag_dict (fuel : Nat) (tail : Bytes) :
    parseValue (fuel + 1) (openTag "dict" ++ tail) =
      readContainer "dict" "the dictionary is malformed" (parseEntries fuel [])
        .dictionary (openTag "dict" ++ tail) := rfl

theorem Tagged.exists_openTag {name : String} {used body : Bytes}
    (h : Tagged name used body) :
    ∃ s tail, Spaces s ∧ used = s ++ (openTag name ++ tail) ∧
      Tagged name (openTag name ++ tail) body := by
  cases h with
  | selfClosing hs hs' => exact ⟨_, _, hs, rfl, .selfClosing spaces_nil hs'⟩
  | paired hs hs' hbody => exact ⟨_, _, hs, rfl, .paired spaces_nil hs' hbody⟩

theorem accepts_scalar (kind : Scalar) {used body : Bytes} {value : Plist}
    (htag : Tagged kind.name used body)
    (hvalue : kind.decode body = .ok value) : Accepts used (.value value) := by
  intro fuel rest hfuel
  obtain ⟨s, tail, hs, rfl, htag'⟩ := htag.exists_openTag
  obtain ⟨fuel, rfl⟩ := Nat.exists_eq_add_one_of_ne_zero (n := fuel) (by
    have hpos : 0 < (openTag kind.name).length := Nat.succ_pos _
    simp only [List.length_append] at hfuel
    omega)
  have hbody := bodyOf_of_tagged htag' rest
  rw [List.append_assoc] at hbody
  rw [List.append_assoc, List.append_assoc,
    parseValue_of_solid hs ((solid_openTag kind.name).append _),
    parseValue_openTag_scalar, readScalar, hbody, ok_bind, hvalue, ok_bind]

/-- The open tag of a container is read. -/
theorem readContainer_openAngle {α : Type} (name message : String)
    (inside : XmlParser α) (wrap : α → Plist) {s' : Bytes} (hs' : Spaces s')
    (within : Bytes) :
    readContainer name message inside wrap
        (openTag name ++ (s' ++ (ascii ">" ++ within))) =
      inside within >>= fun y => .ok (wrap y.1, y.2) := by
  have hopen := consume_of_spaces spaces_nil (solid_openTag name)
    (s' ++ (ascii ">" ++ within))
  have hangle := consume_of_spaces hs' solid_angle within
  rw [List.nil_append, openTag] at hopen
  rw [readContainer, openContainer, bind_apply, openTag, hopen, ok_bind,
    if_pos rfl, bind_apply, hangle]
  rfl

/-- A container is read when its inside is. -/
theorem accepts_container {α : Type} {name message : String} {s s' used : Bytes}
    {inside : Nat → XmlParser α} {wrap : α → Plist} {x : α} (hs : Spaces s)
    (hs' : Spaces s')
    (hread : ∀ fuel tail, parseValue (fuel + 1) (openTag name ++ tail) =
      readContainer name message (inside fuel) wrap (openTag name ++ tail))
    (h : ∀ fuel rest, used.length ≤ fuel →
      inside fuel (used ++ rest) = .ok (x, rest)) :
    Accepts (openAngle name s s' ++ used) (.value (wrap x)) := by
  intro fuel rest hfuel
  rw [openAngle_append] at hfuel ⊢
  have hpos : 0 < (openTag name).length := Nat.succ_pos _
  simp only [List.length_append] at hfuel
  obtain ⟨fuel, rfl⟩ := Nat.exists_eq_add_one_of_ne_zero (n := fuel) (by omega)
  simp only [List.append_assoc]
  rw [parseValue_of_solid hs ((solid_openTag name).append _), hread,
    readContainer_openAngle _ _ _ _ hs', h fuel rest (by omega), ok_bind]

theorem accepts_itemsEnd {s : Bytes} (hs : Spaces s) :
    Accepts (s ++ closeTag "array") (.items []) := by
  intro fuel parsed rest hfuel
  have hpos : 0 < (closeTag "array").length := Nat.succ_pos _
  rw [List.length_append] at hfuel
  obtain ⟨fuel, rfl⟩ := Nat.exists_eq_add_one_of_ne_zero (n := fuel) (by omega)
  rw [List.append_assoc, parseItems_succ,
    consume_of_spaces hs (solid_closeTag _), ok_bind, if_pos rfl,
    List.append_nil]

theorem accepts_itemsCons {used after : Bytes} {item : Plist}
    {items : List Plist} (hopening : Opening used) (hafter : after ≠ [])
    (hitem : Accepts used (.value item)) (hitems : Accepts after (.items items)) :
    Accepts (used ++ after) (.items (item :: items)) := by
  intro fuel parsed rest hfuel
  have hpos := hopening.length_pos
  have hpos' := List.length_pos_iff.mpr hafter
  rw [List.length_append] at hfuel
  obtain ⟨fuel, rfl⟩ := Nat.exists_eq_add_one_of_ne_zero (n := fuel) (by omega)
  rw [List.append_assoc, parseItems_succ, consume_closeTag_of_opening hopening,
    ok_bind, if_neg Bool.false_ne_true, parseValue_dropWhile,
    hitem fuel _ (by omega), ok_bind, hitems fuel _ rest (by omega),
    List.append_assoc, List.singleton_append]

theorem accepts_entriesEnd {s : Bytes} (hs : Spaces s) :
    Accepts (s ++ closeTag "dict") (.entries []) := by
  intro fuel map rest hfuel
  have hpos : 0 < (closeTag "dict").length := Nat.succ_pos _
  rw [List.length_append] at hfuel
  obtain ⟨fuel, rfl⟩ := Nat.exists_eq_add_one_of_ne_zero (n := fuel) (by omega)
  rw [List.append_assoc, parseEntries_succ,
    consume_of_spaces hs (solid_closeTag _), ok_bind, if_pos rfl]
  rfl

theorem accepts_entriesCons {keyUsed key used after : Bytes} {item : Plist}
    {entries : List (Bytes × Plist)} (hkey : Tagged "key" keyUsed key)
    (hafter : after ≠ []) (hitem : Accepts used (.value item))
    (hentries : Accepts after (.entries entries)) :
    Accepts (keyUsed ++ (used ++ after))
      (.entries ((xmlUnescape key, item) :: entries)) := by
  intro fuel map rest hfuel
  have hopening : Opening keyUsed := hkey.opening rfl (by decide)
  have hpos := hopening.length_pos
  have hpos' := List.length_pos_iff.mpr hafter
  simp only [List.length_append] at hfuel
  obtain ⟨fuel, rfl⟩ := Nat.exists_eq_add_one_of_ne_zero (n := fuel) (by omega)
  simp only [List.append_assoc]
  rw [parseEntries_succ, consume_closeTag_of_opening hopening, ok_bind,
    if_neg Bool.false_ne_true, bodyOf_dropWhile, bodyOf_of_tagged hkey, ok_bind,
    hitem fuel _ (by omega), ok_bind, hentries fuel _ rest (by omega)]
  rfl

theorem Written.ne_nil {node : Node} {used : Bytes} (h : Written node used) :
    used ≠ [] := by
  cases node with
  | value value => exact List.length_pos_iff.mp h.opening.length_pos
  | items items =>
      cases h with
      | itemsEnd hs => exact List.append_ne_nil_of_right_ne_nil _ (closeTag_ne_nil _)
      | itemsCons hitem hitems =>
          exact List.append_ne_nil_of_left_ne_nil
            (List.length_pos_iff.mp hitem.opening.length_pos) _
  | entries entries =>
      cases h with
      | entriesEnd hs =>
          exact List.append_ne_nil_of_right_ne_nil _ (closeTag_ne_nil _)
      | entriesCons hkey hitem hentries =>
          have hopening := hkey.opening rfl (by decide)
          exact List.append_ne_nil_of_left_ne_nil
            (List.length_pos_iff.mp hopening.length_pos) _

/-- What the grammar writes is read as the grammar says, whatever follows, with the
white space that may stand in front of it. -/
theorem accepts {node : Node} {used : Bytes} (h : Written node used) :
    Accepts used node := by
  induction h with
  | constant kind hs => exact accepts_constant kind hs
  | scalar kind htag hvalue => exact accepts_scalar kind htag hvalue
  | array hs hs' _ ih =>
      exact accepts_container hs hs' parseValue_openTag_array
        fun fuel rest hfuel => ih fuel [] rest hfuel
  | dictionary hs hs' _ ih =>
      exact accepts_container hs hs' parseValue_openTag_dict
        fun fuel rest hfuel => ih fuel [] rest hfuel
  | itemsEnd hs => exact accepts_itemsEnd hs
  | itemsCons hitem hitems ih ih' =>
      exact accepts_itemsCons hitem.opening hitems.ne_nil ih ih'
  | entriesEnd hs => exact accepts_entriesEnd hs
  | entriesCons hkey _ hentries ih ih' =>
      exact accepts_entriesCons hkey hentries.ne_nil ih ih'

end XmlParser

end Ioscpp.Protocol.Plist
