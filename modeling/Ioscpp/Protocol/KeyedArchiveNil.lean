import Ioscpp.Protocol.KeyedArchiveRoundTrip
import Ioscpp.Support.SortedMapFind

/-!
# Null references in keyed archives

The first place of the table is a placeholder: a reference to it stands for null.
The resolver follows such a reference like any other, to the string that the
placeholder is.  `Means` is what an archive stands for, `ShowsNil` says that a
reference to the placeholder is the place of a value in it.

## Main results

- `resolve_of_means`: what stands for something is resolved, and as what it stands for
  unless it shows a null reference.
- `not_showsNil_of_resolve`: nothing that shows one is resolved as what it stands for.
- `unarchive_means_iff`: so it is for archives.
-/

namespace Ioscpp.Protocol.KeyedArchive

open Ioscpp.Support
open Plist

/-! ## The shapes of objects -/

/-- What a value of the table is made of. -/
inductive Shape where
  /-- A reference to an object. -/
  | reference (object : Plist)
  /-- An array, of such references. -/
  | items (refs : List Plist)
  /-- A dictionary, of a key and a value for each entry. -/
  | entries (pairs : List (Plist × Plist))
  /-- A value that stays as it is. -/
  | plain (value : Plist)

/-- The shape of a value, unless it is malformed. -/
def shapeOf (objects : List Plist) (value : Plist) : Option Shape :=
  match value with
  | uid index => (objects[index.toNat]?).map Shape.reference
  | array refs => some (.items refs)
  | dictionary _ =>
      match value.find (ascii "$class") with
      | none => some (.plain value)
      | some (uid index) =>
          match objects[index.toNat]? with
          | none => none
          | some definition =>
              let name := ((definition.find (ascii "$classname")).map
                (·.stringOr [])).getD []
              if name = ascii "NSArray" ∨ name = ascii "NSMutableArray" then
                ((value.find (ascii "NS.objects")).bind arrayOf).map Shape.items
              else if name = ascii "NSDictionary" ∨
                  name = ascii "NSMutableDictionary" then
                match (value.find (ascii "NS.keys")).bind arrayOf,
                  (value.find (ascii "NS.objects")).bind arrayOf with
                | some keys, some refs =>
                    if keys.length ≠ refs.length then none
                    else some (.entries (keys.zip refs))
                | _, _ => none
              else some (.plain value)
      | some _ => none
  | value => some (.plain value)

/-- What a shape stands for, given what its values stand for and how its keys are
read. -/
inductive ShapeMeans (means : Plist → Plist → Prop) (reads : Plist → Bytes → Prop) :
    Shape → Plist → Prop
  | reference {object meant : Plist} (h : means object meant) :
      ShapeMeans means reads (.reference object) meant
  | items {refs items : List Plist} (h : List.Forall₂ means refs items) :
      ShapeMeans means reads (.items refs) (.array items)
  | entries {pairs : List (Plist × Plist)} {texts : List Bytes} {items : List Plist}
      (hkeys : List.Forall₂ reads (pairs.map Prod.fst) texts)
      (h : List.Forall₂ means (pairs.map Prod.snd) items) :
      ShapeMeans means reads (.entries pairs)
        (.dictionary (SortedMap.ofEntries (texts.zip items)))
  | plain (value : Plist) : ShapeMeans means reads (.plain value) value

/-- How a key is read by a resolver: what is no string counts as an empty one. -/
def KeyRead (resolve : Plist → Result Plist) (key : Plist) (text : Bytes) : Prop :=
  ∃ value, resolve key = .ok value ∧ text = value.stringOr []

theorem resolveEntries_eq_ok {f : Plist → Result Plist} {pairs : List (Plist × Plist)}
    {found entries : List (Bytes × Plist)} :
    resolveEntries f pairs found = .ok entries ↔
      ∃ texts items, List.Forall₂ (KeyRead f) (pairs.map Prod.fst) texts ∧
        List.Forall₂ (fun ref item => f ref = .ok item) (pairs.map Prod.snd) items ∧
        entries = (texts.zip items).foldl
          (fun map entry => SortedMap.emplace entry.1 entry.2 map) found := by
  induction pairs generalizing found with
  | nil =>
      constructor
      · intro h
        cases h
        exact ⟨[], [], .nil, .nil, rfl⟩
      · intro h
        obtain ⟨texts, items, htexts, hitems, rfl⟩ := h
        cases htexts
        cases hitems
        rfl
  | cons pair pairs ih =>
      obtain ⟨key, ref⟩ := pair
      rw [resolveEntries, bind_eq_ok]
      constructor
      · intro h
        obtain ⟨value, hkey, h⟩ := h
        obtain ⟨item, hitem, h⟩ := bind_eq_ok.mp h
        obtain ⟨texts, items, htexts, hitems, heq⟩ := ih.mp h
        exact ⟨_ :: texts, item :: items, .cons ⟨value, hkey, rfl⟩ htexts,
          .cons hitem hitems, heq⟩
      · intro h
        obtain ⟨texts, items, htexts, hitems, heq⟩ := h
        cases htexts with
        | cons hkey htexts =>
            cases hitems with
            | cons hitem hitems =>
                obtain ⟨value, hkey, rfl⟩ := hkey
                refine ⟨value, hkey, ?_⟩
                rw [bind_eq_ok]
                exact ⟨_, hitem, ih.mpr ⟨_, _, htexts, hitems, heq⟩⟩

section Resolver

variable {f : Plist → Result Plist} {result : Plist}

/-- What the shape of a value gives, by a resolver of its references. -/
def ShapeGives (f : Plist → Result Plist) (shape : Option Shape) (result : Plist) :
    Prop :=
  ∃ given, shape = some given ∧
    ShapeMeans (fun value result => f value = .ok result) (KeyRead f) given result

theorem shapeGives_none : ¬ ShapeGives f none result := by
  intro h
  obtain ⟨given, hshape, -⟩ := h
  cases hshape

theorem shapeGives_plain {value : Plist} :
    (.ok value : Result Plist) = .ok result ↔
      ShapeGives f (some (.plain value)) result := by
  constructor
  · intro h
    cases h
    exact ⟨_, rfl, .plain _⟩
  · intro h
    obtain ⟨given, hshape, hmeans⟩ := h
    cases hshape
    cases hmeans
    rfl

theorem shapeGives_reference {object : Plist} :
    f object = .ok result ↔ ShapeGives f (some (.reference object)) result := by
  constructor
  · intro h
    exact ⟨_, rfl, .reference h⟩
  · intro h
    obtain ⟨given, hshape, hmeans⟩ := h
    cases hshape
    cases hmeans with
    | reference h => exact h

theorem shapeGives_items {refs : List Plist} :
    (refs.mapM f >>= fun items => (.ok (.array items) : Result Plist)) = .ok result ↔
      ShapeGives f (some (.items refs)) result := by
  rw [bind_eq_ok]
  constructor
  · intro h
    obtain ⟨items, hitems, h⟩ := h
    cases h
    exact ⟨_, rfl, .items (ObjectGraph.mapM_eq_ok_iff.mp hitems)⟩
  · intro h
    obtain ⟨given, hshape, hmeans⟩ := h
    cases hshape
    cases hmeans with
    | items hitems => exact ⟨_, ObjectGraph.mapM_eq_ok_iff.mpr hitems, rfl⟩

theorem shapeGives_entries {pairs : List (Plist × Plist)} :
    (resolveEntries f pairs [] >>= fun entries =>
        (.ok (.dictionary entries) : Result Plist)) = .ok result ↔
      ShapeGives f (some (.entries pairs)) result := by
  rw [bind_eq_ok]
  constructor
  · intro h
    obtain ⟨entries, hentries, h⟩ := h
    obtain ⟨texts, items, htexts, hitems, rfl⟩ := resolveEntries_eq_ok.mp hentries
    cases h
    exact ⟨_, rfl, .entries htexts hitems⟩
  · intro h
    obtain ⟨given, hshape, hmeans⟩ := h
    cases hshape
    cases hmeans with
    | entries htexts hitems =>
        exact ⟨_, resolveEntries_eq_ok.mpr ⟨_, _, htexts, hitems, rfl⟩, rfl⟩

theorem error_ne_ok {e : Fault Error} :
    (.error e : Result Plist) = .ok result ↔ ShapeGives f none result := by
  constructor
  · intro h
    cases h
  · intro h
    exact absurd h shapeGives_none

/-- The resolver gives what the shape of a value gives. -/
theorem resolveObject_eq_ok {objects : List Plist} {value : Plist} :
    resolveObject objects f value = .ok result ↔
      ShapeGives f (shapeOf objects value) result := by
  cases value with
  | uid index =>
      rw [resolveObject, shapeOf]
      cases objects[index.toNat]? with
      | none => exact error_ne_ok
      | some object => exact shapeGives_reference
  | array refs => exact shapeGives_items
  | dictionary entries =>
      unfold resolveObject shapeOf
      dsimp only
      cases Plist.find (ascii "$class") (.dictionary entries) with
      | none => exact shapeGives_plain
      | some reference =>
          cases reference with
          | uid index =>
              dsimp only
              cases objects[index.toNat]? with
              | none => exact error_ne_ok
              | some definition =>
                  dsimp only
                  split
                  · cases (Plist.find (ascii "NS.objects")
                        (.dictionary entries)).bind arrayOf with
                    | none => exact error_ne_ok
                    | some refs => exact shapeGives_items
                  split
                  · cases (Plist.find (ascii "NS.keys")
                        (.dictionary entries)).bind arrayOf with
                    | none => exact error_ne_ok
                    | some keys =>
                        cases (Plist.find (ascii "NS.objects")
                            (.dictionary entries)).bind arrayOf with
                        | none => exact error_ne_ok
                        | some refs =>
                            dsimp only
                            split
                            · exact error_ne_ok
                            · exact shapeGives_entries
                  · exact shapeGives_plain
          | _ => exact error_ne_ok
  | _ => exact shapeGives_plain

end Resolver

/-! ## What an archive stands for -/

/-- What a value of the table stands for, within so many levels: a reference to the
placeholder stands for null, and takes a level for the placeholder as any reference
does for its object.  Keys are what the resolver reads them as. -/
def Means (objects : List Plist) : Nat → Plist → Plist → Prop
  | 0, _, _ => False
  | levels + 1, value, meant =>
      value = .uid 0 ∧ 0 < levels ∧ meant = .null ∨
        value ≠ .uid 0 ∧ ∃ shape, shapeOf objects value = some shape ∧
          ShapeMeans (Means objects levels) (KeyRead (resolve objects levels)) shape
            meant

/-- The string that a key leads to; what is no string counts as an empty one. -/
inductive KeyText (objects : List Plist) : Plist → Bytes → Prop
  | string (text : Bytes) : KeyText objects (.string text) text
  | reference {index : UInt64} {object : Plist} {text : Bytes}
      (hobject : objects[index.toNat]? = some object)
      (h : KeyText objects object text) : KeyText objects (.uid index) text
  | other {key : Plist} (hstring : ∀ text, key ≠ .string text)
      (hreference : ∀ index, key ≠ .uid index) : KeyText objects key []

/-- A reference to the placeholder is the place of a value: it is the value itself,
or an item of it, or the value of an entry that is the first of its key. -/
inductive ShowsNil (objects : List Plist) : Plist → Prop
  | nil : ShowsNil objects (.uid 0)
  | reference {value object : Plist}
      (hshape : shapeOf objects value = some (.reference object))
      (h : ShowsNil objects object) : ShowsNil objects value
  | item {value ref : Plist} {refs : List Plist}
      (hshape : shapeOf objects value = some (.items refs)) (hmem : ref ∈ refs)
      (h : ShowsNil objects ref) : ShowsNil objects value
  | entry {value key ref : Plist} {pairs before after : List (Plist × Plist)}
      {text : Bytes} (hshape : shapeOf objects value = some (.entries pairs))
      (hpairs : pairs = before ++ (key, ref) :: after)
      (hkey : KeyText objects key text)
      (hfirst : ∀ pair ∈ before, ¬ KeyText objects pair.1 text)
      (h : ShowsNil objects ref) : ShowsNil objects value

/-! ## Keys -/

theorem keyText_unique {objects : List Plist} {key : Plist} {text other : Bytes}
    (h : KeyText objects key text) (h' : KeyText objects key other) : text = other := by
  induction h with
  | string text =>
      cases h' with
      | string => rfl
      | other hstring => exact absurd rfl (hstring _)
  | reference hobject _ ih =>
      cases h' with
      | reference hobject' h' =>
          rw [hobject] at hobject'
          cases hobject'
          exact ih h'
      | other _ hreference => exact absurd rfl (hreference _)
  | other hstring hreference =>
      cases h' with
      | string => exact absurd rfl (hstring _)
      | reference => exact absurd rfl (hreference _)
      | other => rfl

theorem shapeOf_dictionary {objects : List Plist} {entries : List (Bytes × Plist)}
    {shape : Shape} (h : shapeOf objects (.dictionary entries) = some shape) :
    (∃ refs, shape = .items refs) ∨ (∃ pairs, shape = .entries pairs) ∨
      shape = .plain (.dictionary entries) := by
  unfold shapeOf at h
  dsimp only at h
  split at h
  · cases h
    exact Or.inr (Or.inr rfl)
  · split at h
    · cases h
    split at h
    · obtain ⟨refs, -, rfl⟩ := Option.map_eq_some_iff.mp h
      exact Or.inl ⟨refs, rfl⟩
    split at h
    · split at h
      · split at h
        · cases h
        · cases h
          exact Or.inr (Or.inl ⟨_, rfl⟩)
      · cases h
    · cases h
      exact Or.inr (Or.inr rfl)
  · cases h

/-- What is resolved from a dictionary is no string. -/
theorem stringOr_of_dictionary {objects : List Plist} {entries : List (Bytes × Plist)}
    {f : Plist → Result Plist} {value : Plist}
    (h : resolveObject objects f (.dictionary entries) = .ok value) :
    value.stringOr [] = [] := by
  obtain ⟨shape, hshape, hmeans⟩ := resolveObject_eq_ok.mp h
  rcases shapeOf_dictionary hshape with ⟨refs, rfl⟩ | ⟨pairs, rfl⟩ | rfl
  · cases hmeans
    rfl
  · cases hmeans
    rfl
  · cases hmeans
    rfl

/-- A key is read as the string that it leads to. -/
theorem keyText_of_keyRead {objects : List Plist} {levels : Nat} {key : Plist}
    {text : Bytes} (h : KeyRead (resolve objects levels) key text) :
    KeyText objects key text := by
  induction levels generalizing key text with
  | zero =>
      obtain ⟨value, hvalue, -⟩ := h
      cases hvalue
  | succ levels ih =>
      obtain ⟨value, hvalue, rfl⟩ := h
      cases key with
      | string text =>
          cases hvalue
          exact .string text
      | uid index =>
          obtain ⟨shape, hshape, hmeans⟩ := resolveObject_eq_ok.mp hvalue
          obtain ⟨object, hobject, rfl⟩ := Option.map_eq_some_iff.mp hshape
          cases hmeans with
          | reference h => exact .reference hobject (ih ⟨value, h, rfl⟩)
      | array refs =>
          obtain ⟨items, -, h⟩ := bind_eq_ok.mp hvalue
          cases h
          exact .other (by simp) (by simp)
      | dictionary entries =>
          rw [stringOr_of_dictionary hvalue]
          exact .other (by simp) (by simp)
      | _ =>
          cases hvalue
          exact .other (by simp) (by simp)

theorem keyText_of_keysRead {objects : List Plist} {levels : Nat} {keys : List Plist}
    {texts : List Bytes} (h : List.Forall₂ (KeyRead (resolve objects levels)) keys texts) :
    List.Forall₂ (KeyText objects) keys texts :=
  h.imp fun _ _ hkey => keyText_of_keyRead hkey

/-! ## Resolving -/

section Resolving

variable {objects : List Plist} (hnull : objects[0]? = some (.string kNull))

include hnull

/-- The resolver takes a reference to the placeholder for its string. -/
theorem resolve_nil {levels : Nat} (h : 0 < levels) :
    resolve objects (levels + 1) (.uid 0) = .ok (.string kNull) := by
  obtain ⟨levels, rfl⟩ := Nat.exists_eq_add_one_of_ne_zero h.ne'
  rw [resolve, resolveObject, show (0 : UInt64).toNat = 0 from rfl, hnull]
  rfl

omit hnull

/-- The entries of a dictionary, each with how its key is read. -/
def Keyed {β : Type} (objects : List Plist) (R : Plist → β → Prop)
    (pairs : List (Plist × Plist)) (entries : List (Bytes × β)) : Prop :=
  List.Forall₂ (fun pair entry => KeyText objects pair.1 entry.1 ∧ R pair.2 entry.2)
    pairs entries

theorem keyed_zip {β : Type} {R : Plist → β → Prop} {pairs : List (Plist × Plist)}
    {texts : List Bytes} {items : List β}
    (hkeys : List.Forall₂ (KeyText objects) (pairs.map Prod.fst) texts)
    (hitems : List.Forall₂ R (pairs.map Prod.snd) items) :
    Keyed objects R pairs (texts.zip items) := by
  induction pairs generalizing texts items with
  | nil =>
      cases hkeys
      exact .nil
  | cons pair pairs ih =>
      cases hkeys with
      | cons hkey hkeys =>
          cases hitems with
          | cons hitem hitems => exact .cons ⟨hkey, hitem⟩ (ih hkeys hitems)

/-- The entry that is found is the first whose key has the text. -/
theorem first_of_find {β : Type} {R : Plist → β → Prop} {pairs : List (Plist × Plist)}
    {entries : List (Bytes × β)} (h : Keyed objects R pairs entries) {text : Bytes}
    {found : Bytes × β} (hfound : SortedMap.firstOf text entries = some found) :
    ∃ before key ref after, pairs = before ++ (key, ref) :: after ∧
      KeyText objects key text ∧ (∀ pair ∈ before, ¬ KeyText objects pair.1 text) ∧
        R ref found.2 := by
  induction h with
  | nil => cases hfound
  | cons hhead htail ih =>
      rename_i pair entry pairs entries
      by_cases htext : entry.1 = text
      · rw [SortedMap.firstOf_cons_eq entries htext] at hfound
        cases hfound
        exact ⟨[], pair.1, pair.2, pairs, rfl, htext ▸ hhead.1, by simp, hhead.2⟩
      · rw [SortedMap.firstOf_cons_ne entries htext] at hfound
        obtain ⟨before, key, ref, after, rfl, hkey, hfirst, hR⟩ := ih hfound
        refine ⟨pair :: before, key, ref, after, rfl, hkey, ?_, hR⟩
        rw [List.forall_mem_cons]
        exact ⟨fun hother => htext (keyText_unique hhead.1 hother), hfirst⟩

theorem find_of_first {β : Type} {R : Plist → β → Prop}
    {before after : List (Plist × Plist)} {key ref : Plist}
    {entries : List (Bytes × β)} {text : Bytes}
    (h : Keyed objects R (before ++ (key, ref) :: after) entries)
    (hkey : KeyText objects key text)
    (hfirst : ∀ pair ∈ before, ¬ KeyText objects pair.1 text) :
    ∃ found, SortedMap.firstOf text entries = some found ∧ R ref found.2 := by
  induction before generalizing entries with
  | nil =>
      cases h with
      | cons hhead htail =>
          rename_i entry entries
          have htext : entry.1 = text := keyText_unique hhead.1 hkey
          exact ⟨entry, SortedMap.firstOf_cons_eq entries htext, hhead.2⟩
  | cons pair before ih =>
      cases h with
      | cons hhead htail =>
          rename_i entry entries
          obtain ⟨hnot, hrest⟩ := List.forall_mem_cons.mp hfirst
          have htext : entry.1 ≠ text := fun htext => hnot (htext ▸ hhead.1)
          obtain ⟨found, hfound, hR⟩ := ih htail hrest
          refine ⟨found, ?_, hR⟩
          rw [SortedMap.firstOf_cons_ne entries htext]
          exact hfound

theorem exists_of_forall₂ {α β : Type} {R : α → β → Prop} {as : List α} {bs : List β}
    (h : List.Forall₂ R as bs) {a : α} (hmem : a ∈ as) : ∃ b ∈ bs, R a b := by
  induction h with
  | nil => cases hmem
  | cons hhead htail ih =>
      rcases List.mem_cons.mp hmem with rfl | hmem
      · exact ⟨_, by simp, hhead⟩
      · obtain ⟨b, hb, hR⟩ := ih hmem
        exact ⟨b, List.mem_cons_of_mem _ hb, hR⟩

/-- Values that stand for something are resolved one by one. -/
theorem resolve_values {levels : Nat} {refs items : List Plist}
    (hrefs : ∀ {value meant}, Means objects levels value meant →
      ∃ result, resolve objects levels value = .ok result ∧
        (¬ ShowsNil objects value → result = meant))
    (h : List.Forall₂ (Means objects levels) refs items) :
    ∃ both : List (Plist × Plist), items = both.map Prod.fst ∧
      List.Forall₂ (fun ref item => resolve objects levels ref = .ok item.2 ∧
        (¬ ShowsNil objects ref → item.2 = item.1)) refs both := by
  induction h with
  | nil => exact ⟨[], rfl, .nil⟩
  | cons hhead htail ih =>
      rename_i ref item refs items
      obtain ⟨result, hresult, hsame⟩ := hrefs hhead
      obtain ⟨both, rfl, hboth⟩ := ih
      exact ⟨(item, result) :: both, rfl, .cons ⟨hresult, hsame⟩ hboth⟩

/-- What stands for something is resolved, and as what it stands for unless it shows
a null reference. -/
theorem resolve_of_means (hnull : objects[0]? = some (.string kNull)) {levels : Nat}
    {value meant : Plist} (h : Means objects levels value meant) :
    ∃ result, resolve objects levels value = .ok result ∧
      (¬ ShowsNil objects value → result = meant) := by
  induction levels generalizing value meant with
  | zero => exact h.elim
  | succ levels ih =>
      rcases h with ⟨rfl, hlevels, rfl⟩ | ⟨-, shape, hshape, hmeans⟩
      · exact ⟨_, resolve_nil hnull hlevels, fun hshows => absurd .nil hshows⟩
      have hresolve : ∀ {result}, ShapeMeans
          (fun value result => resolve objects levels value = .ok result)
          (KeyRead (resolve objects levels)) shape result →
          resolve objects (levels + 1) value = .ok result := by
        intro result hgives
        exact resolveObject_eq_ok.mpr ⟨shape, hshape, hgives⟩
      cases hmeans with
      | reference hobject =>
          obtain ⟨result, hresult, hsame⟩ := ih hobject
          exact ⟨result, hresolve (.reference hresult), fun hshows =>
            hsame fun hshown => hshows (.reference hshape hshown)⟩
      | items hitems =>
          rename_i refs items
          obtain ⟨both, rfl, hboth⟩ := resolve_values ih hitems
          have hresults : List.Forall₂
              (fun ref item => resolve objects levels ref = .ok item) refs
              (both.map Prod.snd) := by
            rw [List.forall₂_map_right_iff]
            exact hboth.imp fun ref item hitem => hitem.1
          refine ⟨_, hresolve (.items hresults), ?_⟩
          intro hshows
          congr 1
          have hsame : ∀ item ∈ both, item.2 = item.1 := by
            intro item hmem
            obtain ⟨ref, href, hitem⟩ := exists_of_forall₂ hboth.flip hmem
            exact hitem.2 fun hshown => hshows (.item hshape href hshown)
          exact List.map_congr_left hsame
      | entries hkeys hitems =>
          rename_i pairs texts items
          obtain ⟨both, rfl, hboth⟩ := resolve_values ih hitems
          have hresults : List.Forall₂
              (fun ref item => resolve objects levels ref = .ok item)
              (pairs.map Prod.snd) (both.map Prod.snd) := by
            rw [List.forall₂_map_right_iff]
            exact hboth.imp fun ref item hitem => hitem.1
          refine ⟨_, hresolve (.entries hkeys hresults), ?_⟩
          intro hshows
          have hkeyed := keyed_zip (keyText_of_keysRead hkeys) hboth
          congr 1
          apply SortedMap.eq_of_find (SortedMap.sorted_ofEntries _)
            (SortedMap.sorted_ofEntries _)
          intro text
          rw [SortedMap.find_ofEntries_zip, SortedMap.find_ofEntries_zip]
          cases hfound : SortedMap.firstOf text (texts.zip both) with
          | none => rfl
          | some found =>
              obtain ⟨before, key, ref, after, hpairs, hkey, hfirst, hitem⟩ :=
                first_of_find hkeyed hfound
              have hsame := hitem.2 fun hshown =>
                hshows (.entry hshape hpairs hkey hfirst hshown)
              rw [Option.map_some, Option.map_some, hsame]
      | plain => exact ⟨_, hresolve (.plain _), fun _ => rfl⟩

theorem shapeMeans_entries {means : Plist → Plist → Prop}
    {reads : Plist → Bytes → Prop} {pairs : List (Plist × Plist)} {meant : Plist}
    (h : ShapeMeans means reads (.entries pairs) meant) :
    ∃ texts items, List.Forall₂ reads (pairs.map Prod.fst) texts ∧
      List.Forall₂ means (pairs.map Prod.snd) items ∧
      meant = .dictionary (SortedMap.ofEntries (texts.zip items)) := by
  cases h with
  | entries hkeys hitems => exact ⟨_, _, hkeys, hitems, rfl⟩

/-- A value that is resolved as what it stands for has its shape resolved so. -/
theorem shapes_of_means (hnull : objects[0]? = some (.string kNull)) {levels : Nat}
    {value meant : Plist} {shape : Shape} (hmeans : Means objects levels value meant)
    (hresolve : resolve objects levels value = .ok meant)
    (hshape : shapeOf objects value = some shape) :
    ∃ levels, ShapeMeans (fun value result => resolve objects levels value = .ok result)
        (KeyRead (resolve objects levels)) shape meant ∧
      ShapeMeans (Means objects levels) (KeyRead (resolve objects levels)) shape
        meant := by
  cases levels with
  | zero => exact hmeans.elim
  | succ levels =>
      rcases hmeans with ⟨rfl, hlevels, rfl⟩ | ⟨-, shape', hshape', hstands⟩
      · rw [resolve_nil hnull hlevels] at hresolve
        cases hresolve
      · obtain ⟨shape'', hshape'', hgives⟩ := resolveObject_eq_ok.mp hresolve
        rw [hshape] at hshape' hshape''
        cases hshape'
        cases hshape''
        exact ⟨levels, hgives, hstands⟩

/-- Nothing that shows a null reference is resolved as what it stands for: at the place
of the null there is a string. -/
theorem not_showsNil_of_resolve (hnull : objects[0]? = some (.string kNull))
    {levels : Nat} {value meant : Plist} (hmeans : Means objects levels value meant)
    (hresolve : resolve objects levels value = .ok meant) : ¬ ShowsNil objects value := by
  intro hshows
  induction hshows generalizing levels meant with
  | nil =>
      cases levels with
      | zero => exact hmeans
      | succ levels =>
          rcases hmeans with ⟨-, hlevels, rfl⟩ | ⟨hne, -⟩
          · rw [resolve_nil hnull hlevels] at hresolve
            cases hresolve
          · exact hne rfl
  | reference hshape h ih =>
      obtain ⟨levels, hgives, hstands⟩ := shapes_of_means hnull hmeans hresolve hshape
      cases hgives with
      | reference hobject =>
          cases hstands with
          | reference hmeant => exact ih hmeant hobject
  | item hshape hmem h ih =>
      obtain ⟨levels, hgives, hstands⟩ := shapes_of_means hnull hmeans hresolve hshape
      cases hgives with
      | items hitems =>
          cases hstands with
          | items hmeant =>
              have hboth := List.forall₂_iff_zip.mpr ⟨hitems.length_eq,
                fun hpair => And.intro ((List.forall₂_iff_zip.mp hitems).2 hpair)
                  ((List.forall₂_iff_zip.mp hmeant).2 hpair)⟩
              obtain ⟨item, -, hitem, hstood⟩ := exists_of_forall₂ hboth hmem
              exact ih hstood hitem
  | entry hshape hpairs hkey hfirst h ih =>
      rename_i value key ref pairs before after text
      obtain ⟨levels, hgives, hstands⟩ := shapes_of_means hnull hmeans hresolve hshape
      obtain ⟨texts, items, hkeys, hitems, rfl⟩ := shapeMeans_entries hgives
      obtain ⟨texts', items', hkeys', hitems', heq⟩ := shapeMeans_entries hstands
      have hgiven := keyed_zip (keyText_of_keysRead hkeys) hitems
      have hstood := keyed_zip (keyText_of_keysRead hkeys') hitems'
      rw [hpairs] at hgiven hstood
      -- the first entry of the key is found in both, as one value
      obtain ⟨given, hgiven, hresolved⟩ := find_of_first hgiven hkey hfirst
      obtain ⟨stood, hstood, hmeant⟩ := find_of_first hstood hkey hfirst
      have hfind := SortedMap.find_ofEntries text (texts.zip items)
      have hfind' := SortedMap.find_ofEntries text (texts'.zip items')
      rw [hgiven] at hfind
      rw [hstood, ← Plist.dictionary.inj heq, hfind] at hfind'
      rw [← Option.some.inj hfind'] at hmeant
      exact ih hmeant hresolved

end Resolving

/-! ## Archives -/

/-- The bytes are an archive with this table, whose root is at a slot of it: a binary
property list with the archiver's name, the version, the table and a top. -/
def IsArchive (bytes : Bytes) (objects : List Plist) (root : UInt64) : Prop :=
  ∃ parsed, parseBinary bytes = .ok parsed ∧
    (parsed.find (ascii "$archiver")).map (·.stringOr []) = some kArchiver ∧
    parsed.find (ascii "$version") = some (.integer kVersion) ∧
    (parsed.find (ascii "$objects")).bind arrayOf = some objects ∧
    (parsed.find (ascii "$top")).bind (·.find (ascii "root")) = some (.uid root)

theorem unarchive_of_isArchive {bytes : Bytes} {objects : List Plist} {root : UInt64}
    (h : IsArchive bytes objects root) :
    unarchive bytes = resolve objects (kMaxDepth + 1) (.uid root) := by
  obtain ⟨parsed, hparse, harchiver, hversion, hobjects, hroot⟩ := h
  have hkeyed : ¬ (parsed.find (ascii "$archiver")).map (·.stringOr []) ≠
      some kArchiver := not_not_intro harchiver
  rw [unarchive, hparse, ok_bind, unarchiveParsed, if_neg hkeyed, hversion]
  simp only [ne_eq, not_true_eq_false, if_false, hobjects, hroot]

theorem isArchive_skeleton {root : Nat} {objects : List Plist}
    (hobjects : BuiltAll (fun leaf => readBack leaf = leaf) objects)
    (hfits : FitsVector (toBinary (skeleton root objects))) :
    IsArchive (toBinary (skeleton root objects)) objects (UInt64.ofNat root) := by
  obtain ⟨hskeleton, hexact⟩ := built_skeleton constants_readBack root hobjects
  exact ⟨skeleton root objects,
    (parseBinary_toBinary_leaves hskeleton hfits).mpr hexact, rfl, rfl, rfl, rfl⟩

/-- An archive that stands for a value is unarchived as that value exactly when no
reference to the placeholder is the place of a value in it. There the resolver gives the
string of the placeholder for null. -/
theorem unarchive_means_iff {bytes : Bytes} {objects : List Plist} {root : UInt64}
    {meant : Plist} (harchive : IsArchive bytes objects root)
    (hnull : objects[0]? = some (.string kNull))
    (hmeans : Means objects (kMaxDepth + 1) (.uid root) meant) :
    unarchive bytes = .ok meant ↔ ¬ ShowsNil objects (.uid root) := by
  rw [unarchive_of_isArchive harchive]
  constructor
  · intro hresolve
    exact not_showsNil_of_resolve hnull hmeans hresolve
  · intro hshows
    obtain ⟨result, hresult, hsame⟩ := resolve_of_means hnull hmeans
    rw [hresult, hsame hshows]

/-- The table of an array with one item, at a slot of the table: the placeholder's
first, or that of a string that is the same as the placeholder's. -/
private def oneItem (slot : Nat) : List Plist :=
  [.string kNull, arrayObject 2 [slot], classDictionary "NSArray" "NSObject",
    .string kNull]

private theorem isArchive_oneItem (slot : Nat)
    (hfits : FitsVector (toBinary (skeleton 1 (oneItem slot)))) :
    IsArchive (toBinary (skeleton 1 (oneItem slot))) (oneItem slot) 1 := by
  have hstring : Built (fun leaf => readBack leaf = leaf) (.string kNull) :=
    built_leaf trivial rfl
  have hobjects : BuiltAll (fun leaf => readBack leaf = leaf) (oneItem slot) := by
    simp only [BuiltAll, oneItem, List.forall_mem_cons]
    exact ⟨hstring, built_arrayObject constants_readBack _ _,
      built_classDictionary constants_readBack (by decide +kernel) (by decide +kernel),
      hstring, by simp⟩
  exact isArchive_skeleton hobjects hfits

private theorem means_oneItem {slot : Nat} {item : Plist}
    (h : Means (oneItem slot) (kMaxDepth - 1) (reference slot) item) :
    Means (oneItem slot) (kMaxDepth + 1) (.uid 1) (.array [item]) :=
  Or.inr ⟨by simp, .reference (arrayObject 2 [slot]), rfl, .reference
    (Or.inr ⟨by simp [arrayObject], .items [reference slot], rfl,
      .items (.cons h .nil)⟩)⟩

private theorem not_showsNil_string {objects : List Plist} {text : Bytes} :
    ¬ ShowsNil objects (.string text) := by
  intro h
  cases h with
  | reference hshape => cases hshape
  | item hshape => cases hshape
  | entry hshape => cases hshape

private theorem showsNil_oneItem {slot : Nat} (h : ShowsNil (oneItem slot) (.uid 1)) :
    ShowsNil (oneItem slot) (reference slot) := by
  cases h with
  | reference hshape h =>
      cases hshape
      cases h with
      | reference hshape => cases hshape
      | item hshape hmem h =>
          cases hshape
          rw [List.mem_singleton.mp hmem] at h
          exact h
      | entry hshape => cases hshape
  | item hshape => cases hshape
  | entry hshape => cases hshape

/-- A string that is the same as the placeholder's is unarchived as that string. -/
theorem unarchive_means_string :
    unarchive (toBinary (skeleton 1 (oneItem 3))) = .ok (.array [.string kNull]) := by
  have hfits : FitsVector (toBinary (skeleton 1 (oneItem 3))) := by
    unfold FitsVector
    decide +kernel
  have hmeans : Means (oneItem 3) (kMaxDepth - 1) (reference 3) (.string kNull) :=
    Or.inr ⟨by simp [reference], .reference (.string kNull), rfl,
      .reference (Or.inr ⟨by simp, .plain _, rfl, .plain _⟩)⟩
  refine (unarchive_means_iff (isArchive_oneItem 3 hfits) rfl
    (means_oneItem hmeans)).mpr ?_
  intro hshows
  cases showsNil_oneItem hshows with
  | reference hshape h =>
      cases hshape
      exact not_showsNil_string h
  | item hshape => cases hshape
  | entry hshape => cases hshape

/-- A reference to the placeholder is unarchived as the placeholder's string, and not
as null. -/
theorem unarchive_nil_item :
    IsArchive (toBinary (skeleton 1 (oneItem 0))) (oneItem 0) 1 ∧
      Means (oneItem 0) (kMaxDepth + 1) (.uid 1) (.array [.null]) ∧
      unarchive (toBinary (skeleton 1 (oneItem 0))) = .ok (.array [.string kNull]) := by
  have hfits : FitsVector (toBinary (skeleton 1 (oneItem 0))) := by
    unfold FitsVector
    decide +kernel
  have hmeans : Means (oneItem 0) (kMaxDepth - 1) (reference 0) .null :=
    Or.inl ⟨rfl, by decide, rfl⟩
  have harchive := isArchive_oneItem 0 hfits
  refine ⟨harchive, means_oneItem hmeans, ?_⟩
  rw [unarchive_of_isArchive harchive]
  rfl

end Ioscpp.Protocol.KeyedArchive
