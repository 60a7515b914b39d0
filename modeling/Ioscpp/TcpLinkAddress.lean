import Ioscpp.Support.Hex
import Ioscpp.TcpLink

/-!
# The text of an address

`parse_ipv6` reads the address that the device announces for the tunnel.  Here
is the grammar of an address, what its text stands for, and the loops that write
the groups into the sixteen bytes.

## Main results

- `writeGroups_both`: the two loops write the sixteen bytes of an address, and nothing
  outside them.
- `text_or_refused`: what is not refused is the text of an address.
- `parseIpv6_accepts_addresses`: which texts are accepted, and their bytes.
-/

namespace Ioscpp

open Ioscpp.Support
open Ioscpp.Protocol

/-! ## The grammar -/

/-- One to four hexadecimal digits, and the number that they stand for. -/
def GroupText (text : Bytes) (group : UInt16) : Prop :=
  0 < text.length ∧ text.length ≤ 4 ∧ HexNumber text group.toNat

/-- Groups with a colon between them, or nothing. -/
def GroupsText (text : Bytes) (groups : List UInt16) : Prop :=
  ∃ parts, text = [0x3a].intercalate parts ∧ List.Forall₂ GroupText parts groups

/-- An address: eight groups, or two sides of at most eight groups together with
two colons between the sides. -/
inductive Ipv6Text : Bytes → List UInt16 → List UInt16 → Prop
  | whole {text : Bytes} {groups : List UInt16} (htext : GroupsText text groups)
      (hlength : groups.length = 8) : Ipv6Text text groups []
  | gap {before after : Bytes} {left right : List UInt16}
      (hleft : GroupsText before left) (hright : GroupsText after right)
      (hlength : left.length + right.length ≤ 8) :
      Ipv6Text (before ++ ([0x3a, 0x3a] ++ after)) left right

/-- The bytes of an address: the groups of its left side, zeros, and the groups
of its right side. -/
def addressBytes (left right : List UInt16) : Bytes :=
  groupBytes left ++
    (List.replicate (16 - 2 * (left.length + right.length)) 0 ++
      groupBytes right)

/-! ## Writing the groups -/

/-- `address[index] = value`. -/
def setAt (address : Bytes) (index : Nat) (value : UInt8) : Result Bytes :=
  if index < address.length then .ok (address.set index value)
  else .error .outOfBounds

/-- A loop that writes groups from an index on. -/
def writeGroups (address : Bytes) (index : Nat) : List UInt16 → Result Bytes
  | [] => .ok address
  | group :: rest => do
      let address ← setAt address index ((group >>> 8) &&& (0xff : UInt16)).toUInt8
      let address ← setAt address (index + 1) (group &&& (0xff : UInt16)).toUInt8
      writeGroups address (index + 2) rest

/-- Parses an address into its sixteen bytes. -/
def parseIpv6Bytes (text : Bytes) : Result Bytes :=
  let gap := cutAt [0x3a, 0x3a] text
  let (left, right) := gap.getD (text, [])
  match parseGroups left, parseGroups right with
  | some leftGroups, some rightGroups =>
      if gap = none ∧ leftGroups.length ≠ 8 then .error (.error notIpv6)
      else if 8 < leftGroups.length + rightGroups.length then
        .error (.error notIpv6)
      else do
        let address ← writeGroups (List.replicate 16 0) 0 leftGroups
        writeGroups address (address.length - rightGroups.length * 2) rightGroups
  | _, _ => .error (.error notIpv6)

/-! ## The loops fill the address -/

theorem beBytes_group (group : UInt16) :
    beBytes 2 group.toNat =
      [((group >>> 8) &&& (0xff : UInt16)).toUInt8,
        (group &&& (0xff : UInt16)).toUInt8] := by
  have hlow : ∀ x : UInt16, (x &&& (0xff : UInt16)).toUInt8 = UInt8.ofNat x.toNat := by
    intro x
    apply UInt8.toNat_inj.mp
    rw [UInt16.toNat_toUInt8, UInt16.toNat_and, UInt8.toNat_ofNat']
    rw [show (0xff : UInt16).toNat = 2 ^ 8 - 1 from rfl,
      Nat.and_two_pow_sub_one_eq_mod, Nat.mod_mod]
  have hhigh : (group >>> 8).toNat = group.toNat >>> 8 := by
    rw [UInt16.toNat_shiftRight]
    rfl
  rw [hlow, hlow, hhigh]
  simp [beBytes]

/-- An assignment to the place after `before`. -/
theorem setAt_append (before after : Bytes) (old value : UInt8) :
    setAt (before ++ old :: after) before.length value =
      .ok (before ++ value :: after) := by
  have hlt : before.length < (before ++ old :: after).length := by simp
  rw [setAt, if_pos hlt, List.set_append_right _ _ (Nat.le_refl _)]
  simp

/-- The loop overwrites what stood in the place of the groups. -/
theorem writeGroups_eq (groups : List UInt16) :
    ∀ (before old after : Bytes), old.length = 2 * groups.length →
      writeGroups (before ++ (old ++ after)) before.length groups =
        .ok (before ++ (groupBytes groups ++ after)) := by
  induction groups with
  | nil =>
      intro before old after hlength
      have hold : old = [] := List.eq_nil_of_length_eq_zero hlength
      simp [writeGroups, groupBytes, hold]
  | cons group rest ih =>
      intro before old after hlength
      cases old with
      | nil => simp at hlength
      | cons first old =>
          cases old with
          | nil =>
              simp only [List.length_cons, List.length_nil] at hlength
              omega
          | cons second old =>
              have hrest : old.length = 2 * rest.length := by
                simp only [List.length_cons] at hlength
                omega
              have hbytes := beBytes_group group
              rw [writeGroups]
              generalize ((group >>> 8) &&& (0xff : UInt16)).toUInt8 = high at *
              generalize (group &&& (0xff : UInt16)).toUInt8 = low at *
              have hnext := setAt_append (before ++ [high]) (old ++ after) second low
              have hloop := ih (before ++ [high, low]) old after hrest
              simp only [List.append_assoc, List.cons_append, List.nil_append,
                List.length_append, List.length_cons, List.length_nil,
                Nat.zero_add, Nat.reduceAdd] at hnext hloop ⊢
              rw [setAt_append, ok_bind, hnext, ok_bind, hloop]
              simp [groupBytes, hbytes]

theorem length_addressBytes {left right : List UInt16}
    (h : left.length + right.length ≤ 8) :
    (addressBytes left right).length = 16 := by
  simp only [addressBytes, List.length_append, length_groupBytes,
    List.length_replicate]
  omega

/-- The two loops write the address, and nothing outside its sixteen bytes: the groups
of the left side from the front, those of the right side up to the end. -/
theorem writeGroups_both {left right : List UInt16}
    (h : left.length + right.length ≤ 8) :
    (do
      let address ← writeGroups (List.replicate 16 0) 0 left
      writeGroups address (address.length - right.length * 2) right) =
      (.ok (addressBytes left right) : Result Bytes) := by
  have hzeros : List.replicate 16 (0 : UInt8) =
      List.replicate (2 * left.length) 0 ++
        (List.replicate (16 - 2 * (left.length + right.length)) 0 ++
          List.replicate (2 * right.length) 0) := by
    rw [List.replicate_append_replicate, List.replicate_append_replicate]
    congr 1
    omega
  have hleft := writeGroups_eq left [] (List.replicate (2 * left.length) 0)
    (List.replicate (16 - 2 * (left.length + right.length)) 0 ++
      List.replicate (2 * right.length) 0) (by simp)
  have hright := writeGroups_eq right
    (groupBytes left ++
      List.replicate (16 - 2 * (left.length + right.length)) 0)
    (List.replicate (2 * right.length) 0) [] (by simp)
  rw [← hzeros] at hleft
  simp only [List.nil_append, List.length_nil] at hleft
  have hindex :
      (groupBytes left ++
        (List.replicate (16 - 2 * (left.length + right.length)) 0 ++
          List.replicate (2 * right.length) 0)).length - right.length * 2 =
      (groupBytes left ++ List.replicate
        (16 - 2 * (left.length + right.length)) (0 : UInt8)).length := by
    simp only [List.length_append, List.length_replicate, length_groupBytes]
    omega
  rw [hleft, ok_bind, hindex]
  simp only [List.append_assoc, List.append_nil] at hright
  exact hright

/-! ## Groups -/

theorem hexDigitValue_eq (c : UInt8) :
    hexDigitValue c = (hexDigit c).map UInt16.toNat := by
  revert c
  decide +kernel

theorem toNat_pushDigit {value digit : UInt16} (hvalue : value.toNat < 2 ^ 12)
    (hdigit : digit.toNat < 16) :
    ((value <<< 4) ||| digit).toNat = value.toNat * 16 + digit.toNat := by
  have hshift : (value <<< 4).toNat = value.toNat <<< 4 := by
    rw [UInt16.toNat_shiftLeft]
    show value.toNat <<< 4 % 2 ^ 16 = value.toNat <<< 4
    rw [Nat.shiftLeft_eq]
    omega
  rw [UInt16.toNat_or, hshift, ← Nat.shiftLeft_add_eq_or_of_lt (i := 4) hdigit,
    Nat.shiftLeft_eq]

/-- The loop over the digits of a group does not overflow. -/
theorem foldlM_hexDigit (text : Bytes) :
    ∀ (value group : UInt16) (read : Nat), value.toNat < 16 ^ read →
      read + text.length ≤ 4 →
      (text.foldlM (fun (value : UInt16) c =>
          (hexDigit c).map fun digit => (value <<< 4) ||| digit) value = some group ↔
        ∃ number, HexNumber text number ∧
          group.toNat = value.toNat * 16 ^ text.length + number) := by
  induction text with
  | nil =>
      intro value group read _ _
      simp only [hexNumber_nil, exists_eq_left, List.length_nil, Nat.pow_zero,
        Nat.mul_one, Nat.add_zero, UInt16.toNat_inj]
      show some value = some group ↔ _
      rw [Option.some_inj, eq_comm]
  | cons c rest ih =>
      intro value group read hvalue hlength
      rw [List.length_cons] at hlength ⊢
      have hsmall : value.toNat < 2 ^ 12 := by
        have hle : 16 ^ read ≤ 16 ^ 3 := Nat.pow_le_pow_right (by decide) (by omega)
        omega
      have hdigits := hexDigitValue_eq c
      rw [List.foldlM_cons]
      cases hdigit : hexDigit c with
      | none =>
          rw [hdigit] at hdigits
          constructor
          · intro h
            cases h
          · intro h
            obtain ⟨number, hnumber, -⟩ := h
            obtain ⟨d, -, hd, -⟩ := hexNumber_cons.mp hnumber
            rw [hdigits] at hd
            cases hd
      | some digit =>
          rw [hdigit] at hdigits
          have hd : hexDigitValue c = some digit.toNat := hdigits
          have hnext := toNat_pushDigit hsmall (hexDigitValue_lt hd)
          have hbound : ((value <<< 4) ||| digit).toNat < 16 ^ (read + 1) := by
            have hlt := hexDigitValue_lt hd
            rw [hnext, Nat.pow_succ]
            omega
          show rest.foldlM _ ((value <<< 4) ||| digit) = some group ↔ _
          rw [ih _ group (read + 1) hbound (by omega), hnext]
          constructor
          · intro h
            obtain ⟨number, hnumber, hgroup⟩ := h
            refine ⟨_, hexNumber_cons.mpr ⟨_, number, hd, hnumber, rfl⟩, ?_⟩
            rw [hgroup, Nat.pow_succ]
            ring
          · intro h
            obtain ⟨whole, hwhole, hgroup⟩ := h
            obtain ⟨d, number, hd', hnumber, rfl⟩ := hexNumber_cons.mp hwhole
            have heq : digit.toNat = d := Option.some_inj.mp (hd.symm.trans hd')
            refine ⟨number, hnumber, ?_⟩
            rw [hgroup, Nat.pow_succ, heq]
            ring

/-- What is read as a group is one. -/
theorem parseGroup_iff (text : Bytes) (group : UInt16) :
    parseGroup text = some group ↔ GroupText text group := by
  rw [parseGroup, GroupText]
  by_cases hsize : text = [] ∨ 4 < text.length
  · rw [if_pos hsize]
    constructor
    · intro h
      cases h
    · intro h
      cases hsize with
      | inl hnil => simp [hnil] at h
      | inr hlong => omega
  · rw [if_neg hsize]
    have hlength : 0 < text.length ∧ text.length ≤ 4 := by
      rw [List.length_pos_iff]
      constructor
      · exact fun hnil => hsize (Or.inl hnil)
      · omega
    rw [foldlM_hexDigit text 0 group 0 (by simp) (by omega)]
    simp [hlength]

theorem colon_notMem_group {text : Bytes} {group : UInt16}
    (h : GroupText text group) : (0x3a : UInt8) ∉ text := by
  intro hmem
  obtain ⟨d, hd⟩ := h.2.2.digit _ hmem
  have hnone : hexDigitValue 0x3a = none := by decide +kernel
  rw [hnone] at hd
  cases hd

theorem group_ne_nil {text : Bytes} {group : UInt16} (h : GroupText text group) :
    text ≠ [] := List.length_pos_iff.mp h.1

/-- What is read as a side of an address is one. -/
theorem parseGroups_iff (text : Bytes) (groups : List UInt16) :
    parseGroups text = some groups ↔ GroupsText text groups := by
  have hmap : ∀ (parts : List Bytes) (groups : List UInt16),
      parts.mapM parseGroup = some groups ↔
        List.Forall₂ GroupText parts groups := by
    intro parts
    induction parts with
    | nil =>
        intro groups
        simp [eq_comm]
    | cons part rest ih =>
        intro groups
        rw [List.mapM_cons]
        constructor
        · intro h
          obtain ⟨group, hgroup, h⟩ := Option.bind_eq_some_iff.mp h
          obtain ⟨others, hothers, h⟩ := Option.bind_eq_some_iff.mp h
          cases h
          exact List.Forall₂.cons ((parseGroup_iff part group).mp hgroup)
            ((ih others).mp hothers)
        · intro h
          cases h with
          | cons hhead htail =>
              rw [(parseGroup_iff part _).mpr hhead, (ih _).mpr htail]
              rfl
  rw [parseGroups, GroupsText]
  by_cases htext : text = []
  · rw [if_pos htext]
    constructor
    · intro h
      cases h
      exact ⟨[], htext, List.Forall₂.nil⟩
    · intro h
      obtain ⟨parts, hparts, hall⟩ := h
      cases hall with
      | nil => rfl
      | cons hhead htail =>
          exfalso
          rename_i part group rest groups
          cases rest with
          | nil =>
              rw [htext, List.intercalate_singleton] at hparts
              exact group_ne_nil hhead hparts.symm
          | cons next rest =>
              rw [htext, List.intercalate_cons_cons] at hparts
              simp at hparts
  · rw [if_neg htext, hmap]
    constructor
    · intro h
      exact ⟨text.splitOn 0x3a, (List.intercalate_splitOn _).symm, h⟩
    · intro h
      obtain ⟨parts, hparts, hall⟩ := h
      have hne : parts ≠ [] := by
        intro hnil
        rw [hnil] at hparts
        exact htext hparts
      have hcolon : ∀ part ∈ parts, (0x3a : UInt8) ∉ part := by
        clear hparts hne
        induction hall with
        | nil => simp
        | cons hhead htail ih =>
            intro part hmem
            cases List.mem_cons.mp hmem with
            | inl heq => exact heq ▸ colon_notMem_group hhead
            | inr hrest => exact ih part hrest
      rw [hparts, List.splitOn_intercalate _ hcolon hne]
      exact hall

/-! ## The gap -/

/-- A pattern is not found before its first character. -/
theorem cutAt_skip {c : UInt8} {tail before : Bytes} (h : c ∉ before)
    (rest : Bytes) :
    cutAt (c :: tail) (before ++ rest) =
      (cutAt (c :: tail) rest).map fun parts => (before ++ parts.1, parts.2) := by
  induction before with
  | nil => simp
  | cons d before ih =>
      have hne : c ≠ d := fun heq => h (by simp [heq])
      have hnot : (c :: tail).isPrefixOf (d :: (before ++ rest)) = false := by
        simp [List.isPrefixOf, hne]
      rw [List.cons_append, cutAt, hnot,
        ih fun hmem => h (List.mem_cons_of_mem _ hmem)]
      simp [Option.map_map, Function.comp_def]

theorem exists_intercalate_cons (first : Bytes) (parts : List Bytes) :
    ∃ tail, [0x3a].intercalate (first :: parts) = first ++ tail := by
  cases parts with
  | nil => exact ⟨[], by rw [List.intercalate_singleton, List.append_nil]⟩
  | cons next parts =>
      exact ⟨_, by rw [List.intercalate_cons_cons, List.append_assoc]⟩

/-- Groups have no two colons together. -/
theorem cutAt_groups {text : Bytes} {groups : List UInt16}
    (h : GroupsText text groups) (rest : Bytes) :
    cutAt [0x3a, 0x3a] (text ++ rest) =
      (cutAt [0x3a, 0x3a] rest).map fun parts => (text ++ parts.1, parts.2) := by
  obtain ⟨parts, rfl, hall⟩ := h
  induction hall with
  | nil => simp [List.intercalate_nil]
  | cons hhead htail ih =>
      rename_i part group parts groups
      have hcolon := colon_notMem_group hhead
      cases htail with
      | nil =>
          rw [List.intercalate_singleton]
          exact cutAt_skip hcolon rest
      | cons hnext htail =>
          rename_i next nextGroup parts groups
          -- a group stands after the colon, so there are not two of them
          have hnot : [0x3a, 0x3a].isPrefixOf
              (0x3a :: ([0x3a].intercalate (next :: parts) ++ rest)) = false := by
            obtain ⟨tail, htail⟩ := exists_intercalate_cons next parts
            rw [htail]
            cases hstart : next with
            | nil => exact absurd hstart (group_ne_nil hnext)
            | cons d others =>
                have hne : (0x3a : UInt8) ≠ d := by
                  intro heq
                  exact colon_notMem_group hnext (by rw [hstart, heq]; simp)
                simp [List.isPrefixOf, hne]
          rw [List.intercalate_cons_cons, List.append_assoc, List.append_assoc,
            cutAt_skip hcolon, List.singleton_append, cutAt, hnot, ih]
          simp [Option.map_map, Function.comp_def]

theorem cutAt_whole {text : Bytes} {groups : List UInt16}
    (h : GroupsText text groups) : cutAt [0x3a, 0x3a] text = none := by
  have hcut := cutAt_groups h []
  rw [List.append_nil] at hcut
  rw [hcut]
  rfl

theorem cutAt_gap {before : Bytes} {left : List UInt16}
    (h : GroupsText before left) (after : Bytes) :
    cutAt [0x3a, 0x3a] (before ++ ([0x3a, 0x3a] ++ after)) =
      some (before, after) := by
  rw [cutAt_groups h]
  simp [cutAt]

/-! ## What is accepted -/

/-- The text of an address is read. -/
theorem parseIpv6Bytes_text {text : Bytes} {left right : List UInt16}
    (h : Ipv6Text text left right) :
    parseIpv6Bytes text = .ok (addressBytes left right) ∧
      left.length + right.length ≤ 8 := by
  cases h with
  | whole htext hlength =>
      have hsum : left.length + ([] : List UInt16).length ≤ 8 := by
        simp [hlength]
      constructor
      · simp only [parseIpv6Bytes, cutAt_whole htext, Option.getD_none,
          (parseGroups_iff text left).mpr htext, true_and]
        show (if left.length ≠ 8 then _ else _) = _
        rw [if_neg (by simp [hlength]), if_neg (by omega)]
        exact writeGroups_both hsum
      · exact hsum
  | gap hleft hright hlength =>
      rename_i before after
      constructor
      · simp only [parseIpv6Bytes, cutAt_gap hleft, Option.getD_some,
          (parseGroups_iff before left).mpr hleft,
          (parseGroups_iff after right).mpr hright, reduceCtorEq, false_and,
          if_false]
        rw [if_neg (by omega)]
        exact writeGroups_both hlength
      · exact hlength

/-- What is not refused is the text of an address. -/
theorem text_or_refused (text : Bytes) :
    (∃ left right, Ipv6Text text left right) ∨
      parseIpv6Bytes text = .error (.error notIpv6) := by
  cases hgap : cutAt [0x3a, 0x3a] text with
  | none =>
      cases hleft : parseGroups text with
      | none => exact Or.inr (by simp [parseIpv6Bytes, hgap, hleft])
      | some groups =>
          by_cases hlength : groups.length = 8
          · apply Or.inl
            have htext := (parseGroups_iff text groups).mp hleft
            exact ⟨groups, [], Ipv6Text.whole htext hlength⟩
          · apply Or.inr
            have hright : parseGroups [] = some [] := rfl
            simp [parseIpv6Bytes, hgap, hleft, hright, hlength]
  | some parts =>
      have hsplit := eq_of_cutAt (by simp) hgap
      cases hleft : parseGroups parts.1 with
      | none => exact Or.inr (by simp [parseIpv6Bytes, hgap, hleft])
      | some left =>
          cases hright : parseGroups parts.2 with
          | none => exact Or.inr (by simp [parseIpv6Bytes, hgap, hleft, hright])
          | some right =>
              by_cases hlength : left.length + right.length ≤ 8
              · apply Or.inl
                have htext := (parseGroups_iff parts.1 left).mp hleft
                have htext' := (parseGroups_iff parts.2 right).mp hright
                rw [hsplit]
                exact ⟨left, right, Ipv6Text.gap htext htext' hlength⟩
              · apply Or.inr
                have hlong : 8 < left.length + right.length := by omega
                simp [parseIpv6Bytes, hgap, hleft, hright, hlong]

/-- The address that the link keeps is the one that the loops write. -/
theorem parseIpv6_map_bytes (text : Bytes) :
    (parseIpv6 text).map (·.bytes) = parseIpv6Bytes text := by
  rw [parseIpv6, parseIpv6Bytes]
  generalize cutAt [0x3a, 0x3a] text = gap
  cases hleft : parseGroups (gap.getD (text, [])).1 with
  | none => simp [hleft, Except.map]
  | some left =>
      cases hright : parseGroups (gap.getD (text, [])).2 with
      | none => simp [hleft, hright, Except.map]
      | some right =>
          by_cases hwhole : gap = none ∧ left.length ≠ 8
          · simp only [hleft, hright, if_pos hwhole]
            rfl
          · by_cases hlength : left.length + right.length ≤ 8
            · have hshort : ¬ 8 < left.length + right.length := by omega
              simp only [hleft, hright, if_neg hwhole, dif_pos hlength,
                if_neg hshort]
              rw [writeGroups_both hlength]
              rfl
            · have hlong : 8 < left.length + right.length := by omega
              simp only [hleft, hright, if_neg hwhole, dif_neg hlength,
                if_pos hlong]
              rfl

theorem parseIpv6Bytes_eq_ok_iff {text bytes : Bytes} :
    parseIpv6Bytes text = .ok bytes ↔
      ∃ left right, Ipv6Text text left right ∧ bytes = addressBytes left right ∧
        bytes.length = 16 := by
  constructor
  · intro hok
    cases text_or_refused text with
    | inl htext =>
        obtain ⟨left, right, htext⟩ := htext
        obtain ⟨hrun, hlength⟩ := parseIpv6Bytes_text htext
        have hbytes : addressBytes left right = bytes :=
          Except.ok.inj (hrun.symm.trans hok)
        have hsize := length_addressBytes hlength
        rw [hbytes] at hsize
        exact ⟨left, right, htext, hbytes.symm, hsize⟩
    | inr hrefused =>
        rw [hrefused] at hok
        cases hok
  · intro h
    obtain ⟨left, right, htext, hbytes, -⟩ := h
    rw [(parseIpv6Bytes_text htext).1, hbytes]

theorem parseIpv6Bytes_eq_error_iff {text : Bytes} {fault : Fault Error} :
    parseIpv6Bytes text = .error fault ↔
      fault = .error notIpv6 ∧ ∀ left right, ¬ Ipv6Text text left right := by
  have hexists := text_or_refused text
  constructor
  · intro herror
    cases hexists with
    | inl htext =>
        obtain ⟨left, right, htext⟩ := htext
        rw [(parseIpv6Bytes_text htext).1] at herror
        cases herror
    | inr hrefused =>
        have hfault : Fault.error notIpv6 = fault :=
          Except.error.inj (hrefused.symm.trans herror)
        constructor
        · exact hfault.symm
        · intro left right htext
          rw [(parseIpv6Bytes_text htext).1] at hrefused
          cases hrefused
  · intro h
    obtain ⟨hfault, hnot⟩ := h
    cases hexists with
    | inl htext =>
        obtain ⟨left, right, htext⟩ := htext
        exact absurd htext (hnot left right)
    | inr hrefused => rw [hfault, hrefused]

/-- A text is accepted exactly when it is an address, and then the result is its
sixteen bytes; every other text is refused, and no write is out of range. -/
theorem parseIpv6_accepts_addresses (text : Bytes) :
    (∀ bytes, parseIpv6Bytes text = .ok bytes ↔
      ∃ left right, Ipv6Text text left right ∧ bytes = addressBytes left right ∧
        bytes.length = 16) ∧
      (∀ fault, parseIpv6Bytes text = .error fault ↔
        fault = .error notIpv6 ∧ ∀ left right, ¬ Ipv6Text text left right) ∧
      (parseIpv6 text).map (·.bytes) = parseIpv6Bytes text := by
  constructor
  · intro bytes
    exact parseIpv6Bytes_eq_ok_iff
  constructor
  · intro fault
    exact parseIpv6Bytes_eq_error_iff
  · exact parseIpv6_map_bytes text

example : parseIpv6Bytes (ascii "fd00::1:A") =
    .ok (addressBytes [0xfd00] [1, 0xa]) := by
  decide +kernel

end Ioscpp
