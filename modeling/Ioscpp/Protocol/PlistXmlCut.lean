import Ioscpp.Protocol.PlistXmlDocument

/-!
# Documents that are cut short

A document is read as far as its value goes.  What stands before a cut is read
as it is before anything else, so of the text of a property list only those
beginnings are accepted that hold the whole value.

## Main results

- `parseXml_take_eq_ok_iff`: which beginnings of a document are accepted.
- `parseXml_take_error`: the others are refused with a protocol error.
-/

namespace Ioscpp.Protocol.Plist

open Ioscpp.Support

open XmlParser

/-- A text that is accepted is read in the same way whatever follows. -/
theorem parse_append_of_parseXml {text : Bytes} {value : Plist}
    (h : parseXml text = .ok value) :
    ∃ rest, ∀ more fuel, (text ++ more).length < fuel →
      XmlParser.parse fuel (text ++ more) = .ok (value, rest ++ more) := by
  obtain ⟨front, used, rest, hopens, hwritten, rfl⟩ := parseXml_eq_ok_iff.mp h
  apply Exists.intro rest
  intro more fuel hfuel
  simp only [List.length_append] at hfuel
  have hopening : opening fuel (front ++ (used ++ (rest ++ more))) =
      .ok ((), used ++ (rest ++ more)) := hopens fuel _ (by omega)
  have hvalue : parseValue fuel (used ++ (rest ++ more)) =
      .ok (value, rest ++ more) := accepts hwritten fuel _ (by omega)
  simp only [List.append_assoc]
  rw [parse_apply, hopening, ok_bind, hvalue]

section Cut

variable {value : Plist}

/-- The value of a beginning that is accepted is the whole value, and at most the
close of the document is missing. -/
theorem eq_of_parseXml_take (hwell : value.WellFormed)
    (hleaves : value.AllLeaves IsText) {count : Nat} {other : Plist}
    (h : parseXml ((toXml value).take count) = .ok other) :
    other = value ∧ (toXml value).length ≤ count + 9 := by
  obtain ⟨rest, hrest⟩ := parse_append_of_parseXml h
  have hfuel : (appendXml value).length + 3 ≤ (toXml value).length + 1 := by
    rw [length_toXml]
    omega
  have hcut := hrest ((toXml value).drop count) ((toXml value).length + 1)
  rw [List.take_append_drop] at hcut
  have hread := (hcut (Nat.lt_succ_self _)).symm.trans
    (parse_document hwell hleaves hfuel (ascii "</plist>\n"))
  obtain ⟨rfl, htail⟩ := Prod.mk.inj (Except.ok.inj hread)
  have hlength := congrArg List.length htail
  have hclose : (ascii "</plist>\n").length = 9 := rfl
  rw [List.length_append, List.length_drop, hclose] at hlength
  exact ⟨rfl, by omega⟩

/-- Of a document cut short exactly these beginnings are accepted: nothing but the nine
characters behind the value may be missing. -/
theorem parseXml_take_eq_ok_iff (hwell : value.WellFormed)
    (hleaves : value.AllLeaves IsText) {count : Nat} {other : Plist} :
    parseXml ((toXml value).take count) = .ok other ↔
      other = value ∧ (toXml value).length ≤ count + 9 := by
  constructor
  · exact eq_of_parseXml_take hwell hleaves
  · rintro ⟨rfl, hcount⟩
    have hlength := length_toXml other
    have htake : (toXml other).take count =
        kXmlHeader ++ appendXml other ++
          (ascii "</plist>\n").take
            (count - (kXmlHeader ++ appendXml other).length) := by
      rw [toXml, List.take_append, List.take_of_length_le]
      rw [List.length_append]
      omega
    have hheader : 3 ≤ kXmlHeader.length := by decide +kernel
    rw [parseXml, htake, parse_document hwell hleaves (by
      simp only [List.length_append]
      omega), ok_bind]

/-- A shorter beginning is refused with a protocol error. -/
theorem parseXml_take_error (hwell : value.WellFormed)
    (hleaves : value.AllLeaves IsText) {count : Nat}
    (hcount : count + 9 < (toXml value).length) :
    ∃ e, parseXml ((toXml value).take count) = .error (.error e) := by
  rcases ends_parseXml ((toXml value).take count) with ⟨other, hother⟩ | herror
  · have hle := (eq_of_parseXml_take hwell hleaves hother).2
    omega
  · obtain ⟨e, he⟩ := herror
    exact ⟨_, he⟩

end Cut

end Ioscpp.Protocol.Plist
