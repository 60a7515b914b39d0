import Ioscpp.Protocol.PlistXmlDocument

/-!
# Integers in XML

The body of an `<integer>` goes through `strtoll`, and nothing looks at how far
that came: a body that is no number is 0, one with a tail is its leading digits,
and one out of range is the nearest limit.  A document is read exactly when every
integer in it denotes a 64-bit number (`integersExact_iff_numerals`).

## Main results

- `strtoll_of_denotes`: a numeral in the range of the type is read as its number.
- `integersExact_iff_numerals`: when every integer of a text is exact or the text is
  rejected.
-/

namespace Ioscpp.Protocol.Plist

open Ioscpp.Support XmlParser

/-- The number a text denotes: a decimal numeral, with a sign before it and white
space around it or not. -/
def Denotes (text : Bytes) (value : Int64) : Prop :=
  ∃ s sign digits s', Spaces s ∧ Spaces s' ∧ digits ≠ [] ∧
    (∀ c ∈ digits, isDigit c) ∧ text = s ++ (sign ++ (digits ++ s')) ∧
    ((sign = [] ∨ sign = [0x2b]) ∧ value.toInt = digitsValue digits ∨
      sign = [0x2d] ∧ value.toInt = -(digitsValue digits : Int))

/-- An `<integer>` with this body, and the number that it is read as. -/
inductive IntegerHole (body : Bytes) : (Int64 → Node) → (Int64 → Bytes) → Prop where
  | element {used : Bytes} (h : Tagged "integer" used body) :
      IntegerHole body (fun value => .value (.integer value)) fun _ => used

/-- The document has an `<integer>` with this body; `value` is the value of the
document for each number that the body can stand for. -/
def IntegerAt (body : Bytes) (value : Int64 → Plist) (text : Bytes) : Prop :=
  Document (IntegerHole body) value fun _ => text

/-- The text is rejected with a protocol error, or every integer in it is the
number that its body denotes. -/
def IntegersExact (text : Bytes) : Prop :=
  (parseXml text).IsProtocolError ∨
    ∃ parsed, parseXml text = .ok parsed ∧
      ∀ body value, IntegerAt body value text →
        ∃ number, Denotes body number ∧ parsed = value number

theorem takeWhile_isDigit_append {digits s : Bytes}
    (hdigits : ∀ c ∈ digits, isDigit c) (hs : Spaces s) :
    (digits ++ s).takeWhile isDigit = digits := by
  rw [List.takeWhile_append_of_pos hdigits]
  cases s with
  | nil => rw [List.takeWhile_nil, List.append_nil]
  | cons c s =>
      have hc : ¬isDigit c = true := by
        intro hdigit
        have hspace := hs c (by simp)
        rw [not_isSpace_of_isDigit hdigit] at hspace
        cases hspace
      rw [List.takeWhile_cons_of_neg hc, List.append_nil]

theorem takeSign_of_isDigit {c : UInt8} (hc : isDigit c) (rest : Bytes) :
    takeSign (c :: rest) = (false, c :: rest) := by
  have hminus : c ≠ 0x2d := fun heq => by rw [heq] at hc; cases hc
  have hplus : c ≠ 0x2b := fun heq => by rw [heq] at hc; cases hc
  unfold takeSign
  split
  · rename_i heq
    exact absurd (List.cons.inj heq).1 hminus
  · rename_i heq
    exact absurd (List.cons.inj heq).1 hplus
  · rfl

/-- A numeral in the range of the type is read as the number it denotes. -/
theorem strtoll_of_denotes {text : Bytes} {value : Int64}
    (h : Denotes text value) : strtoll text = value := by
  obtain ⟨s, sign, digits, s', hs, hs', hne, hdigits, rfl, hvalue⟩ := h
  obtain ⟨c, tail, rfl⟩ := List.exists_cons_of_ne_nil hne
  have hc := hdigits c (by simp)
  have htake := takeWhile_isDigit_append hdigits hs'
  have hlow := value.minValue_le_toInt
  have hhigh := value.toInt_le
  have hmin : Int64.minValue.toInt = -2 ^ 63 := by decide
  have hmax : Int64.maxValue.toInt = 2 ^ 63 - 1 := by decide
  have hplain : takeSign (c :: tail ++ s') = (false, c :: tail ++ s') :=
    takeSign_of_isDigit hc _
  have hpositive : ∀ magnitude : Int, value.toInt = magnitude →
      Int64.ofInt (min magnitude (2 ^ 63 - 1)) = value := by
    intro magnitude hmagnitude
    rw [← hmagnitude, show min value.toInt (2 ^ 63 - 1) = value.toInt by omega,
      Int64.ofInt_toInt]
  have hnegative : ∀ magnitude : Int, value.toInt = -magnitude →
      Int64.ofInt (max (-magnitude) (-2 ^ 63)) = value := by
    intro magnitude hmagnitude
    rw [← hmagnitude, show max value.toInt (-2 ^ 63) = value.toInt by omega,
      Int64.ofInt_toInt]
  rcases hvalue with ⟨rfl | rfl, hvalue⟩ | ⟨rfl, hvalue⟩
  · have hsolid : Solid ([] ++ (c :: tail ++ s')) :=
      ⟨c, tail ++ s', rfl, not_isSpace_of_isDigit hc⟩
    have hdrop := dropWhile_spaces hs hsolid
    rw [strtoll, hdrop, List.nil_append, hplain]
    simp only [htake]
    exact hpositive _ hvalue
  · have hsolid : Solid ([0x2b] ++ (c :: tail ++ s')) :=
      ⟨0x2b, c :: tail ++ s', rfl, rfl⟩
    have hdrop := dropWhile_spaces hs hsolid
    rw [strtoll, hdrop]
    simp only [List.singleton_append, takeSign, htake]
    exact hpositive _ hvalue
  · have hsolid : Solid ([0x2d] ++ (c :: tail ++ s')) :=
      ⟨0x2d, c :: tail ++ s', rfl, rfl⟩
    have hdrop := dropWhile_spaces hs hsolid
    rw [strtoll, hdrop]
    simp only [List.singleton_append, takeSign, htake]
    exact hnegative _ hvalue

/-- A document is read, with `strtoll` of the body where an integer stands. -/
theorem parseXml_of_integerAt {body text : Bytes} {value : Int64 → Plist}
    (h : IntegerAt body value text) :
    parseXml text = .ok (value (strtoll body)) := by
  refine Document.parseXml_eq_ok h (strtoll body) ?_
  rintro _ _ ⟨htag⟩
  exact .scalar .integer htag rfl

/-- Every text is rejected with a protocol error, or read with every integer
exact, if and only if the body of every integer in it is a numeral in range. -/
theorem integersExact_iff_numerals (text : Bytes) :
    IntegersExact text ↔
      ∀ body value, IntegerAt body value text → ∃ number, Denotes body number := by
  constructor
  · rintro (⟨message, herror⟩ | ⟨parsed, -, hexact⟩) body value hat
    · rw [parseXml_of_integerAt hat] at herror
      cases herror
    · obtain ⟨number, hdenotes, -⟩ := hexact body value hat
      exact ⟨number, hdenotes⟩
  · intro hnumerals
    rcases ends_parseXml text with ⟨parsed, hparsed⟩ | herror
    · refine .inr ⟨parsed, hparsed, ?_⟩
      intro body value hat
      obtain ⟨number, hdenotes⟩ := hnumerals body value hat
      have hread := parseXml_of_integerAt hat
      rw [strtoll_of_denotes hdenotes, hparsed] at hread
      exact ⟨number, hdenotes, Except.ok.inj hread⟩
    · exact .inl herror

/-- A text that denotes a number holds no other characters. -/
theorem mem_of_denotes {text : Bytes} {value : Int64} (h : Denotes text value) :
    ∀ c ∈ text, isSpace c ∨ isDigit c ∨ c = 0x2b ∨ c = 0x2d := by
  obtain ⟨s, sign, digits, s', hs, hs', -, hdigits, rfl, hvalue⟩ := h
  have hsign : ∀ c ∈ sign, c = 0x2b ∨ c = 0x2d := by
    rcases hvalue with ⟨rfl | rfl, -⟩ | ⟨rfl, -⟩ <;> simp
  intro c hc
  simp only [List.mem_append] at hc
  rcases hc with hc | hc | hc | hc
  · exact .inl (hs c hc)
  · exact .inr (.inr (hsign c hc))
  · exact .inr (.inl (hdigits c hc))
  · exact .inl (hs' c hc)

/-- A document of one integer. -/
theorem integerAt_element {body : Bytes} (h : 0x3c ∉ body) :
    IntegerAt body .integer
      (ascii "<plist" ++ ascii ">" ++ element "integer" body) := by
  have hcut : cutAt (closeTag "integer") (body ++ (closeTag "integer" ++ [])) =
      some (body, []) := cutAt_append (0x2f :: ascii "integer" ++ ascii ">") h
  have hopens := opens_of_skips (skips_spaces spaces_nil)
    (cutAt_append [] (List.not_mem_nil : (0x3e : UInt8) ∉ []))
  refine ⟨_, _, [], hopens,
    .here (.element (.paired spaces_nil spaces_nil hcut)), ?_⟩
  funext value
  simp [element, openTag]

/-- `12x` is no number, and it is read as 12. -/
theorem not_integersExact_tail :
    parseXml (ascii "<plist><integer>12x</integer>") = .ok (.integer 12) ∧
      ¬IntegersExact (ascii "<plist><integer>12x</integer>") := by
  have htext : ascii "<plist><integer>12x</integer>" =
      ascii "<plist" ++ ascii ">" ++ element "integer" (ascii "12x") := by
    decide +kernel
  have hnumber : strtoll (ascii "12x") = 12 := by decide +kernel
  have hat := integerAt_element (by decide +kernel : 0x3c ∉ ascii "12x")
  have hread := parseXml_of_integerAt hat
  rw [hnumber] at hread
  rw [htext]
  refine ⟨hread, ?_⟩
  rintro (⟨message, herror⟩ | ⟨parsed, -, hexact⟩)
  · rw [hread] at herror
    cases herror
  · obtain ⟨number, hdenotes, -⟩ := hexact _ _ hat
    have hx := mem_of_denotes hdenotes 0x78 (by decide +kernel)
    revert hx
    decide +kernel

end Ioscpp.Protocol.Plist
