import Ioscpp.Support.Bytes

/-!
# Hexadecimal numbers

What hexadecimal digits stand for, in either case, apart from any code that reads
them.

## Main results

- `hexNumber_cons`: the first digit of a number stands for the most.
-/

namespace Ioscpp.Support

/-- The number that a hexadecimal digit stands for. -/
def hexDigitValue (c : UInt8) : Option Nat :=
  (ascii "0123456789abcdef").idxOf? c <|> (ascii "0123456789ABCDEF").idxOf? c

/-- Digits, and the number that they stand for. -/
def HexNumber (text : Bytes) (value : Nat) : Prop :=
  ∃ digits, List.Forall₂ (fun c d => hexDigitValue c = some d) text digits ∧
    value = Nat.ofDigits 16 digits.reverse

theorem hexDigitValue_lt {c : UInt8} {d : Nat} (h : hexDigitValue c = some d) :
    d < 16 := by
  have hall : ∀ c : UInt8, ∀ d ∈ hexDigitValue c, d < 16 := by decide +kernel
  exact hall c d h

theorem hexNumber_nil {value : Nat} : HexNumber [] value ↔ value = 0 := by
  simp [HexNumber]

/-- The first digit of a number stands for the most. -/
theorem hexNumber_cons {c : UInt8} {rest : Bytes} {value : Nat} :
    HexNumber (c :: rest) value ↔
      ∃ d number, hexDigitValue c = some d ∧ HexNumber rest number ∧
        value = d * 16 ^ rest.length + number := by
  constructor
  · intro h
    obtain ⟨digits, hall, hvalue⟩ := h
    cases hall with
    | cons hhead htail =>
        rename_i d digits
        refine ⟨d, Nat.ofDigits 16 digits.reverse, hhead, ⟨digits, htail, rfl⟩, ?_⟩
        rw [hvalue, List.reverse_cons, Nat.ofDigits_append, Nat.ofDigits_singleton,
          List.length_reverse, ← htail.length_eq]
        ring
  · intro h
    obtain ⟨d, number, hhead, ⟨digits, htail, rfl⟩, rfl⟩ := h
    refine ⟨d :: digits, List.Forall₂.cons hhead htail, ?_⟩
    rw [List.reverse_cons, Nat.ofDigits_append, Nat.ofDigits_singleton,
      List.length_reverse, ← htail.length_eq]
    ring

theorem HexNumber.lt {text : Bytes} {value : Nat} (h : HexNumber text value) :
    value < 16 ^ text.length := by
  induction text generalizing value with
  | nil =>
      rw [hexNumber_nil.mp h]
      decide
  | cons c rest ih =>
      obtain ⟨d, number, hd, hnumber, rfl⟩ := hexNumber_cons.mp h
      have hlt := hexDigitValue_lt hd
      have hrest := ih hnumber
      have hle : d * 16 ^ rest.length ≤ 15 * 16 ^ rest.length :=
        Nat.mul_le_mul_right _ (by omega)
      rw [List.length_cons, Nat.pow_succ]
      omega

/-- Every character of a number is a digit. -/
theorem HexNumber.digit {text : Bytes} {value : Nat} (h : HexNumber text value) :
    ∀ c ∈ text, ∃ d, hexDigitValue c = some d := by
  induction text generalizing value with
  | nil => simp
  | cons c rest ih =>
      obtain ⟨d, number, hd, hnumber, -⟩ := hexNumber_cons.mp h
      rw [List.forall_mem_cons]
      exact ⟨⟨d, hd⟩, ih hnumber⟩

end Ioscpp.Support
