import Ioscpp.Support.Text

/-!
# Decimal digits of a fixed width

As many digits stand for one number only, and a number has as many digits as the
power of ten above it says.

## Main results

- `digitsValue_inj`: digits of one length that stand for one number are the same.
-/

namespace Ioscpp.Support

theorem foldl_digits (digits : Bytes) (start : Nat) :
    digits.foldl (fun value c => value * 10 + digitValue c) start =
      start * 10 ^ digits.length + digitsValue digits := by
  induction digits generalizing start with
  | nil => simp [digitsValue]
  | cons c rest ih =>
      rw [digitsValue, List.foldl_cons, List.foldl_cons, ih, ih (0 * 10 + digitValue c),
        List.length_cons, Nat.pow_succ]
      ring

/-- The first digit counts for the most. -/
theorem digitsValue_cons (c : UInt8) (rest : Bytes) :
    digitsValue (c :: rest) = digitValue c * 10 ^ rest.length + digitsValue rest := by
  rw [digitsValue, List.foldl_cons, foldl_digits, Nat.zero_mul, Nat.zero_add]

theorem digitValue_lt {c : UInt8} (h : isDigit c) : digitValue c < 10 := by
  revert c
  decide +kernel

theorem digitValue_inj {c d : UInt8} (hc : isDigit c) (hd : isDigit d)
    (h : digitValue c = digitValue d) : c = d := by
  have hback : ∀ c : UInt8, isDigit c → c = digit (digitValue c) := by decide +kernel
  rw [hback c hc, hback d hd, h]

theorem digitsValue_lt {digits : Bytes} (h : ∀ c ∈ digits, isDigit c) :
    digitsValue digits < 10 ^ digits.length := by
  induction digits with
  | nil => decide
  | cons c rest ih =>
      have hc := digitValue_lt (h c (by simp))
      have hrest := ih fun d hd => h d (List.mem_cons_of_mem _ hd)
      have hle : digitValue c * 10 ^ rest.length ≤ 9 * 10 ^ rest.length :=
        Nat.mul_le_mul_right _ (by omega)
      rw [digitsValue_cons, List.length_cons, Nat.pow_succ]
      omega

/-- Digits of one length that stand for one number are the same. -/
theorem digitsValue_inj {digits others : Bytes} (hlength : digits.length = others.length)
    (hdigits : ∀ c ∈ digits, isDigit c) (hothers : ∀ c ∈ others, isDigit c)
    (h : digitsValue digits = digitsValue others) : digits = others := by
  induction digits generalizing others with
  | nil => exact (List.eq_nil_of_length_eq_zero hlength.symm).symm
  | cons c rest ih =>
      cases others with
      | nil => cases hlength
      | cons d others =>
          have hlength : rest.length = others.length := Nat.succ.inj hlength
          have hrest := digitsValue_lt fun e he => hdigits e (List.mem_cons_of_mem _ he)
          have hother := digitsValue_lt fun e he => hothers e (List.mem_cons_of_mem _ he)
          rw [digitsValue_cons, digitsValue_cons, ← hlength] at h
          rw [← hlength] at hother
          have hpos : 0 < 10 ^ rest.length := by positivity
          have hhead : digitValue c = digitValue d := by
            have hquot := congrArg (· / 10 ^ rest.length) h
            simp only [Nat.mul_comm _ (10 ^ rest.length), Nat.mul_add_div hpos,
              Nat.div_eq_of_lt hrest, Nat.div_eq_of_lt hother, Nat.add_zero] at hquot
            exact hquot
          have htail : digitsValue rest = digitsValue others := by
            rw [hhead] at h
            omega
          rw [digitValue_inj (hdigits c (by simp)) (hothers d (by simp)) hhead,
            ih hlength (fun e he => hdigits e (List.mem_cons_of_mem _ he))
              (fun e he => hothers e (List.mem_cons_of_mem _ he)) htail]

theorem digitsValue_zeros (count : Nat) (digits : Bytes) :
    digitsValue (List.replicate count (digit 0) ++ digits) = digitsValue digits := by
  induction count with
  | zero => rfl
  | succ count ih =>
      have hzero : digitValue (digit 0) = 0 := by decide
      rw [List.replicate_succ, List.cons_append, digitsValue_cons, ih, hzero,
        Nat.zero_mul, Nat.zero_add]

/-- A number below a power of ten has no more digits. -/
theorem length_decimal_le {value width : Nat} (hwidth : 0 < width) :
    (decimal value).length ≤ width ↔ value < 10 ^ width := by
  have hdigits := Nat.digits_length_le_iff (by decide : 1 < 10) value (k := width)
  rw [decimal]
  split
  · rename_i hzero
    rw [hzero]
    have hpos : 0 < 10 ^ width := by positivity
    exact ⟨fun _ => hpos, fun _ => hwidth⟩
  · rw [List.length_reverse, List.length_map]
    exact hdigits

end Ioscpp.Support
