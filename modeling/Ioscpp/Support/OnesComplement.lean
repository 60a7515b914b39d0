import Ioscpp.Support.Bytes

/-!
# One's-complement sums

The sum of the 16-bit words of bytes, in which a carry out of the sixteenth bit
is added back at the low end.  A receiver adds a checksum to the words it was
computed from: the sum of all is a multiple of `0xffff`, and that is the value
that an intact message folds to.

## Main results

- `onesFold_spec`: what a sum folds to agrees with it modulo `0xffff`.
- `onesFold_add_complement`: the complement of what a sum folds to completes it.
-/

namespace Ioscpp.Support

/-- The 16-bit word of two bytes. -/
def word (high low : UInt8) : Nat := high.toNat * 256 + low.toNat

/-- The sum of the words of bytes.  A last odd byte is the high half of a
word. -/
def wordSum : Bytes → Nat
  | high :: low :: rest => word high low + wordSum rest
  | [last] => word last 0
  | [] => 0

/-- Adds the carries of a sum to its low half. -/
def endAround (sum : Nat) : Nat := sum % 65536 + sum / 65536

theorem endAround_lt {sum : Nat} (h : 65536 ≤ sum) : endAround sum < sum := by
  rw [endAround]
  omega

/-- Adds the carries back for as long as there are any. -/
def onesFold (sum : Nat) : Nat :=
  if _h : sum < 65536 then sum else onesFold (endAround sum)
termination_by sum
decreasing_by exact endAround_lt (by omega)

/-! ## Sums of words -/

theorem word_lt (high low : UInt8) : word high low < 65536 := by
  have hhigh := high.toNat_lt
  have hlow := low.toNat_lt
  rw [word]
  omega

theorem wordSum_cons_cons (high low : UInt8) (rest : Bytes) :
    wordSum (high :: low :: rest) = word high low + wordSum rest := rfl

/-- The words of an even number of bytes end where the next bytes start. -/
theorem wordSum_append (rest : Bytes) :
    ∀ front : Bytes, front.length % 2 = 0 →
      wordSum (front ++ rest) = wordSum front + wordSum rest
  | [], _ => by simp [wordSum]
  | [last], h => by simp at h
  | high :: low :: front, h => by
      have hfront : front.length % 2 = 0 := by
        simp only [List.length_cons] at h
        omega
      simp only [List.cons_append, wordSum_cons_cons,
        wordSum_append rest front hfront]
      omega

/-- A number of sixteen bits adds itself. -/
theorem wordSum_beBytes {value : Nat} (h : value < 65536) :
    wordSum (beBytes 2 value) = value := by
  have hhigh : (UInt8.ofNat (value >>> 8)).toNat = value / 256 := by
    rw [UInt8.toNat_ofNat', Nat.shiftRight_eq_div_pow]
    omega
  have hlow : (UInt8.ofNat value).toNat = value % 256 := UInt8.toNat_ofNat'
  show word (UInt8.ofNat (value >>> 8)) (UInt8.ofNat value) + 0 = value
  rw [word, hhigh, hlow]
  omega

theorem wordSum_le : ∀ bytes : Bytes,
    wordSum bytes ≤ 65535 * ((bytes.length + 1) / 2)
  | [] => by simp [wordSum]
  | [last] => by
      have hlt := word_lt last 0
      show word last 0 ≤ 65535 * ((1 + 1) / 2)
      omega
  | high :: low :: rest => by
      have hlt := word_lt high low
      have hrest := wordSum_le rest
      rw [wordSum_cons_cons, List.length_cons, List.length_cons]
      omega

/-! ## Folding -/

theorem endAround_mod (sum : Nat) : endAround sum % 65535 = sum % 65535 := by
  rw [endAround]
  omega

theorem endAround_eq_zero_iff (sum : Nat) : endAround sum = 0 ↔ sum = 0 := by
  rw [endAround]
  omega

theorem onesFold_of_lt {sum : Nat} (h : sum < 65536) : onesFold sum = sum := by
  rw [onesFold, dif_pos h]

theorem onesFold_endAround (sum : Nat) : onesFold (endAround sum) = onesFold sum := by
  by_cases h : sum < 65536
  · have hsame : endAround sum = sum := by
      rw [endAround]
      omega
    rw [hsame]
  · rw [onesFold.eq_def sum, dif_neg h]

/-- What is left of a sum: a number of sixteen bits that agrees with it modulo
`0xffff`, and is zero for zero only. -/
theorem onesFold_spec (sum : Nat) :
    onesFold sum < 65536 ∧ onesFold sum % 65535 = sum % 65535 ∧
      (onesFold sum = 0 ↔ sum = 0) := by
  induction sum using Nat.strongRecOn with
  | ind sum ih =>
      by_cases h : sum < 65536
      · rw [onesFold_of_lt h]
        exact ⟨h, rfl, Iff.rfl⟩
      · have hnext := ih _ (endAround_lt (Nat.le_of_not_lt h))
        rw [onesFold_endAround, endAround_mod, endAround_eq_zero_iff] at hnext
        exact hnext

/-- The complement of what a sum folds to completes it. -/
theorem onesFold_add_complement (sum : Nat) :
    onesFold (sum + (65535 - onesFold sum)) = 65535 := by
  obtain ⟨hlt, hmod, hzero⟩ := onesFold_spec sum
  obtain ⟨hlt', hmod', hzero'⟩ :=
    onesFold_spec (sum + (65535 - onesFold sum))
  generalize onesFold (sum + (65535 - onesFold sum)) = total at *
  generalize onesFold sum = folded at *
  by_cases hsum : sum = 0
  · omega
  · omega

end Ioscpp.Support
