import Mathlib

/-!
# Byte sequences and fixed-width words

The wire formats of a protocol are byte sequences in which integers stand as a
fixed number of bytes, most or least significant byte first.  This module holds
both orders once: the bytes of a natural number at a width, the number a byte
sequence denotes, and the two round trips.

A number that does not fit the width is truncated, as a shift-and-mask loop
truncates it, so the round trips are stated modulo `256 ^ width` and become
exact below that bound.

## Main results

- `beValue_beBytes`, `leValue_leBytes`: a number is read back from its bytes,
  truncated to the width.
-/

namespace Ioscpp.Support

/-- Bytes are ordered by their value, so byte strings are ordered as unsigned
characters are. -/
instance instLinearOrderByte : LinearOrder UInt8 where
  le_refl := UInt8.le_refl
  le_trans := fun _ _ _ => UInt8.le_trans
  lt_iff_le_not_ge := fun a b => by
    simp only [UInt8.lt_iff_toNat_lt, UInt8.le_iff_toNat_le]
    omega
  le_antisymm := fun _ _ => UInt8.le_antisymm
  le_total := fun a b => by
    simp only [UInt8.le_iff_toNat_le]
    omega
  toDecidableLE := inferInstance
  toDecidableEq := inferInstance
  toDecidableLT := inferInstance

/-- A byte sequence: a `std::string`, a `std::vector<std::byte>` or a span. -/
abbrev Bytes := List UInt8

/-- The bytes of an ASCII literal. -/
def ascii (text : String) : Bytes :=
  text.toList.map fun c => UInt8.ofNat c.toNat

/-! ## Big-endian words -/

/-- The low `width` bytes of `value`, most significant first. -/
def beBytes : Nat → Nat → Bytes
  | 0, _ => []
  | width + 1, value =>
      UInt8.ofNat (value >>> (8 * width)) :: beBytes width value

/-- The number a big-endian byte sequence denotes. -/
def beValue (bytes : Bytes) : Nat :=
  bytes.foldl (fun value byte => value * 256 + byte.toNat) 0

@[simp] theorem length_beBytes (width value : Nat) :
    (beBytes width value).length = width := by
  induction width with
  | zero => rfl
  | succ width ih => simp [beBytes, ih]

@[simp] theorem beValue_nil : beValue [] = 0 := rfl

private theorem foldl_be (bytes : Bytes) (start : Nat) :
    bytes.foldl (fun value byte => value * 256 + byte.toNat) start =
      start * 256 ^ bytes.length + beValue bytes := by
  induction bytes generalizing start with
  | nil => simp
  | cons byte bytes ih =>
      simp only [beValue, List.foldl_cons, List.length_cons]
      rw [ih, ih (0 * 256 + byte.toNat)]
      ring

theorem beValue_cons (byte : UInt8) (bytes : Bytes) :
    beValue (byte :: bytes) = byte.toNat * 256 ^ bytes.length + beValue bytes := by
  simp only [beValue, List.foldl_cons]
  rw [foldl_be]
  simp [beValue]

theorem beValue_append (xs ys : Bytes) :
    beValue (xs ++ ys) = beValue xs * 256 ^ ys.length + beValue ys := by
  rw [beValue, List.foldl_append, foldl_be ys]
  rfl

theorem beValue_lt (bytes : Bytes) : beValue bytes < 256 ^ bytes.length := by
  induction bytes with
  | nil => simp
  | cons byte bytes ih =>
      rw [beValue_cons, List.length_cons, pow_succ]
      have hbyte : byte.toNat < 256 := byte.toNat_lt
      nlinarith

/-- Reading back the bytes of a value gives the value, truncated to the width. -/
theorem beValue_beBytes (width value : Nat) :
    beValue (beBytes width value) = value % 256 ^ width := by
  induction width with
  | zero => simp [beBytes, Nat.mod_one]
  | succ width ih =>
      have hpow : (256 : Nat) ^ width = 2 ^ (8 * width) := by
        rw [pow_mul]
        norm_num
      rw [beBytes, beValue_cons, length_beBytes, ih, pow_succ, Nat.mod_mul,
        UInt8.toNat_ofNat', Nat.shiftRight_eq_div_pow, ← hpow]
      ring

theorem beValue_beBytes_of_lt {width value : Nat} (h : value < 256 ^ width) :
    beValue (beBytes width value) = value := by
  rw [beValue_beBytes, Nat.mod_eq_of_lt h]

/-! ## Little-endian words -/

/-- The low `width` bytes of `value`, least significant first. -/
def leBytes : Nat → Nat → Bytes
  | 0, _ => []
  | width + 1, value => UInt8.ofNat value :: leBytes width (value >>> 8)

/-- The number a little-endian byte sequence denotes. -/
def leValue : Bytes → Nat
  | [] => 0
  | byte :: bytes => byte.toNat + 256 * leValue bytes

@[simp] theorem length_leBytes (width value : Nat) :
    (leBytes width value).length = width := by
  induction width generalizing value with
  | zero => rfl
  | succ width ih => simp [leBytes, ih]

@[simp] theorem leValue_nil : leValue [] = 0 := rfl

@[simp] theorem leValue_cons (byte : UInt8) (bytes : Bytes) :
    leValue (byte :: bytes) = byte.toNat + 256 * leValue bytes := rfl

theorem leValue_append (xs ys : Bytes) :
    leValue (xs ++ ys) = leValue xs + 256 ^ xs.length * leValue ys := by
  induction xs with
  | nil => simp
  | cons byte xs ih =>
      rw [List.cons_append, leValue_cons, leValue_cons, ih, List.length_cons,
        pow_succ]
      ring

theorem leValue_lt (bytes : Bytes) : leValue bytes < 256 ^ bytes.length := by
  induction bytes with
  | nil => simp
  | cons byte bytes ih =>
      rw [leValue_cons, List.length_cons, pow_succ]
      have hbyte : byte.toNat < 256 := byte.toNat_lt
      omega

/-- Reading back the bytes of a value gives the value, truncated to the width. -/
theorem leValue_leBytes (width value : Nat) :
    leValue (leBytes width value) = value % 256 ^ width := by
  induction width generalizing value with
  | zero => simp [leBytes, Nat.mod_one]
  | succ width ih =>
      rw [leBytes, leValue_cons, ih, pow_succ', Nat.mod_mul, UInt8.toNat_ofNat',
        Nat.shiftRight_eq_div_pow]

theorem leValue_leBytes_of_lt {width value : Nat} (h : value < 256 ^ width) :
    leValue (leBytes width value) = value := by
  rw [leValue_leBytes, Nat.mod_eq_of_lt h]

/-- The bytes of the number a byte sequence denotes are that sequence. -/
theorem leBytes_leValue (bytes : Bytes) :
    leBytes bytes.length (leValue bytes) = bytes := by
  induction bytes with
  | nil => rfl
  | cons byte bytes ih =>
      have hbyte : byte.toNat < 256 := byte.toNat_lt
      have hhigh : (byte.toNat + 256 * leValue bytes) >>> 8 = leValue bytes := by
        rw [Nat.shiftRight_eq_div_pow]
        omega
      have hlow : UInt8.ofNat (byte.toNat + 256 * leValue bytes) = byte := by
        apply UInt8.toNat_inj.mp
        rw [UInt8.toNat_ofNat']
        omega
      rw [List.length_cons, leValue_cons, leBytes, hhigh, hlow, ih]

/-! ## Concatenations -/

/-- A concatenation is at least as long as its pieces together. -/
theorem length_mul_le_flatMap {α : Type} {f : α → Bytes} {xs : List α}
    {least : Nat} (h : ∀ x ∈ xs, least ≤ (f x).length) :
    least * xs.length ≤ (xs.flatMap f).length := by
  induction xs with
  | nil => simp
  | cons x rest ih =>
      have hfirst := h x (by simp)
      have hrest := ih fun x hmem => h x (List.mem_cons_of_mem _ hmem)
      rw [List.flatMap_cons, List.length_append, List.length_cons, Nat.mul_succ]
      omega

/-- A piece is no longer than the concatenation. -/
theorem length_le_flatMap {α : Type} {f : α → Bytes} {xs : List α} {x : α}
    (h : x ∈ xs) : (f x).length ≤ (xs.flatMap f).length := by
  obtain ⟨front, back, rfl⟩ := List.append_of_mem h
  rw [List.flatMap_append, List.flatMap_cons, List.length_append,
    List.length_append]
  omega

end Ioscpp.Support
