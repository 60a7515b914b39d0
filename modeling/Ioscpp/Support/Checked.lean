import Ioscpp.Support.Bytes

/-!
# Checked computations over a byte buffer

A decoder in a language without bounds checks can end in four ways that are not
a value: it can report an error of its own, it can read a byte outside its
buffer, a library function it calls can throw, or it can fail to return.  `Fault`
keeps the four apart, so that "never reads outside its input" and "always
returns" are statements about a result and not about a type.

Buffer accesses go through `byteAt` and `slice`, which fault on an index that is
out of range.  The word readers below are the loops every decoder writes; each
one comes with the lemma that says what it returns when its range is inside the
buffer.

## Main results

- `readBe_eq`, `readLe_eq`: what a reader returns inside its buffer.
- `readBe_word`, `readLe_word`: the same by what stands before the word.
- `le_of_readBe`, `le_of_readLe`: a word that is read was inside the buffer.
-/

namespace Ioscpp.Support

/-- How a checked computation ends without a value. -/
inductive Fault (ε : Type) where
  /-- The computation reports an error of its own. -/
  | error (e : ε)
  /-- A byte outside the buffer was accessed. -/
  | outOfBounds
  /-- A library function threw an exception that nothing catches. -/
  | exception
  /-- The step bound of the model ran out before the computation returned. -/
  | outOfFuel
  deriving DecidableEq, Repr

/-- The outcome of a checked computation. -/
abbrev Checked (ε α : Type) := Except (Fault ε) α

variable {ε α β : Type}

@[simp] theorem ok_bind (a : α) (f : α → Checked ε β) :
    (Except.ok a : Checked ε α) >>= f = f a := rfl

@[simp] theorem error_bind (e : Fault ε) (f : α → Checked ε β) :
    (Except.error e : Checked ε α) >>= f = Except.error e := rfl

@[simp] theorem pure_eq_ok (a : α) : (pure a : Checked ε α) = .ok a := rfl

@[simp] theorem throw_eq_error (e : Fault ε) :
    (throw e : Checked ε α) = .error e := rfl

/-- A bind that succeeds is a first step that succeeds and a rest that does. -/
theorem bind_eq_ok {x : Checked ε α} {f : α → Checked ε β} {b : β} :
    x >>= f = .ok b ↔ ∃ a, x = .ok a ∧ f a = .ok b := by
  cases x with
  | ok a => simp
  | error e => simp

/-! ## Buffer accesses -/

/-- The byte at index `i`. -/
def byteAt (bytes : Bytes) (i : Nat) : Checked ε UInt8 :=
  match bytes[i]? with
  | some byte => .ok byte
  | none => .error .outOfBounds

/-- The `count` bytes from `offset`. -/
def slice (bytes : Bytes) (offset count : Nat) : Checked ε Bytes :=
  if offset + count ≤ bytes.length then
    .ok ((bytes.drop offset).take count)
  else
    .error .outOfBounds

theorem byteAt_of_lt {bytes : Bytes} {i : Nat} (h : i < bytes.length) :
    (byteAt bytes i : Checked ε UInt8) = .ok bytes[i] := by
  simp [byteAt, h]

theorem slice_of_le {bytes : Bytes} {offset count : Nat}
    (h : offset + count ≤ bytes.length) :
    (slice bytes offset count : Checked ε Bytes) =
      .ok ((bytes.drop offset).take count) := by
  simp [slice, h]

/-! ## Word readers -/

/-- One step of a 64-bit big-endian accumulator: `(value << 8) | byte`. -/
def shiftIn (value : Nat) (byte : UInt8) : Nat :=
  (value <<< 8 ||| byte.toNat) % 2 ^ 64

/-- Reads `size` bytes from `offset` into a 64-bit accumulator, most significant
byte first; bits shifted past the top are lost. -/
def readBe (bytes : Bytes) (offset : Nat) : Nat → Checked ε Nat
  | 0 => .ok 0
  | size + 1 => do
      let value ← readBe bytes offset size
      let byte ← byteAt bytes (offset + size)
      return shiftIn value byte

/-- Reads `size` bytes from `offset`, least significant byte first. -/
def readLe (bytes : Bytes) (offset : Nat) : Nat → Checked ε Nat
  | 0 => .ok 0
  | size + 1 => do
      let value ← readLe bytes offset size
      let byte ← byteAt bytes (offset + size)
      return value ||| (byte.toNat <<< (8 * size))

theorem shiftIn_eq (value : Nat) (byte : UInt8) :
    shiftIn value byte = (value * 256 + byte.toNat) % 2 ^ 64 := by
  have hbyte : byte.toNat < 2 ^ 8 := byte.toNat_lt
  rw [shiftIn, ← Nat.shiftLeft_add_eq_or_of_lt hbyte, Nat.shiftLeft_eq]

private theorem take_succ_drop {bytes : Bytes} {offset size : Nat}
    (h : offset + size < bytes.length) :
    (bytes.drop offset).take (size + 1) =
      (bytes.drop offset).take size ++ [bytes[offset + size]] := by
  have hlt : size < (bytes.drop offset).length := by
    rw [List.length_drop]
    omega
  rw [List.take_succ_eq_append_getElem hlt, List.getElem_drop]

/-- Inside the buffer, the big-endian reader returns the value of its bytes,
reduced to the accumulator's 64 bits. -/
theorem readBe_eq {bytes : Bytes} {offset : Nat} :
    ∀ {size : Nat}, offset + size ≤ bytes.length →
      (readBe bytes offset size : Checked ε Nat) =
        .ok (beValue ((bytes.drop offset).take size) % 2 ^ 64)
  | 0, _ => by simp [readBe]
  | size + 1, h => by
      have hlt : offset + size < bytes.length := by omega
      have ih := @readBe_eq bytes offset size (by omega)
      rw [readBe, ih, ok_bind, byteAt_of_lt hlt, ok_bind, take_succ_drop hlt,
        beValue_append, shiftIn_eq]
      simp [beValue_cons, Nat.add_mod, Nat.mul_mod]

/-- A big-endian word of a buffer, by what stands before it. -/
theorem readBe_word {size value offset : Nat} {buffer : Bytes}
    (front rest : Bytes) (hbuffer : buffer = front ++ (beBytes size value ++ rest))
    (hfront : front.length = offset) (h : value < 256 ^ size)
    (h64 : value < 2 ^ 64) :
    (readBe buffer offset size : Checked ε Nat) = .ok value := by
  subst hbuffer hfront
  rw [readBe_eq (by simp), List.drop_left,
    List.take_left' (length_beBytes size value), beValue_beBytes_of_lt h,
    Nat.mod_eq_of_lt h64]

/-- A big-endian word that is read was inside the buffer. -/
theorem le_of_readBe {bytes : Bytes} {offset size value : Nat} (hs : 0 < size)
    (h : (readBe bytes offset size : Checked ε Nat) = .ok value) :
    offset + size ≤ bytes.length := by
  obtain ⟨size, rfl⟩ := Nat.exists_eq_add_one_of_ne_zero (Nat.ne_of_gt hs)
  rw [readBe] at h
  obtain ⟨front, -, h⟩ := bind_eq_ok.mp h
  obtain ⟨byte, hbyte, -⟩ := bind_eq_ok.mp h
  by_cases hlt : offset + size < bytes.length
  · exact hlt
  · rw [byteAt, List.getElem?_eq_none (Nat.not_lt.mp hlt)] at hbyte
    cases hbyte

/-- Inside the buffer, the little-endian reader returns the value of its
bytes. -/
theorem readLe_eq {bytes : Bytes} {offset : Nat} :
    ∀ {size : Nat}, offset + size ≤ bytes.length →
      (readLe bytes offset size : Checked ε Nat) =
        .ok (leValue ((bytes.drop offset).take size))
  | 0, _ => by simp [readLe]
  | size + 1, h => by
      have hlt : offset + size < bytes.length := by omega
      have ih := @readLe_eq bytes offset size (by omega)
      have hlen : ((bytes.drop offset).take size).length = size := by
        rw [List.length_take, List.length_drop]
        omega
      have hbound := leValue_lt ((bytes.drop offset).take size)
      have hpow : (256 : Nat) ^ size = 2 ^ (8 * size) := by
        rw [pow_mul]
        norm_num
      rw [hlen, hpow] at hbound
      rw [readLe, ih, ok_bind, byteAt_of_lt hlt, ok_bind, take_succ_drop hlt,
        leValue_append, hlen, hpow, Nat.or_comm,
        ← Nat.shiftLeft_add_eq_or_of_lt hbound, Nat.shiftLeft_eq]
      simp [Nat.mul_comm, Nat.add_comm]

/-- A little-endian word of a buffer, by what stands before it. -/
theorem readLe_word {size value offset : Nat} {buffer : Bytes}
    (front rest : Bytes) (hbuffer : buffer = front ++ (leBytes size value ++ rest))
    (hfront : front.length = offset) :
    (readLe buffer offset size : Checked ε Nat) = .ok (value % 256 ^ size) := by
  subst hbuffer hfront
  rw [readLe_eq (by simp), List.drop_left,
    List.take_left' (length_leBytes size value), leValue_leBytes]

theorem readLe_word_of_lt {size value offset : Nat} {buffer : Bytes}
    (front rest : Bytes) (hbuffer : buffer = front ++ (leBytes size value ++ rest))
    (hfront : front.length = offset) (h : value < 256 ^ size) :
    (readLe buffer offset size : Checked ε Nat) = .ok value := by
  rw [readLe_word front rest hbuffer hfront, Nat.mod_eq_of_lt h]

/-- A word that ends behind the buffer is read outside it. -/
theorem readLe_outside {bytes : Bytes} {offset size : Nat}
    (h : bytes.length < offset + size) (hfirst : offset ≤ bytes.length) :
    (readLe bytes offset size : Checked ε Nat) = .error .outOfBounds := by
  induction size with
  | zero => omega
  | succ size ih =>
      unfold readLe
      by_cases hshort : bytes.length < offset + size
      · rw [ih hshort]
        rfl
      · have hnone : bytes[offset + size]? = none :=
          List.getElem?_eq_none (by omega)
        rw [readLe_eq (by omega), ok_bind]
        unfold byteAt
        rw [hnone]
        rfl

/-- A word that is read lies in the buffer. -/
theorem le_of_readLe {bytes : Bytes} {offset size value : Nat} (hs : 0 < size)
    (h : (readLe bytes offset size : Checked ε Nat) = .ok value) :
    offset + size ≤ bytes.length := by
  obtain ⟨size, rfl⟩ := Nat.exists_eq_add_one_of_ne_zero (Nat.ne_of_gt hs)
  rw [readLe] at h
  obtain ⟨low, -, h⟩ := bind_eq_ok.mp h
  obtain ⟨byte, hbyte, -⟩ := bind_eq_ok.mp h
  by_cases hlt : offset + size < bytes.length
  · exact hlt
  · rw [byteAt, List.getElem?_eq_none (Nat.not_lt.mp hlt)] at hbyte
    cases hbyte

end Ioscpp.Support
