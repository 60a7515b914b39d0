import Ioscpp.Support.Cursor

/-!
# Decoding a buffer that is cut short

A step that succeeds on a buffer does the same on a prefix that holds what it
reads, and on a shorter one it fails with the error of a truncated buffer.
-/

namespace Ioscpp.Support.Reading

variable {ε α β : Type}

/-- What a step that succeeds does on a prefix of its buffer. -/
structure Truncates (truncated : ε) (p : Reading ε α) : Prop where
  moves : ∀ (reader last : Cursor) (a : α), p reader = .ok (a, last) →
    last.bytes = reader.bytes ∧ reader.offset ≤ last.offset
  whole : ∀ (bytes more : Bytes) (offset : Nat) (a : α) (last : Cursor),
    p ⟨bytes ++ more, offset⟩ = .ok (a, last) → last.offset ≤ bytes.length →
      p ⟨bytes, offset⟩ = .ok (a, ⟨bytes, last.offset⟩)
  short : ∀ (bytes more : Bytes) (offset : Nat) (a : α) (last : Cursor),
    p ⟨bytes ++ more, offset⟩ = .ok (a, last) → offset ≤ bytes.length →
      bytes.length < last.offset → p ⟨bytes, offset⟩ = .error (.error truncated)

theorem truncates_pure (truncated : ε) (a : α) :
    Truncates truncated (Pure.pure a : Reading ε α) where
  moves := by
    rintro reader last b h
    cases h
    exact ⟨rfl, Nat.le_refl _⟩
  whole := by
    rintro bytes more offset b last h _
    cases h
    rfl
  short := by
    rintro bytes more offset b last h hle hlt
    cases h
    exact absurd hle (Nat.not_le_of_lt hlt)

theorem truncates_fail (truncated e : ε) :
    Truncates truncated (fail e : Reading ε α) where
  moves := by
    rintro reader last b h
    cases h
  whole := by
    rintro bytes more offset b last h
    cases h
  short := by
    rintro bytes more offset b last h
    cases h

theorem truncates_word (truncated : ε) {size : Nat} (hs : 0 < size) :
    Truncates truncated (word truncated size) where
  moves := by
    intro reader last a h
    obtain ⟨-, -, rfl⟩ := word_eq_ok hs h
    exact ⟨rfl, Nat.le_add_right _ _⟩
  whole := by
    intro bytes more offset a last h hle
    obtain ⟨-, rfl, rfl⟩ := word_eq_ok hs h
    dsimp only at hle ⊢
    rw [word_of_le ⟨bytes, offset⟩ hle, List.drop_append_of_le_length (by omega),
      List.take_append_of_le_length (by rw [List.length_drop]; omega)]
  short := by
    intro bytes more offset a last h _ hlt
    obtain ⟨-, rfl, rfl⟩ := word_eq_ok hs h
    exact word_of_lt ⟨bytes, offset⟩ hlt hs

theorem Truncates.ite {truncated : ε} {c : Prop} [Decidable c]
    {p q : Reading ε α} (hp : Truncates truncated p)
    (hq : Truncates truncated q) : Truncates truncated (if c then p else q) := by
  split
  · exact hp
  · exact hq

theorem Truncates.bind {truncated : ε} {p : Reading ε α} {f : α → Reading ε β}
    (hp : Truncates truncated p) (hf : ∀ a, Truncates truncated (f a)) :
    Truncates truncated (p >>= f) where
  moves := by
    intro reader last b h
    obtain ⟨⟨a, middle⟩, hfirst, hsecond⟩ := bind_eq_ok.mp h
    obtain ⟨hbytes, hle⟩ := hp.moves _ _ _ hfirst
    obtain ⟨hbytes', hle'⟩ := (hf a).moves _ _ _ hsecond
    exact ⟨hbytes'.trans hbytes, hle.trans hle'⟩
  whole := by
    intro bytes more offset b last h hle
    obtain ⟨⟨a, middle⟩, hfirst, hsecond⟩ := bind_eq_ok.mp h
    obtain ⟨hbytes, -⟩ := hp.moves _ _ _ hfirst
    obtain ⟨-, hmiddle⟩ := (hf a).moves _ _ _ hsecond
    obtain ⟨_, at_⟩ := middle
    obtain rfl := hbytes
    rw [bind_apply, hp.whole bytes more offset a _ hfirst (hmiddle.trans hle),
      ok_bind]
    exact (hf a).whole bytes more at_ b last hsecond hle
  short := by
    intro bytes more offset b last h hle hlt
    obtain ⟨⟨a, middle⟩, hfirst, hsecond⟩ := bind_eq_ok.mp h
    obtain ⟨hbytes, -⟩ := hp.moves _ _ _ hfirst
    obtain ⟨_, at_⟩ := middle
    obtain rfl := hbytes
    rw [bind_apply]
    by_cases hmiddle : at_ ≤ bytes.length
    · rw [hp.whole bytes more offset a _ hfirst hmiddle, ok_bind]
      exact (hf a).short bytes more at_ b last hsecond hmiddle hlt
    · rw [hp.short bytes more offset a _ hfirst hle (Nat.lt_of_not_le hmiddle)]
      rfl

end Ioscpp.Support.Reading
