import Ioscpp.Support.Settled

/-!
# Decoding a buffer that goes on

`Extends p q` compares two decoding steps: what `p` reads from a buffer, `q` reads
from every longer one, and it ends at the same offset.  The two are different
steps where a step looks at the length of its buffer, or where its fuel is
counted in bytes; otherwise `Extends p p` is `Stable p`.

A parser that must take all its bytes and extends itself is `PrefixFree`: of an
accepted sequence, no proper prefix and no proper extension is accepted.

## Main results

- `PrefixFree.of_append`: it suffices that of two accepted sequences none goes on
  where the other ends.
- `Extends.eq_nil`: so it is for a step that extends itself and takes all its bytes.
-/

namespace Ioscpp.Support

variable {ε α β : Type}

/-! ## Accepted sequences -/

/-- Every sequence is settled, and from an accepted one nothing can be taken and
to it nothing can be added. -/
structure PrefixFree (parse : Bytes → Checked ε α) : Prop where
  settled : ∀ bytes, Settled (parse bytes)
  shorter : ∀ (front back : Bytes) (a : α), parse (front ++ back) = .ok a →
    back ≠ [] → ∃ e, parse front = .error (.error e)
  longer : ∀ (bytes more : Bytes) (a : α), parse bytes = .ok a →
    more ≠ [] → ∃ e, parse (bytes ++ more) = .error (.error e)

/-- What is not accepted is an error. -/
theorem Settled.error_of_ne {x : Checked ε α} (h : Settled x)
    (hne : ∀ a, x ≠ .ok a) : ∃ e, x = .error (.error e) := by
  rcases h with ⟨a, ha⟩ | herror
  · exact absurd ha (hne a)
  · exact herror

/-- It suffices that of two accepted sequences none goes on where the other
ends. -/
theorem PrefixFree.of_append {parse : Bytes → Checked ε α}
    (hsettled : ∀ bytes, Settled (parse bytes))
    (h : ∀ (bytes more : Bytes) (a b : α), parse bytes = .ok a →
      parse (bytes ++ more) = .ok b → more = []) : PrefixFree parse where
  settled := hsettled
  shorter := by
    intro front back a hparse hne
    apply (hsettled front).error_of_ne
    intro b hfront
    exact hne (h front back b a hfront hparse)
  longer := by
    intro bytes more a hparse hne
    apply (hsettled (bytes ++ more)).error_of_ne
    intro b hmore
    exact hne (h bytes more a b hparse hmore)

namespace Reading

/-! ## Steps -/

/-- What `p` reads from a buffer, `q` reads from every longer one. -/
structure Extends (p q : Reading ε α) : Prop where
  keeps : ∀ (reader last : Cursor) (a : α),
    p reader = .ok (a, last) → last.bytes = reader.bytes
  extend : ∀ (bytes more : Bytes) (offset : Nat) (a : α) (last : Cursor),
    p ⟨bytes, offset⟩ = .ok (a, last) →
      q ⟨bytes ++ more, offset⟩ = .ok (a, ⟨bytes ++ more, last.offset⟩)

theorem Stable.extends {p : Reading ε α} (h : Stable p) : Extends p p :=
  ⟨h.keeps, h.extend⟩

/-- A step that never succeeds extends to any step. -/
theorem extends_of_error {p q : Reading ε α}
    (h : ∀ reader, ∃ e, p reader = .error e) : Extends p q where
  keeps := by
    intro reader last a hrun
    obtain ⟨e, he⟩ := h reader
    rw [he] at hrun
    cases hrun
  extend := by
    intro bytes more offset a last hrun
    obtain ⟨e, he⟩ := h ⟨bytes, offset⟩
    rw [he] at hrun
    cases hrun

theorem extends_fail (e : ε) (q : Reading ε α) : Extends (fail e) q :=
  extends_of_error fun _ => ⟨_, rfl⟩

theorem extends_lift_error (e : Fault ε) (q : Reading ε α) :
    Extends (lift (.error e)) q :=
  extends_of_error fun _ => ⟨_, rfl⟩

theorem Extends.bind {p q : Reading ε α} {f g : α → Reading ε β}
    (hp : Extends p q) (hf : ∀ a, Extends (f a) (g a)) :
    Extends (p >>= f) (q >>= g) where
  keeps := by
    intro reader last b h
    obtain ⟨⟨a, middle⟩, hfirst, hsecond⟩ := bind_eq_ok.mp h
    exact ((hf a).keeps _ _ _ hsecond).trans (hp.keeps _ _ _ hfirst)
  extend := by
    intro bytes more offset b last h
    obtain ⟨⟨a, ⟨middle, stop⟩⟩, hfirst, hsecond⟩ := bind_eq_ok.mp h
    obtain rfl : middle = bytes := hp.keeps _ _ _ hfirst
    rw [bind_apply, hp.extend _ more _ _ _ hfirst, ok_bind]
    exact (hf a).extend _ more _ _ _ hsecond

/-- Reading the cursor: the rest may look at the buffer. -/
theorem Extends.get_bind {f g : Cursor → Reading ε β}
    (h : ∀ (bytes more : Bytes) (offset : Nat),
      Extends (f ⟨bytes, offset⟩) (g ⟨bytes ++ more, offset⟩)) :
    Extends (get >>= f) (get >>= g) where
  keeps := by
    intro ⟨bytes, offset⟩ last b hrun
    exact (h bytes [] offset).keeps _ _ _ hrun
  extend := by
    intro bytes more offset b last hrun
    exact (h bytes more offset).extend _ more _ _ _ hrun

theorem stable_skipPadding (truncated : ε) (alignment : Nat) :
    Stable (skipPadding truncated alignment) where
  keeps := by
    intro reader last a h
    unfold skipPadding at h
    dsimp only at h
    split at h
    · cases h
      rfl
    · split at h
      · cases h
        rfl
      · cases h
  extend := by
    intro bytes more offset a last h
    unfold skipPadding at h ⊢
    dsimp only at h ⊢
    by_cases haligned : offset % alignment = 0
    · rw [if_pos haligned] at h ⊢
      cases h
      rfl
    · rw [if_neg haligned] at h ⊢
      split at h
      · rename_i hhas
        cases h
        rw [if_pos]
        simp only [Cursor.has, decide_eq_true_eq, List.length_append] at hhas ⊢
        omega
      · cases h

/-- Of two sequences that are consumed whole, none goes on where the other
ends. -/
theorem Extends.eq_nil {p q : Reading ε α} (h : Extends p q)
    {bytes more : Bytes} {a b : α} {reader last : Cursor}
    (hp : p ⟨bytes, 0⟩ = .ok (a, reader)) (hend : reader.offset = bytes.length)
    (hq : q ⟨bytes ++ more, 0⟩ = .ok (b, last))
    (hlast : last.offset = (bytes ++ more).length) : more = [] := by
  rw [h.extend bytes more 0 a reader hp] at hq
  cases hq
  rw [List.length_append] at hlast
  apply List.eq_nil_of_length_eq_zero
  dsimp only at hlast
  omega

end Reading

end Ioscpp.Support
