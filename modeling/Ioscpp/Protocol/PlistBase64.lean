import Ioscpp.Protocol.PlistText

/-!
# Which base64 text is read

The decoder collects six bits for each character up to the first `=` and looks
no further.  So it never sees whether the last group is whole: a text that was
cut short is read as shorter data.  White space it skips, so an encoding may be broken
into lines.

## Main results

- `base64Loop_ok`, `base64Loop_error`: what the loop does with a text.
- `base64Decode_canonical_iff`: when a text is canonical or refused.
- `base64Decode_spaced`: white space in an encoding is skipped.
-/

namespace Ioscpp.Protocol.Plist

open Ioscpp.Support

/-- The text without its white space. -/
def withoutSpace (text : Bytes) : Bytes := text.filter fun c => !isSpace c

/-- The characters that are decoded: those before the first `=`. -/
def base64Front (text : Bytes) : Bytes :=
  (withoutSpace text).takeWhile (· != 0x3d)

/-- What follows the characters that are decoded. -/
def base64Back (text : Bytes) : Bytes :=
  (withoutSpace text).dropWhile (· != 0x3d)

/-- A text that stands for `out`: groups of four characters, the last of which
may end in one or two `=`, in which every character has a bit that is written. -/
structure Canonical (text out : Bytes) : Prop where
  groups : ∃ body pad,
    withoutSpace text = body ++ List.replicate pad 0x3d ∧
      (∀ c ∈ body, ∃ value, base64Value c = some value) ∧ pad ≤ 2 ∧
      (body.length + pad) % 4 = 0 ∧ 6 * body.length < 8 * out.length + 6
  length : (base64Encode out).length = (withoutSpace text).length

/-- The decoder meets a character outside the alphabet, or what follows the
characters it decodes is just what makes their last group whole. -/
def RefusedOrWhole (text : Bytes) : Prop :=
  (∃ c ∈ base64Front text, base64Value c = none) ∨
    (base64Front text).length % 4 ≠ 1 ∧
      base64Back text =
        List.replicate ((4 - (base64Front text).length % 4) % 4) 0x3d

/-! ## The front of a text -/

theorem base64Front_nil : base64Front [] = [] := rfl

theorem base64Front_pad (rest : Bytes) : base64Front (0x3d :: rest) = [] := by
  have hspace : isSpace 0x3d = false := by decide
  simp [base64Front, withoutSpace, hspace]

theorem base64Front_space {c : UInt8} (rest : Bytes) (h : isSpace c = true) :
    base64Front (c :: rest) = base64Front rest := by
  simp [base64Front, withoutSpace, h]

theorem base64Front_char {c : UInt8} (rest : Bytes) (hpad : c ≠ 0x3d)
    (hspace : isSpace c = false) :
    base64Front (c :: rest) = c :: base64Front rest := by
  simp [base64Front, withoutSpace, hspace, hpad]

theorem base64Front_append_back (text : Bytes) :
    base64Front text ++ base64Back text = withoutSpace text :=
  List.takeWhile_append_dropWhile

theorem base64Value_pad : base64Value 0x3d = none := by decide +kernel

/-- The front of a body of characters and its padding is the body. -/
theorem base64Front_of_groups {text body : Bytes} {pad : Nat}
    (htext : withoutSpace text = body ++ List.replicate pad 0x3d)
    (hbody : ∀ c ∈ body, ∃ value, base64Value c = some value) :
    base64Front text = body ∧ base64Back text = List.replicate pad 0x3d := by
  have hne : ∀ c ∈ body, (c != 0x3d) = true := by
    intro c hc
    obtain ⟨value, hvalue⟩ := hbody c hc
    by_cases h : c = 0x3d
    · rw [h, base64Value_pad] at hvalue
      cases hvalue
    · simpa using h
  have hstop : (List.replicate pad (0x3d : UInt8)).takeWhile (· != 0x3d) = [] := by
    cases pad <;> simp [List.replicate_succ]
  have hkeep : (List.replicate pad (0x3d : UInt8)).dropWhile (· != 0x3d) =
      List.replicate pad 0x3d := by
    cases pad <;> simp [List.replicate_succ]
  constructor
  · rw [base64Front, htext, List.takeWhile_append_of_pos hne, hstop,
      List.append_nil]
  · rw [base64Back, htext, List.dropWhile_append_of_pos hne, hkeep]

/-! ## What the loop does -/

/-- When every character of the front has a value, the loop writes a byte for
each eight bits. -/
theorem base64Loop_ok {text : Bytes} {buffer bits : Nat} {out : Bytes}
    (hbits : bits < 8)
    (h : ∀ c ∈ base64Front text, ∃ value, base64Value c = some value) :
    ∃ written, base64Loop buffer bits out text = .ok (out ++ written) ∧
      written.length = (bits + 6 * (base64Front text).length) / 8 := by
  induction text generalizing buffer bits out with
  | nil =>
      refine ⟨[], by simp [base64Loop], ?_⟩
      simp [base64Front_nil]
      omega
  | cons c rest ih =>
      by_cases hpad : c = 0x3d
      · subst hpad
        refine ⟨[], by simp [base64Loop], ?_⟩
        simp [base64Front_pad]
        omega
      by_cases hspace : isSpace c = true
      · rw [base64Front_space rest hspace] at h ⊢
        rw [base64Loop, if_neg hpad, if_pos hspace]
        exact ih hbits h
      have hspace : isSpace c = false := by simpa using hspace
      rw [base64Front_char rest hpad hspace] at h ⊢
      obtain ⟨value, hvalue⟩ := h c (by simp)
      have hrest : ∀ c ∈ base64Front rest, ∃ value, base64Value c = some value :=
        fun c hc => h c (List.mem_cons_of_mem _ hc)
      simp only [base64Loop, if_neg hpad, hspace, Bool.false_eq_true, if_false,
        hvalue, List.length_cons]
      by_cases hbyte : 8 ≤ bits + 6
      · rw [if_pos hbyte]
        generalize UInt8.ofNat (_ : Nat) = byte
        obtain ⟨written, hrun, hlength⟩ :=
          @ih (base64Push buffer value) (bits - 2) (out ++ [byte]) (by omega) hrest
        refine ⟨byte :: written, ?_, ?_⟩
        · rw [hrun, List.append_assoc, List.singleton_append]
        · rw [List.length_cons, hlength]
          omega
      · rw [if_neg hbyte]
        obtain ⟨written, hrun, hlength⟩ :=
          @ih (base64Push buffer value) (bits + 6) out (by omega) hrest
        refine ⟨written, hrun, ?_⟩
        rw [hlength]
        omega

/-- A character of the front without a value is an error, wherever in the front it
stands and whatever follows. -/
theorem base64Loop_error {text : Bytes} {buffer bits : Nat} {out : Bytes}
    (h : ∃ c ∈ base64Front text, base64Value c = none) (result : Bytes) :
    base64Loop buffer bits out text ≠ .ok result := by
  induction text generalizing buffer bits out with
  | nil => simp [base64Front_nil] at h
  | cons c rest ih =>
      by_cases hpad : c = 0x3d
      · subst hpad
        simp [base64Front_pad] at h
      by_cases hspace : isSpace c = true
      · rw [base64Front_space rest hspace] at h
        rw [base64Loop, if_neg hpad, if_pos hspace]
        exact ih h
      have hspace : isSpace c = false := by simpa using hspace
      rw [base64Front_char rest hpad hspace] at h
      simp only [base64Loop, if_neg hpad, hspace, Bool.false_eq_true, if_false]
      cases hvalue : base64Value c with
      | none => simp
      | some value =>
          have hrest : ∃ c ∈ base64Front rest, base64Value c = none := by
            obtain ⟨bad, hmem, hbad⟩ := h
            cases List.mem_cons.mp hmem with
            | inl hhead =>
                rw [hhead, hvalue] at hbad
                cases hbad
            | inr htail => exact ⟨bad, htail, hbad⟩
          dsimp only
          split
          · exact ih hrest
          · exact ih hrest

theorem length_base64Encode (data : Bytes) :
    (base64Encode data).length = 4 * ((data.length + 2) / 3) := by
  induction data using base64Encode.induct with
  | case1 a b c rest ih =>
      simp only [base64Encode, List.length_cons, ih]
      omega
  | case2 a b => simp [base64Encode]
  | case3 a => simp [base64Encode]
  | case4 => simp [base64Encode]

/-! ## What is accepted -/

/-- What is decoded has a value for each character of its front. -/
theorem values_of_base64Decode {text out : Bytes} (h : base64Decode text = .ok out) :
    ∀ c ∈ base64Front text, ∃ value, base64Value c = some value := by
  intro c hc
  apply Option.ne_none_iff_exists'.mp
  intro hnone
  exact base64Loop_error ⟨c, hc, hnone⟩ out h

/-- It is a byte for each eight bits of them. -/
theorem length_of_base64Decode {text out : Bytes} (h : base64Decode text = .ok out) :
    out.length = 6 * (base64Front text).length / 8 := by
  obtain ⟨written, hrun, hlength⟩ :=
    @base64Loop_ok text 0 0 [] (by decide) (values_of_base64Decode h)
  have heq := h.symm.trans hrun
  have hout : out = written := by simpa using heq
  rw [hout, hlength, Nat.zero_add]

theorem canonical_whole {text out : Bytes} (h : Canonical text out) :
    (base64Front text).length % 4 ≠ 1 ∧
      base64Back text =
        List.replicate ((4 - (base64Front text).length % 4) % 4) 0x3d := by
  obtain ⟨body, pad, htext, hbody, hpad, hmod, -⟩ := h.groups
  obtain ⟨hfront, hback⟩ := base64Front_of_groups htext hbody
  rw [hfront, hback]
  constructor
  · omega
  · congr 1
    omega

theorem canonical_of_whole {text out : Bytes} (h : base64Decode text = .ok out)
    (hmod : (base64Front text).length % 4 ≠ 1)
    (hback : base64Back text =
      List.replicate ((4 - (base64Front text).length % 4) % 4) 0x3d) :
    Canonical text out := by
  have hlength := length_of_base64Decode h
  have htext := base64Front_append_back text
  rw [hback] at htext
  constructor
  · refine ⟨base64Front text, _, htext.symm, values_of_base64Decode h, ?_, ?_, ?_⟩
    · omega
    · omega
    · omega
  · rw [length_base64Encode, hlength, ← htext, List.length_append,
      List.length_replicate]
    generalize (base64Front text).length = n at *
    have hcases : n % 4 = 0 ∨ n % 4 = 2 ∨ n % 4 = 3 := by omega
    rcases hcases with h | h | h
    · rw [h]
      omega
    · rw [h]
      omega
    · rw [h]
      omega

/-- What is decoded of a text is canonical or the text is refused exactly when a
character of its front is outside the alphabet, or the padding behind the front is just
what makes its last group whole. Nothing looks at what follows the first `=`. -/
theorem base64Decode_canonical_iff (text : Bytes) :
    (∀ out, base64Decode text = .ok out → Canonical text out) ↔
      RefusedOrWhole text := by
  constructor
  · intro hcanonical
    by_cases hbad : ∃ c ∈ base64Front text, base64Value c = none
    · exact Or.inl hbad
    have hvalues : ∀ c ∈ base64Front text, ∃ value, base64Value c = some value := by
      intro c hc
      apply Option.ne_none_iff_exists'.mp
      exact fun hnone => hbad ⟨c, hc, hnone⟩
    obtain ⟨out, hrun, -⟩ :=
      @base64Loop_ok text 0 0 [] (by decide) hvalues
    exact Or.inr (canonical_whole (hcanonical _ hrun))
  · intro h out hrun
    have hwhole := h.resolve_left (fun hbad => base64Loop_error hbad out hrun)
    exact canonical_of_whole hrun hwhole.1 hwhole.2

/-- Four characters and a fifth are read as three bytes. -/
theorem base64_cut_short_accepted :
    ¬ ∀ text out, base64Decode text = .ok out → Canonical text out := by
  intro h
  have hcanonical := h (ascii "QUJDR") (ascii "ABC") (by decide +kernel)
  have hlength := hcanonical.length
  revert hlength
  decide +kernel

/-! ## White space in an encoding -/

/-- `spaced` is `text` with white space put in, anywhere and any amount of it: before
the text, behind it, and between any two of its characters. -/
inductive Spaced : Bytes → Bytes → Prop
  | nil : Spaced [] []
  | char (c : UInt8) {text spaced : Bytes} (h : Spaced text spaced) :
      Spaced (c :: text) (c :: spaced)
  | space {c : UInt8} {text spaced : Bytes} (hspace : isSpace c = true)
      (h : Spaced text spaced) : Spaced text (c :: spaced)

/-- Every text is what is left of it with its white space put in. -/
theorem spaced_withoutSpace (text : Bytes) : Spaced (withoutSpace text) text := by
  induction text with
  | nil => exact .nil
  | cons c rest ih =>
      by_cases hspace : isSpace c = true
      · have hleft : withoutSpace (c :: rest) = withoutSpace rest := by
          simp [withoutSpace, hspace]
        rw [hleft]
        exact .space hspace ih
      · have hleft : withoutSpace (c :: rest) = c :: withoutSpace rest := by
          simp [withoutSpace, hspace]
        rw [hleft]
        exact .char c ih

/-- The loop does with a text what it does without the white space, whatever is left
in its buffer. -/
theorem base64Loop_spaced {text spaced : Bytes} (h : Spaced text spaced)
    (buffer bits : Nat) (out : Bytes) :
    base64Loop buffer bits out spaced = base64Loop buffer bits out text := by
  induction h generalizing buffer bits out with
  | nil => rfl
  | char c h ih =>
      rw [base64Loop, base64Loop]
      simp only [ih]
  | @space c text spaced hspace h ih =>
      have hpad : c ≠ 0x3d := by
        rintro rfl
        revert hspace
        decide
      rw [base64Loop, if_neg hpad, if_pos hspace]
      exact ih buffer bits out

/-- Data is decoded from its encoding with white space put in, wherever that stands and
however much it is: between the characters, before them, and around the padding. -/
theorem base64Decode_spaced {data text : Bytes} (h : Spaced (base64Encode data) text) :
    base64Decode text = .ok data := by
  calc base64Decode text
      = base64Decode (base64Encode data) := base64Loop_spaced h 0 0 []
    _ = .ok data := base64Decode_encode data

theorem base64Decode_spaced_lines :
    base64Decode (ascii " Q\tUJ\nDR A = \n=\n") = .ok (ascii "ABCD") :=
  base64Decode_spaced (by
    have henc : base64Encode (ascii "ABCD") =
        withoutSpace (ascii " Q\tUJ\nDR A = \n=\n") := by
      decide +kernel
    rw [henc]
    exact spaced_withoutSpace _)

end Ioscpp.Protocol.Plist
