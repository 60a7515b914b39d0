import Ioscpp.Support.Checked

/-!
# A bounds-checked cursor

A codec for a length-prefixed format decodes with a cursor: a buffer, an offset
into it, and reads that fail when too few bytes remain.  The cursor here is a
state monad over `Checked`, so a decoder is written as a `do` block that follows
its source line by line.

Four families of rules carry the proofs about such decoders.

* `Reads A p enc a` — wherever the bytes `enc` stand in a buffer at an offset
  satisfying `A`, the decoder `p` returns `a` and stops right after them.  The
  rules compose along `>>=`, so a round trip is proved by walking the encoder
  and the decoder together.  The predicate `A` carries what a decoder assumes of
  its absolute offset, such as alignment.
* `Local p` — `p` looks at nothing before its offset: running it at an offset is
  running it on the rest of the buffer.  It also says that the cursor stays
  inside its buffer.
* `Stable p` — a run of `p` that succeeds is not changed by bytes appended to
  the buffer.
* `Ensures Q p` — from inside its buffer, `p` ends inside it with a value of
  which `Q` holds, or fails with an error of its own.

## Main results

- `Reads.bind`: what a second step reads stands right after what the first one read.
- `reads_word`, `reads_wordBe`, `reads_take`: the words and the views.
- `Stable.eq_of_append`, `Ensures.bind`: steps that leave no bytes, and steps that say
  where they end.
-/

namespace Ioscpp.Support

/-- A buffer and an offset into it. -/
structure Cursor where
  bytes : Bytes
  offset : Nat
  deriving DecidableEq, Repr

/-- Whether `count` bytes remain. -/
def Cursor.has (reader : Cursor) (count : Nat) : Bool :=
  count ≤ reader.bytes.length - reader.offset

/-- The offset is in the buffer, or at its end. -/
def Cursor.Inside (reader : Cursor) : Prop :=
  reader.offset ≤ reader.bytes.length

/-- A decoding step: it moves the cursor and returns a value, or it faults. -/
abbrev Reading (ε : Type) := StateT Cursor (Checked ε)

namespace Reading

variable {ε α β : Type}

/-- Ends the decoding with an error. -/
def fail (e : ε) : Reading ε α := fun _ => .error (.error e)

/-- A checked computation that leaves the cursor alone. -/
def lift (x : Checked ε α) : Reading ε α := fun reader =>
  x >>= fun a => .ok (a, reader)

/-- Reads a little-endian word of `size` bytes, or fails with `truncated`. -/
def word (truncated : ε) (size : Nat) : Reading ε Nat := fun reader =>
  if reader.has size then
    readLe reader.bytes reader.offset size >>= fun value =>
      .ok (value, { reader with offset := reader.offset + size })
  else
    .error (.error truncated)

/-- Reads a big-endian word of `size` bytes into a 64-bit accumulator, or fails
with `truncated`. -/
def wordBe (truncated : ε) (size : Nat) : Reading ε Nat := fun reader =>
  if reader.has size then
    readBe reader.bytes reader.offset size >>= fun value =>
      .ok (value, { reader with offset := reader.offset + size })
  else
    .error (.error truncated)

/-- Takes the next `count` bytes, or fails with `truncated`. -/
def take (truncated : ε) (count : Nat) : Reading ε Bytes := fun reader =>
  if reader.has count then
    slice reader.bytes reader.offset count >>= fun view =>
      .ok (view, { reader with offset := reader.offset + count })
  else
    .error (.error truncated)

/-- Skips to the next multiple of `alignment`, or fails with `truncated`. -/
def skipPadding (truncated : ε) (alignment : Nat) : Reading ε Unit :=
  fun reader =>
    let remainder := reader.offset % alignment
    if remainder = 0 then
      .ok ((), reader)
    else if reader.has (alignment - remainder) then
      .ok ((), { reader with offset := reader.offset + (alignment - remainder) })
    else
      .error (.error truncated)

/-! ## Running a step -/

theorem bind_apply (p : Reading ε α) (f : α → Reading ε β) (reader : Cursor) :
    (p >>= f) reader = p reader >>= fun x => f x.1 x.2 := rfl

theorem get_bind_apply (f : Cursor → Reading ε β) (reader : Cursor) :
    ((get : Reading ε Cursor) >>= f) reader = f reader reader := rfl

@[simp] theorem pure_apply (a : α) (reader : Cursor) :
    (pure a : Reading ε α) reader = .ok (a, reader) := rfl

@[simp] theorem fail_apply (e : ε) (reader : Cursor) :
    (fail e : Reading ε α) reader = .error (.error e) := rfl

@[simp] theorem lift_ok_apply (a : α) (reader : Cursor) :
    (lift (.ok a : Checked ε α)) reader = .ok (a, reader) := rfl

@[simp] theorem lift_error_apply (e : Fault ε) (reader : Cursor) :
    (lift (.error e : Checked ε α)) reader = .error e := rfl

/-- A word read with enough bytes left returns the value of those bytes. -/
theorem word_of_le {truncated : ε} {size : Nat} (reader : Cursor)
    (h : reader.offset + size ≤ reader.bytes.length) :
    word truncated size reader =
      .ok (leValue ((reader.bytes.drop reader.offset).take size),
        { reader with offset := reader.offset + size }) := by
  have hhas : reader.has size = true := by
    simp only [Cursor.has, decide_eq_true_eq]
    omega
  rw [word, if_pos hhas, readLe_eq h, ok_bind]

/-- A big-endian word read with enough bytes left returns their value, reduced
to the accumulator's 64 bits. -/
theorem wordBe_of_le {truncated : ε} {size : Nat} (reader : Cursor)
    (h : reader.offset + size ≤ reader.bytes.length) :
    wordBe truncated size reader =
      .ok (beValue ((reader.bytes.drop reader.offset).take size) % 2 ^ 64,
        { reader with offset := reader.offset + size }) := by
  have hhas : reader.has size = true := by
    simp only [Cursor.has, decide_eq_true_eq]
    omega
  rw [wordBe, if_pos hhas, readBe_eq h, ok_bind]

/-- A big-endian word read either has its bytes or fails with `truncated`. -/
theorem wordBe_eq_ite {truncated : ε} {size : Nat} {reader : Cursor}
    (h : reader.offset ≤ reader.bytes.length) :
    wordBe truncated size reader =
      if reader.offset + size ≤ reader.bytes.length then
        .ok (beValue ((reader.bytes.drop reader.offset).take size) % 2 ^ 64,
          { reader with offset := reader.offset + size })
      else .error (.error truncated) := by
  split
  · exact wordBe_of_le _ ‹_›
  · have hhas : reader.has size = false := by
      simp only [Cursor.has, decide_eq_false_iff_not]
      omega
    simp [wordBe, hhas]

/-- Taking bytes that are there returns them. -/
theorem take_of_le {truncated : ε} {count : Nat} (reader : Cursor)
    (h : reader.offset + count ≤ reader.bytes.length) :
    take truncated count reader =
      .ok ((reader.bytes.drop reader.offset).take count,
        { reader with offset := reader.offset + count }) := by
  have hhas : reader.has count = true := by
    simp only [Cursor.has, decide_eq_true_eq]
    omega
  rw [take, if_pos hhas, slice_of_le h, ok_bind]

theorem word_of_lt {truncated : ε} {size : Nat} (reader : Cursor)
    (h : reader.bytes.length < reader.offset + size) (hs : 0 < size) :
    word truncated size reader = .error (.error truncated) := by
  have hhas : reader.has size = false := by
    simp only [Cursor.has, decide_eq_false_iff_not]
    omega
  simp [word, hhas]

theorem take_of_lt {truncated : ε} {count : Nat} (reader : Cursor)
    (h : reader.bytes.length < reader.offset + count) (hs : 0 < count) :
    take truncated count reader = .error (.error truncated) := by
  have hhas : reader.has count = false := by
    simp only [Cursor.has, decide_eq_false_iff_not]
    omega
  simp [take, hhas]

/-- A word read that succeeds had its bytes, and returned their value. -/
theorem word_eq_ok {truncated : ε} {size : Nat} {reader last : Cursor}
    {value : Nat} (hs : 0 < size)
    (h : word truncated size reader = .ok (value, last)) :
    reader.offset + size ≤ reader.bytes.length ∧
      value = leValue ((reader.bytes.drop reader.offset).take size) ∧
      last = { reader with offset := reader.offset + size } := by
  by_cases hle : reader.offset + size ≤ reader.bytes.length
  · rw [word_of_le _ hle] at h
    cases h
    exact ⟨hle, rfl, rfl⟩
  · rw [word_of_lt _ (by omega) hs] at h
    cases h

/-- A view that is taken was there. -/
theorem take_eq_ok {truncated : ε} {count : Nat} {reader last : Cursor}
    {view : Bytes} (h : take truncated count reader = .ok (view, last)) :
    reader.offset + count ≤ reader.bytes.length ∧
      view = (reader.bytes.drop reader.offset).take count ∧
      last = { reader with offset := reader.offset + count } := by
  by_cases hle : reader.offset + count ≤ reader.bytes.length
  · rw [take_of_le _ hle] at h
    cases h
    exact ⟨hle, rfl, rfl⟩
  · simp only [take, slice, if_neg hle] at h
    split at h <;> cases h

/-! ## Reading back an encoding -/

/-- Wherever `enc` stands in a buffer, at an offset satisfying `A`, the step `p`
returns `a` and stops right after `enc`. -/
def Reads (A : Nat → Prop) (p : Reading ε α) (enc : Bytes) (a : α) : Prop :=
  ∀ pre post : Bytes, A pre.length →
    p ⟨pre ++ enc ++ post, pre.length⟩ =
      .ok (a, ⟨pre ++ enc ++ post, pre.length + enc.length⟩)

section Reads

variable {A B : Nat → Prop}

theorem Reads.pure (a : α) : Reads A (Pure.pure a : Reading ε α) [] a := by
  intro pre post _
  simp

/-- Sequencing: what the second step reads stands right after what the first
one read, at an offset the first step moved. -/
theorem Reads.bind {p : Reading ε α} {f : α → Reading ε β} {xs ys : Bytes}
    {a : α} {b : β} (hp : Reads A p xs a) (hf : Reads B (f a) ys b)
    (hAB : ∀ n, A n → B (n + xs.length)) :
    Reads A (p >>= f) (xs ++ ys) b := by
  intro pre post hA
  have hfirst := hp pre (ys ++ post) hA
  have hB : B (pre ++ xs).length := by
    rw [List.length_append]
    exact hAB _ hA
  have hsecond := hf (pre ++ xs) post hB
  have hbuf : pre ++ (xs ++ ys) ++ post = pre ++ xs ++ (ys ++ post) := by simp
  have hbuf' : pre ++ xs ++ ys ++ post = pre ++ xs ++ (ys ++ post) := by simp
  rw [hbuf'] at hsecond
  rw [bind_apply, hbuf, hfirst, ok_bind]
  rw [List.length_append] at hsecond
  rw [hsecond, List.length_append, Nat.add_assoc]

theorem Reads.imp {p : Reading ε α} {enc : Bytes} {a : α}
    (h : Reads B p enc a) (hAB : ∀ n, A n → B n) : Reads A p enc a :=
  fun pre post hA => h pre post (hAB _ hA)

theorem reads_lift (a : α) : Reads A (lift (.ok a : Checked ε α)) [] a := by
  intro pre post _
  simp

/-- A word written little-endian reads back, when its value fits the width. -/
theorem reads_word {truncated : ε} {size : Nat} (value : Nat) (h : value < 256 ^ size) :
    Reads A (word truncated size) (leBytes size value) value := by
  intro pre post _
  have hle : pre.length + size ≤ (pre ++ leBytes size value ++ post).length := by
    simp
  have hdrop : ((pre ++ leBytes size value ++ post).drop pre.length).take size =
      leBytes size value := by
    rw [List.append_assoc, List.drop_left]
    exact List.take_left' (length_leBytes size value)
  rw [word_of_le _ hle, hdrop, leValue_leBytes_of_lt h, length_leBytes]

/-- A word written big-endian reads back, when its value fits the width and the
accumulator. -/
theorem reads_wordBe {truncated : ε} {size value : Nat}
    (h : value < 256 ^ size) (h64 : value < 2 ^ 64) :
    Reads A (wordBe truncated size) (beBytes size value) value := by
  intro pre post _
  have hle : pre.length + size ≤ (pre ++ beBytes size value ++ post).length := by
    simp
  have hdrop : ((pre ++ beBytes size value ++ post).drop pre.length).take size =
      beBytes size value := by
    rw [List.append_assoc, List.drop_left]
    exact List.take_left' (length_beBytes size value)
  rw [wordBe_of_le _ hle, hdrop, beValue_beBytes_of_lt h, length_beBytes,
    Nat.mod_eq_of_lt h64]

/-- The next bytes are taken as they stand. -/
theorem reads_take (truncated : ε) (view : Bytes) :
    Reads A (take truncated view.length) view view := by
  intro pre post _
  have hle : pre.length + view.length ≤ (pre ++ view ++ post).length := by simp
  have hdrop : ((pre ++ view ++ post).drop pre.length).take view.length = view := by
    rw [List.append_assoc, List.drop_left]
    exact List.take_left' rfl
  rw [take_of_le _ hle, hdrop]

/-- Padding up to the next multiple of the alignment is skipped. -/
theorem reads_skipPadding {truncated : ε} {alignment : Nat} (padding : Bytes)
    (hpos : 0 < alignment) (hpad : padding.length < alignment) :
    Reads (fun n => (n + padding.length) % alignment = 0)
      (skipPadding truncated alignment) padding () := by
  intro pre post hA
  have hdiv := Nat.div_add_mod pre.length alignment
  have hlt := Nat.mod_lt pre.length hpos
  -- the padding is what is missing to the next multiple
  have hmissing : pre.length % alignment = 0 ∧ padding.length = 0 ∨
      0 < pre.length % alignment ∧
        padding.length = alignment - pre.length % alignment := by
    have hsum : (pre.length % alignment + padding.length) % alignment = 0 := by
      simpa [Nat.add_mod] using hA
    obtain ⟨k, hk⟩ := Nat.dvd_of_mod_eq_zero hsum
    have hk2 : k < 2 := by
      by_contra hge
      have hmul : alignment * 2 ≤ alignment * k :=
        Nat.mul_le_mul_left _ (by omega)
      omega
    interval_cases k
    · omega
    · omega
  rcases hmissing with ⟨hzero, hnil⟩ | ⟨hposr, hlen⟩
  · simp [skipPadding, hzero, hnil]
  · have hhas : (Cursor.mk (pre ++ padding ++ post) pre.length).has
        (alignment - pre.length % alignment) = true := by
      simp only [Cursor.has, List.length_append, decide_eq_true_eq]
      omega
    simp only [skipPadding, if_neg (Nat.ne_of_gt hposr), hhas, if_true]
    rw [hlen]

/-- A check on the cursor that the encoding passes is transparent. -/
theorem Reads.check {p : Reading ε α} {enc : Bytes} {a : α} {refused : Cursor → Prop}
    [DecidablePred refused] {e : ε} (h : Reads A p enc a)
    (hpass : ∀ pre post : Bytes, A pre.length →
      ¬ refused ⟨pre ++ enc ++ post, pre.length⟩) :
    Reads A (do
      let reader ← get
      if refused reader then fail e else p) enc a := by
  intro pre post hA
  rw [get_bind_apply, if_neg (hpass pre post hA)]
  exact h pre post hA

end Reads

/-! ## Locality -/

/-- The step reads only what follows its offset, and leaves the cursor inside
the same buffer. -/
structure Local (p : Reading ε α) : Prop where
  /-- Running at an offset is running on the rest of the buffer. -/
  shift : ∀ (bytes : Bytes) (offset : Nat), offset ≤ bytes.length →
    p ⟨bytes, offset⟩ =
      p ⟨bytes.drop offset, 0⟩ >>= fun x =>
        .ok (x.1, ⟨bytes, offset + x.2.offset⟩)
  /-- The cursor stays in its buffer. -/
  inside : ∀ (bytes : Bytes) (a : α) (reader : Cursor),
    p ⟨bytes, 0⟩ = .ok (a, reader) →
      reader.bytes = bytes ∧ reader.offset ≤ bytes.length

section Local

theorem local_pure (a : α) : Local (Pure.pure a : Reading ε α) where
  shift := by
    intro bytes offset _
    simp
  inside := by
    rintro bytes b reader h
    cases h
    exact ⟨rfl, Nat.zero_le _⟩

theorem local_fail (e : ε) : Local (fail e : Reading ε α) where
  shift := by
    intro bytes offset _
    simp
  inside := by
    rintro bytes b reader h
    cases h

theorem local_lift (x : Checked ε α) : Local (lift x) where
  shift := by
    intro bytes offset _
    cases x <;> simp
  inside := by
    rintro bytes b reader h
    cases x with
    | ok a =>
        cases h
        exact ⟨rfl, Nat.zero_le _⟩
    | error e => cases h

theorem local_word (truncated : ε) (size : Nat) :
    Local (word truncated size) where
  shift := by
    intro bytes offset hoff
    by_cases hle : offset + size ≤ bytes.length
    · have hrest : 0 + size ≤ (bytes.drop offset).length := by
        rw [List.length_drop]
        omega
      rw [word_of_le ⟨bytes, offset⟩ hle,
        word_of_le ⟨bytes.drop offset, 0⟩ hrest]
      simp
    · have hrest : (bytes.drop offset).length < 0 + size := by
        rw [List.length_drop]
        omega
      rw [word_of_lt ⟨bytes, offset⟩ (by simpa using hle) (by omega),
        word_of_lt ⟨bytes.drop offset, 0⟩ hrest (by omega)]
      rfl
  inside := by
    intro bytes a reader h
    by_cases hle : 0 + size ≤ bytes.length
    · rw [word_of_le ⟨bytes, 0⟩ hle] at h
      cases h
      exact ⟨rfl, hle⟩
    · rw [word_of_lt ⟨bytes, 0⟩ (by simpa using hle) (by omega)] at h
      cases h

theorem local_take (truncated : ε) (count : Nat) :
    Local (take truncated count) where
  shift := by
    intro bytes offset hoff
    by_cases hle : offset + count ≤ bytes.length
    · have hrest : 0 + count ≤ (bytes.drop offset).length := by
        rw [List.length_drop]
        omega
      rw [take_of_le ⟨bytes, offset⟩ hle,
        take_of_le ⟨bytes.drop offset, 0⟩ hrest]
      simp
    · have hrest : (bytes.drop offset).length < 0 + count := by
        rw [List.length_drop]
        omega
      rw [take_of_lt ⟨bytes, offset⟩ (by simpa using hle) (by omega),
        take_of_lt ⟨bytes.drop offset, 0⟩ hrest (by omega)]
      rfl
  inside := by
    intro bytes a reader h
    by_cases hle : 0 + count ≤ bytes.length
    · rw [take_of_le ⟨bytes, 0⟩ hle] at h
      cases h
      exact ⟨rfl, hle⟩
    · rw [take_of_lt ⟨bytes, 0⟩ (by simpa using hle) (by omega)] at h
      cases h

theorem Local.bind {p : Reading ε α} {f : α → Reading ε β}
    (hp : Local p) (hf : ∀ a, Local (f a)) : Local (p >>= f) where
  shift := by
    intro bytes offset hoff
    rw [bind_apply, bind_apply, hp.shift bytes offset hoff]
    cases hrun : p ⟨bytes.drop offset, 0⟩ with
    | error e => simp
    | ok x =>
        obtain ⟨a, reader⟩ := x
        obtain ⟨hbytes, hinside⟩ := hp.inside _ _ _ hrun
        have hinside' : reader.offset ≤ bytes.length - offset := by
          rwa [List.length_drop] at hinside
        have hreader : reader = ⟨bytes.drop offset, reader.offset⟩ := by
          cases reader
          simp only at hbytes
          rw [hbytes]
        simp only [ok_bind]
        rw [(hf a).shift bytes (offset + reader.offset) (by omega), hreader,
          (hf a).shift (bytes.drop offset) reader.offset hinside,
          List.drop_drop]
        cases f a ⟨bytes.drop (offset + reader.offset), 0⟩ with
        | error e => simp
        | ok y => simp [Nat.add_assoc]
  inside := by
    intro bytes b reader h
    rw [bind_apply] at h
    obtain ⟨⟨a, middle⟩, hfirst, hsecond⟩ := bind_eq_ok.mp h
    obtain ⟨hbytes, hinside⟩ := hp.inside _ _ _ hfirst
    have hmiddle : middle = ⟨bytes, middle.offset⟩ := by
      cases middle
      simp only at hbytes
      rw [hbytes]
    simp only at hsecond
    rw [hmiddle, (hf a).shift bytes middle.offset hinside] at hsecond
    obtain ⟨⟨b', last⟩, hrest, hlast⟩ := bind_eq_ok.mp hsecond
    obtain ⟨hlb, hli⟩ := (hf a).inside _ _ _ hrest
    cases hlast
    rw [List.length_drop] at hli
    exact ⟨rfl, by simp only; omega⟩

end Local

/-! ## Stability -/

/-- A run that succeeds keeps its buffer, and succeeds in the same way on every
longer buffer. -/
structure Stable (p : Reading ε α) : Prop where
  keeps : ∀ (reader last : Cursor) (a : α),
    p reader = .ok (a, last) → last.bytes = reader.bytes
  extend : ∀ (bytes more : Bytes) (offset : Nat) (a : α) (last : Cursor),
    p ⟨bytes, offset⟩ = .ok (a, last) →
      p ⟨bytes ++ more, offset⟩ = .ok (a, ⟨bytes ++ more, last.offset⟩)

section Stable

theorem stable_pure (a : α) : Stable (Pure.pure a : Reading ε α) where
  keeps := by
    rintro reader last b h
    cases h
    rfl
  extend := by
    rintro bytes more offset b last h
    cases h
    rfl

theorem stable_fail (e : ε) : Stable (fail e : Reading ε α) where
  keeps := by
    rintro reader last b h
    cases h
  extend := by
    rintro bytes more offset b last h
    cases h

theorem stable_lift (x : Checked ε α) : Stable (lift x) where
  keeps := by
    rintro reader last b h
    cases x with
    | ok a =>
        cases h
        rfl
    | error e => cases h
  extend := by
    rintro bytes more offset b last h
    cases x with
    | ok a =>
        cases h
        rfl
    | error e => cases h

theorem stable_word (truncated : ε) (size : Nat) (hs : 0 < size) :
    Stable (word truncated size) where
  keeps := by
    intro reader last a h
    obtain ⟨-, -, rfl⟩ := word_eq_ok hs h
    rfl
  extend := by
    intro bytes more offset a last h
    obtain ⟨hle, rfl, rfl⟩ := word_eq_ok hs h
    simp only at hle
    have hle' : offset + size ≤ (bytes ++ more).length := by
      rw [List.length_append]
      omega
    have htake : ((bytes ++ more).drop offset).take size =
        (bytes.drop offset).take size := by
      rw [List.drop_append_of_le_length (by omega),
        List.take_append_of_le_length (by rw [List.length_drop]; omega)]
    rw [word_of_le ⟨bytes ++ more, offset⟩ hle', htake]

theorem stable_take (truncated : ε) (count : Nat) :
    Stable (take truncated count) where
  keeps := by
    intro reader last a h
    obtain ⟨-, -, rfl⟩ := take_eq_ok h
    rfl
  extend := by
    intro bytes more offset a last h
    obtain ⟨hle, rfl, rfl⟩ := take_eq_ok h
    simp only at hle
    have hle' : offset + count ≤ (bytes ++ more).length := by
      rw [List.length_append]
      omega
    have htake : ((bytes ++ more).drop offset).take count =
        (bytes.drop offset).take count := by
      rw [List.drop_append_of_le_length (by omega),
        List.take_append_of_le_length (by rw [List.length_drop]; omega)]
    rw [take_of_le ⟨bytes ++ more, offset⟩ hle', htake]

theorem Stable.bind {p : Reading ε α} {f : α → Reading ε β}
    (hp : Stable p) (hf : ∀ a, Stable (f a)) : Stable (p >>= f) where
  keeps := by
    intro reader last b h
    obtain ⟨⟨a, middle⟩, hfirst, hsecond⟩ := bind_eq_ok.mp h
    rw [(hf a).keeps _ _ _ hsecond, hp.keeps _ _ _ hfirst]
  extend := by
    intro bytes more offset b last h
    obtain ⟨⟨a, middle⟩, hfirst, hsecond⟩ := bind_eq_ok.mp h
    have hmiddle : middle = ⟨bytes, middle.offset⟩ := by
      have hkeeps := hp.keeps _ _ _ hfirst
      cases middle
      simp only at hkeeps
      rw [hkeeps]
    simp only at hsecond
    rw [hmiddle] at hsecond
    rw [bind_apply, hp.extend _ more _ _ _ hfirst, ok_bind]
    exact (hf a).extend _ more _ _ _ hsecond

/-- A step that consumes its whole buffer succeeds on no shorter prefix of it
that it would also consume whole. -/
theorem Stable.eq_of_append {p : Reading ε α} (hp : Stable p)
    {bytes more : Bytes} {a a' : α} {reader reader' : Cursor}
    (h : p ⟨bytes, 0⟩ = .ok (a, reader)) (hend : reader.offset = bytes.length)
    (h' : p ⟨bytes ++ more, 0⟩ = .ok (a', reader'))
    (hend' : reader'.offset = (bytes ++ more).length) : more = [] := by
  have hext := hp.extend bytes more 0 a reader h
  rw [hext] at h'
  cases h'
  simp only [List.length_append] at hend'
  exact List.eq_nil_of_length_eq_zero (by omega)

end Stable

/-! ## Safety -/

/-- A run on `bytes` that ends inside the buffer with a value of which `Q` holds,
or with an error of the decoder's own: it neither reads outside the buffer nor
runs out of fuel. -/
def Outcome (Q : α → Cursor → Prop) (bytes : Bytes)
    (x : Checked ε (α × Cursor)) : Prop :=
  (∃ a last, x = .ok (a, last) ∧ last.bytes = bytes ∧ last.Inside ∧ Q a last) ∨
    ∃ e, x = .error (.error e)

/-- From inside a buffer, the step has such an outcome. -/
def Ensures (Q : α → Cursor → Prop) (p : Reading ε α) : Prop :=
  ∀ reader : Cursor, reader.Inside → Outcome Q reader.bytes (p reader)

/-- The step is safe, whatever its value. -/
abbrev Safe (p : Reading ε α) : Prop := Ensures (fun _ _ => True) p

section Safety

variable {P Q : α → Cursor → Prop} {R : β → Cursor → Prop}

theorem Outcome.imp {bytes : Bytes} {x : Checked ε (α × Cursor)}
    (h : Outcome P bytes x)
    (hPQ : ∀ a last, last.Inside → P a last → Q a last) : Outcome Q bytes x := by
  rcases h with ⟨a, last, hx, hbytes, hinside, hP⟩ | herror
  · exact .inl ⟨a, last, hx, hbytes, hinside, hPQ a last hinside hP⟩
  · exact .inr herror

theorem Ensures.pure {a : α} (h : ∀ reader, Q a reader) :
    Ensures Q (Pure.pure a : Reading ε α) := fun reader hinside =>
  .inl ⟨a, reader, rfl, rfl, hinside, h reader⟩

theorem ensures_fail (e : ε) : Ensures Q (fail e : Reading ε α) :=
  fun _ _ => .inr ⟨e, rfl⟩

theorem Ensures.ite {c : Prop} [Decidable c] {p q : Reading ε α}
    (hp : Ensures Q p) (hq : Ensures Q q) :
    Ensures Q (if c then p else q) := by
  split
  · exact hp
  · exact hq

/-- Sequencing: the second step starts where the first one ended. -/
theorem Ensures.bind {p : Reading ε α} {f : α → Reading ε β}
    (hp : Ensures P p)
    (hf : ∀ a (reader : Cursor), reader.Inside → P a reader →
      Outcome R reader.bytes (f a reader)) : Ensures R (p >>= f) := by
  intro reader hinside
  rw [bind_apply]
  rcases hp reader hinside with ⟨a, last, hx, hbytes, hlast, hP⟩ | ⟨e, he⟩
  · rw [hx, ok_bind, ← hbytes]
    exact hf a last hlast hP
  · rw [he]
    exact .inr ⟨e, rfl⟩

/-- Sequencing, when the second step needs to know nothing of the first. -/
theorem Ensures.andThen {p : Reading ε α} {f : α → Reading ε β}
    (hp : Ensures P p) (hf : ∀ a, Ensures R (f a)) : Ensures R (p >>= f) :=
  hp.bind fun a reader hinside _ => hf a reader hinside

theorem safe_wordBe (truncated : ε) (size : Nat) :
    Safe (wordBe truncated size) := by
  intro reader hinside
  rw [wordBe_eq_ite hinside]
  split
  · exact .inl ⟨_, _, rfl, rfl, ‹_›, trivial⟩
  · exact .inr ⟨_, rfl⟩

theorem safe_take (truncated : ε) (count : Nat) :
    Safe (take truncated count) := by
  intro reader hinside
  by_cases hle : reader.offset + count ≤ reader.bytes.length
  · exact .inl ⟨_, _, take_of_le _ hle, rfl, hle, trivial⟩
  · have hpos : 0 < count := by
      unfold Cursor.Inside at hinside
      omega
    exact .inr ⟨_, take_of_lt _ (by omega) hpos⟩

end Safety

end Reading

end Ioscpp.Support
