import Ioscpp.Support.Cursor

/-!
# Computations that end in a value or an error

`Settled` says of a checked computation that it ends with a value or with an
error of its own: it reads nothing outside its buffer, nothing in it throws, and
its steps suffice.  `Settles room p` says it of a decoding step, from inside a
buffer with at most `room` bytes left, and that the step moves the cursor
forward.  A step that takes bytes leaves less room for the rest, so a decoder
whose fuel is counted in bytes settles by induction on its fuel.  `Shortens` says it
of a parser that takes its text from the front.

## Main results

- `Settles.bind`: sequencing: the first step leaves no more room than there was.
- `Settles.word_bind`, `Settles.take_bind`: what a word and a view leave.
- `Shortens.bind`: the same for parsers of texts.
-/

namespace Ioscpp.Support

variable {ε α β : Type}

/-! ## Computations -/

/-- The computation ends with a value or with an error of its own. -/
def Settled (x : Checked ε α) : Prop :=
  (∃ a, x = .ok a) ∨ ∃ e, x = .error (.error e)

theorem settled_ok (a : α) : Settled (.ok a : Checked ε α) := .inl ⟨a, rfl⟩

theorem settled_error (e : ε) : Settled (.error (.error e) : Checked ε α) :=
  .inr ⟨e, rfl⟩

theorem Settled.bind {x : Checked ε α} {f : α → Checked ε β} (hx : Settled x)
    (hf : ∀ a, x = .ok a → Settled (f a)) : Settled (x >>= f) := by
  rcases hx with ⟨a, rfl⟩ | ⟨e, rfl⟩
  · exact hf a rfl
  · exact settled_error e

theorem Settled.ite {c : Prop} [Decidable c] {x y : Checked ε α}
    (hx : Settled x) (hy : Settled y) : Settled (if c then x else y) := by
  split
  · exact hx
  · exact hy

theorem settled_mapM {f : α → Checked ε β} (h : ∀ a, Settled (f a))
    (items : List α) : Settled (items.mapM f) := by
  induction items with
  | nil => exact settled_ok []
  | cons item rest ih =>
      rw [List.mapM_cons]
      apply (h item).bind
      intro a _
      apply ih.bind
      intro others _
      exact settled_ok (a :: others)

/-- A computation that settles does not throw. -/
theorem Settled.ne_exception {x : Checked ε α} (h : Settled x) :
    x ≠ .error .exception := by
  intro hx
  rcases h with ⟨a, h⟩ | ⟨e, h⟩
  · rw [h] at hx
    cases hx
  · rw [h] at hx
    cases hx

namespace Reading

/-! ## Decoding steps -/

/-- The step ends further on in the buffer, or with an error of its own. -/
def Advances (reader : Cursor) (x : Checked ε (α × Cursor)) : Prop :=
  (∃ a last, x = .ok (a, last) ∧ last.bytes = reader.bytes ∧ last.Inside ∧
    reader.offset ≤ last.offset) ∨ ∃ e, x = .error (.error e)

/-- From inside a buffer with at most `room` bytes left, the step does. -/
def Settles (room : Nat) (p : Reading ε α) : Prop :=
  ∀ reader : Cursor, reader.Inside → reader.bytes.length ≤ reader.offset + room →
    Advances reader (p reader)

variable {room : Nat}

theorem Advances.settled {reader : Cursor} {x : Checked ε (α × Cursor)}
    (h : Advances reader x) : Settled x := by
  rcases h with ⟨a, last, rfl, -⟩ | ⟨e, rfl⟩
  · exact settled_ok _
  · exact settled_error e

theorem Settles.mono {p : Reading ε α} (h : Settles room p) {less : Nat}
    (hle : less ≤ room) : Settles less p := by
  intro reader hinside hroom
  exact h reader hinside (by omega)

theorem settles_pure (a : α) : Settles room (pure a : Reading ε α) :=
  fun reader hinside _ => .inl ⟨a, reader, rfl, rfl, hinside, le_rfl⟩

theorem settles_fail (e : ε) : Settles room (fail e : Reading ε α) :=
  fun _ _ _ => .inr ⟨e, rfl⟩

theorem settles_lift {x : Checked ε α} (h : Settled x) :
    Settles room (lift x) := by
  intro reader hinside _
  rcases h with ⟨a, rfl⟩ | ⟨e, rfl⟩
  · exact .inl ⟨a, reader, rfl, rfl, hinside, le_rfl⟩
  · exact .inr ⟨e, rfl⟩

theorem Settles.ite {c : Prop} [Decidable c] {p q : Reading ε α}
    (hp : Settles room p) (hq : Settles room q) :
    Settles room (if c then p else q) := by
  split
  · exact hp
  · exact hq

/-- A step that ends further on, and a rest that goes on from there. -/
theorem Advances.bind {reader : Cursor} {p : Reading ε α} {f : α → Reading ε β}
    (hp : Advances reader (p reader))
    (hf : ∀ a last, p reader = .ok (a, last) → last.bytes = reader.bytes →
      last.Inside → reader.offset ≤ last.offset → Advances last (f a last)) :
    Advances reader ((p >>= f) reader) := by
  rw [bind_apply]
  rcases hp with ⟨a, last, hrun, hbytes, hinside, hle⟩ | ⟨e, hrun⟩
  · rw [hrun, ok_bind]
    rcases hf a last hrun hbytes hinside hle with
      ⟨b, final, hrun', hbytes', hinside', hle'⟩ | ⟨e, hrun'⟩
    · exact .inl ⟨b, final, hrun', hbytes'.trans hbytes, hinside',
        hle.trans hle'⟩
    · exact .inr ⟨e, hrun'⟩
  · rw [hrun]
    exact .inr ⟨e, rfl⟩

/-- Sequencing: the first step leaves no more room than there was. -/
theorem Settles.bind {p : Reading ε α} {f : α → Reading ε β}
    (hp : Settles room p) (hf : ∀ a, Settles room (f a)) :
    Settles room (p >>= f) := by
  intro reader hinside hroom
  apply (hp reader hinside hroom).bind
  intro a last _ hbytes hlast hle
  apply hf a last hlast
  rw [hbytes]
  omega

/-- Reading the cursor: the rest knows the bytes that are left. -/
theorem Settles.get_bind {f : Cursor → Reading ε β}
    (hf : ∀ reader : Cursor, reader.bytes.length ≤ reader.offset + room →
      Settles (reader.bytes.length - reader.offset) (f reader)) :
    Settles room (get >>= f) := by
  intro reader hinside hroom
  have hrest := hf reader hroom reader hinside (by
    unfold Cursor.Inside at hinside
    omega)
  rw [get_bind_apply]
  exact hrest

/-- Taking bytes: what follows has that much less room. -/
theorem Settles.take_bind {truncated : ε} {count : Nat} {f : Bytes → Reading ε β}
    (hf : ∀ view : Bytes, view.length = count → ∀ less, less + count ≤ room →
      Settles less (f view)) :
    Settles room (take truncated count >>= f) := by
  intro reader hinside hroom
  by_cases hle : reader.offset + count ≤ reader.bytes.length
  · have hlength : ((reader.bytes.drop reader.offset).take count).length =
        count := by
      rw [List.length_take, List.length_drop]
      omega
    have hlast : Cursor.Inside { reader with offset := reader.offset + count } :=
      hle
    rw [bind_apply, take_of_le _ hle, ok_bind]
    rcases hf _ hlength (room - count) (by omega) _ hlast (by
      show reader.bytes.length ≤ reader.offset + count + (room - count)
      omega) with ⟨b, final, hrun, hbytes, hfinal, hnext⟩ | ⟨e, hrun⟩
    · refine .inl ⟨b, final, hrun, hbytes, hfinal, ?_⟩
      have hcount : reader.offset + count ≤ final.offset := hnext
      omega
    · exact .inr ⟨e, hrun⟩
  · have hpos : 0 < count := by
      unfold Cursor.Inside at hinside
      omega
    rw [bind_apply, take_of_lt _ (by omega) hpos]
    exact .inr ⟨truncated, rfl⟩

/-- Reading a word: what follows has that much less room. -/
theorem Settles.word_bind {truncated : ε} {size : Nat} {f : Nat → Reading ε β}
    (hsize : 0 < size)
    (hf : ∀ value less, less + size ≤ room → Settles less (f value)) :
    Settles room (word truncated size >>= f) := by
  intro reader hinside hroom
  by_cases hle : reader.offset + size ≤ reader.bytes.length
  · have hlast : Cursor.Inside { reader with offset := reader.offset + size } :=
      hle
    rw [bind_apply, word_of_le _ hle, ok_bind]
    rcases hf _ (room - size) (by omega) _ hlast (by
      show reader.bytes.length ≤ reader.offset + size + (room - size)
      omega) with ⟨b, final, hrun, hbytes, hfinal, hnext⟩ | ⟨e, hrun⟩
    · refine .inl ⟨b, final, hrun, hbytes, hfinal, ?_⟩
      have hcount : reader.offset + size ≤ final.offset := hnext
      omega
    · exact .inr ⟨e, hrun⟩
  · rw [bind_apply, word_of_lt _ (by omega) hsize]
    exact .inr ⟨truncated, rfl⟩

/-- A step that reads a word first ends behind the word. -/
theorem Settles.past_word {truncated : ε} {size : Nat} {f : Nat → Reading ε β}
    (hsize : 0 < size) (hf : ∀ value, Settles room (f value)) {reader : Cursor}
    (hroom : reader.bytes.length ≤ reader.offset + room) :
    (∃ b last, (word truncated size >>= f) reader = .ok (b, last) ∧
      last.bytes = reader.bytes ∧ last.Inside ∧ reader.offset + size ≤ last.offset) ∨
      ∃ e, (word truncated size >>= f) reader = .error (.error e) := by
  by_cases hle : reader.offset + size ≤ reader.bytes.length
  · have hlast : Cursor.Inside { reader with offset := reader.offset + size } :=
      hle
    rw [bind_apply, word_of_le _ hle, ok_bind]
    apply hf _ _ hlast
    show reader.bytes.length ≤ reader.offset + size + room
    omega
  · rw [bind_apply, word_of_lt _ (by omega) hsize]
    exact .inr ⟨truncated, rfl⟩

theorem settles_take (truncated : ε) (count : Nat) :
    Settles room (take truncated count) := by
  have hbind : Settles room (take truncated count >>= pure) :=
    Settles.take_bind fun _ _ _ _ => settles_pure _
  rw [bind_pure] at hbind
  exact hbind

theorem settles_word (truncated : ε) {size : Nat} (hsize : 0 < size) :
    Settles room (word truncated size) := by
  have hbind : Settles room (word truncated size >>= pure) :=
    Settles.word_bind hsize fun _ _ _ => settles_pure _
  rw [bind_pure] at hbind
  exact hbind

theorem settles_skipPadding (truncated : ε) (alignment : Nat) :
    Settles room (skipPadding truncated alignment) := by
  intro reader hinside _
  unfold skipPadding
  dsimp only
  split
  · exact .inl ⟨(), reader, rfl, rfl, hinside, le_rfl⟩
  · split
    · rename_i hhas
      refine .inl ⟨(), _, rfl, rfl, ?_, Nat.le_add_right _ _⟩
      unfold Cursor.Inside at hinside ⊢
      simp only [Cursor.has, decide_eq_true_eq] at hhas
      dsimp only
      omega
    · exact .inr ⟨truncated, rfl⟩

end Reading

/-! ## Parsers of a text -/

section Text

variable {p : StateT Bytes (Checked ε) α} {f : α → StateT Bytes (Checked ε) β}
  {text : Bytes} {least : Nat}

/-- The parser ends with so many bytes of the text fewer at least, or with an error
of its own. -/
def Shortens (least : Nat) (p : StateT Bytes (Checked ε) α) (text : Bytes) : Prop :=
  (∃ a rest, p text = .ok (a, rest) ∧ rest.length + least ≤ text.length) ∨
    ∃ e, p text = .error (.error e)

theorem Shortens.settled (h : Shortens least p text) : Settled (p text) := by
  rcases h with ⟨a, rest, hrun, -⟩ | ⟨e, hrun⟩
  · exact .inl ⟨_, hrun⟩
  · exact .inr ⟨e, hrun⟩

/-- A parser that goes on as another one, further on. -/
theorem Shortens.of_eq {q : StateT Bytes (Checked ε) α} {more : Bytes}
    (h : Shortens 0 q more) (heq : p text = q more) (hle : more.length ≤ text.length) :
    Shortens 0 p text := by
  rcases h with ⟨a, rest, hrun, hrest⟩ | ⟨e, hrun⟩
  · exact .inl ⟨a, rest, heq.trans hrun, hrest.trans hle⟩
  · exact .inr ⟨e, heq.trans hrun⟩

theorem shortens_pure (a : α) :
    Shortens 0 (pure a : StateT Bytes (Checked ε) α) text :=
  .inl ⟨a, text, rfl, le_rfl⟩

/-- A rest that ends on what the first parser leaves. -/
theorem Shortens.bind (hp : Shortens least p text)
    (hf : ∀ a rest, rest.length + least ≤ text.length → Shortens 0 (f a) rest) :
    Shortens 0 (p >>= f) text := by
  have happly : (p >>= f) text = p text >>= fun x => f x.1 x.2 := rfl
  rcases hp with ⟨a, rest, hrun, hle⟩ | ⟨e, hrun⟩
  · rcases hf a rest hle with ⟨b, last, hrun', hle'⟩ | ⟨e, hrun'⟩
    · refine .inl ⟨b, last, ?_, by omega⟩
      rw [happly, hrun]
      exact hrun'
    · refine .inr ⟨e, ?_⟩
      rw [happly, hrun]
      exact hrun'
  · refine .inr ⟨e, ?_⟩
    rw [happly, hrun]
    rfl

theorem Shortens.ite {c : Prop} [Decidable c] {p q : StateT Bytes (Checked ε) α}
    (hp : c → Shortens least p text) (hq : ¬ c → Shortens least q text) :
    Shortens least (if c then p else q) text := by
  split
  · rename_i h
    exact hp h
  · rename_i h
    exact hq h

end Text

end Ioscpp.Support
