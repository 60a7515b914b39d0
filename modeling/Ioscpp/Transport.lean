import Ioscpp.Error
import Ioscpp.Support.ActionTriple

/-!
# Transports

A `Transport` moves bytes: `read` returns up to the bytes asked for, none at the
end of the stream, and `write` takes the whole of its data or fails.  The layers
above it buffer what it returns until they hold enough; `fill` is that loop.

`ScriptedTransport` is a transport that answers from a script: the chunks and
the failures its reads give, and the failures of its writes.  A transport is
used by one caller at a time, so for every run over some transport there is a
script with the same answers.

## Main results

- `triple_read_ahead`: a read takes its chunk off the bytes ahead.
- `triple_fillLoop_ahead`: filling moves bytes that are ahead to the buffer, or fails
  and loses none.
-/

namespace Ioscpp

open Ioscpp.Support

/-- The operations of a byte channel to a device. -/
class Transport (τ : Type) where
  /-- Reads up to `count` bytes; none is the end of the stream. -/
  read : Nat → Action Error τ Bytes
  /-- Writes the whole of `data`, or fails. -/
  write : Bytes → Action Error τ Unit

/-! ## Buffering -/

/-- A transport and the bytes read from it that are not used yet. -/
abbrev Buffered (τ : Type) := τ × Bytes

namespace Buffered

variable {τ : Type} [Transport τ]

/-- Reads from the transport. -/
def read (count : Nat) : Action Error (Buffered τ) Bytes :=
  Action.zoom Prod.fst (fun state transport => (transport, state.2))
    (Transport.read count)

/-- The loop that reads chunks until the buffer holds `count` bytes.  Every chunk
has a byte at least, so `fuel` is what the buffer lacks. -/
def fillLoop (ended : Error) (chunkSize count : Nat) :
    Nat → Action Error (Buffered τ) Unit
  | 0 => do
      let state ← get
      if count ≤ state.2.length then return ()
      else Action.lift (.error .outOfFuel)
  | fuel + 1 => do
      let state ← get
      if count ≤ state.2.length then return ()
      else do
        let chunk ← read chunkSize
        if chunk = [] then Action.fail ended
        else do
          modify fun state => (state.1, state.2 ++ chunk)
          fillLoop ended chunkSize count fuel

/-- Reads until the buffer holds `count` bytes, or fails with `ended` when the
stream ends before. -/
def fill (ended : Error) (chunkSize count : Nat) :
    Action Error (Buffered τ) Unit := do
  let state ← get
  fillLoop ended chunkSize count (count - state.2.length)

end Buffered

/-! ## Scripts -/

/-- A transport as the answers it will give: a chunk or a failure for each read
(after the last, the stream has ended), and a failure or none for each write
(after the last, writes succeed).  `written` is the data of the writes that
succeeded. -/
structure ScriptedTransport where
  reads : List (Except Error Bytes) := []
  writes : List (Option Error) := []
  written : List Bytes := []

namespace ScriptedTransport

/-- The bytes the script still delivers. -/
def remaining (transport : ScriptedTransport) : Bytes :=
  transport.reads.flatMap fun
    | .ok chunk => chunk
    | .error _ => []

/-- Answers a read.  Of a chunk longer than `count` the rest is left for the next
read. -/
def read (count : Nat) : Action Error ScriptedTransport Bytes :=
  fun transport =>
    match transport.reads with
    | [] => (.ok [], transport)
    | .error e :: rest => (.error (.error e), { transport with reads := rest })
    | .ok chunk :: rest =>
        if chunk.length ≤ count then
          (.ok chunk, { transport with reads := rest })
        else (.ok (chunk.take count),
          { transport with reads := .ok (chunk.drop count) :: rest })

/-- Answers a write. -/
def write (data : Bytes) : Action Error ScriptedTransport Unit :=
  fun transport =>
    match transport.writes with
    | some e :: rest => (.error (.error e), { transport with writes := rest })
    | none :: rest => (.ok (), { transport with
        writes := rest, written := transport.written ++ [data] })
    | [] => (.ok (), { transport with written := transport.written ++ [data] })

instance : Transport ScriptedTransport where
  read := read
  write := write

/-- The script has no failure of a read and no early end of the stream: every read that
it answers brings a byte at least. -/
def Clean (transport : ScriptedTransport) : Prop :=
  ∀ answer ∈ transport.reads, ∃ chunk : Bytes, chunk ≠ [] ∧ answer = .ok chunk

/-- The stream does not end early: every chunk has a byte. -/
def Steady (transport : ScriptedTransport) : Prop :=
  ∀ chunk : Bytes, .ok chunk ∈ transport.reads → chunk ≠ []

/-- The next read brings nothing: it fails, or the stream has ended. -/
def Idle (transport : ScriptedTransport) : Prop :=
  ∀ chunk : Bytes, transport.reads.head? = some (.ok chunk) → chunk = []

/-- The number of reads that will fail. -/
def failures (transport : ScriptedTransport) : Nat :=
  transport.reads.countP fun
    | .ok _ => false
    | .error _ => true

theorem Clean.steady {transport : ScriptedTransport} (h : transport.Clean) :
    transport.Steady := by
  intro chunk hmem
  obtain ⟨other, hne, heq⟩ := h _ hmem
  cases heq
  exact hne

theorem Clean.failures {transport : ScriptedTransport} (h : transport.Clean) :
    transport.failures = 0 := by
  rw [ScriptedTransport.failures, List.countP_eq_zero]
  intro answer hmem
  obtain ⟨chunk, -, rfl⟩ := h answer hmem
  simp

/-- `bytes` came off the script, and nothing else happened. -/
structure Delivers (before after : ScriptedTransport) (bytes : Bytes) :
    Prop where
  remaining : before.remaining = bytes ++ after.remaining
  written : after.written = before.written
  writes : after.writes = before.writes
  clean : before.Clean → after.Clean
  steady : before.Steady → after.Steady
  failures : after.failures ≤ before.failures

theorem Delivers.refl (transport : ScriptedTransport) :
    Delivers transport transport [] :=
  ⟨rfl, rfl, rfl, id, id, Nat.le_refl _⟩

theorem Delivers.trans {first second third : ScriptedTransport}
    {front back : Bytes} (h : Delivers first second front)
    (h' : Delivers second third back) : Delivers first third (front ++ back) where
  remaining := by rw [h.remaining, h'.remaining, List.append_assoc]
  written := h'.written.trans h.written
  writes := h'.writes.trans h.writes
  clean := fun hclean => h'.clean (h.clean hclean)
  steady := fun hsteady => h'.steady (h.steady hsteady)
  failures := h'.failures.trans h.failures

/-- What a read does: it delivers the chunk it returns, or nothing. -/
structure ReadOutcome (count : Nat) (before : ScriptedTransport)
    (outcome : Checked Error Bytes × ScriptedTransport) (chunk : Bytes) :
    Prop where
  delivers : Delivers before outcome.2 chunk
  size : chunk.length ≤ count
  result : outcome.1 = .ok chunk ∨
    chunk = [] ∧ ∃ e, outcome.1 = .error (.error e)
  clean : before.Clean → outcome.1 = .ok chunk
  nonempty : 0 < count → before.Clean → before.remaining ≠ [] → chunk ≠ []
  steady : 0 < count → before.Steady → before.remaining ≠ [] →
    outcome.1 = .ok chunk ∧ chunk ≠ [] ∨ outcome.2.failures < before.failures
  idle : before.Idle → chunk = []

theorem run_read (count : Nat) (transport : ScriptedTransport) :
    ∃ chunk, ReadOutcome count transport
      ((Transport.read count).run transport) chunk := by
  obtain ⟨reads, writes, written⟩ := transport
  rcases reads with _ | ⟨e | chunk, rest⟩
  · exact ⟨[], Delivers.refl _, Nat.zero_le _, .inl rfl, fun _ => rfl,
      fun _ _ hremaining => absurd rfl hremaining,
      fun _ _ hremaining => absurd rfl hremaining, fun _ => rfl⟩
  · have hdirty : ¬ Clean ⟨.error e :: rest, writes, written⟩ := by
      intro hclean
      obtain ⟨chunk, -, hchunk⟩ := hclean (.error e) (by simp)
      cases hchunk
    have hfailures : failures ⟨rest, writes, written⟩ <
        failures ⟨.error e :: rest, writes, written⟩ := by
      rw [failures, failures, List.countP_cons_of_pos rfl]
      exact Nat.lt_succ_self _
    exact ⟨[], ⟨rfl, rfl, rfl, fun hclean => absurd hclean hdirty,
      fun hsteady chunk hmem => hsteady chunk (List.mem_cons_of_mem _ hmem),
      hfailures.le⟩, Nat.zero_le _, .inr ⟨rfl, e, rfl⟩,
      fun hclean => absurd hclean hdirty, fun _ hclean => absurd hclean hdirty,
      fun _ _ _ => .inr hfailures, fun _ => rfl⟩
  · simp only [Transport.read, read, Action.run]
    split
    · rename_i hle
      refine ⟨chunk, ⟨rfl, rfl, rfl, ?_, ?_, ?_⟩, hle, .inl rfl, fun _ => rfl,
        ?_, ?_, fun hidle => hidle chunk rfl⟩
      · exact fun hclean answer hmem =>
          hclean answer (List.mem_cons_of_mem _ hmem)
      · exact fun hsteady chunk hmem =>
          hsteady chunk (List.mem_cons_of_mem _ hmem)
      · rw [failures, failures, List.countP_cons_of_neg (by simp)]
      · intro _ hclean _
        obtain ⟨chunk, hne, hchunk⟩ := hclean (.ok chunk) (by simp)
        cases hchunk
        exact hne
      · exact fun _ hsteady _ => .inl ⟨rfl, hsteady chunk (by simp)⟩
    · rename_i hlt
      have hdrop : chunk.drop count ≠ [] := by
        intro hnil
        have hlength := congrArg List.length hnil
        rw [List.length_drop, List.length_nil] at hlength
        omega
      have htake : 0 < count → chunk.take count ≠ [] := by
        intro hpos hnil
        have hlength := congrArg List.length hnil
        rw [List.length_take, List.length_nil] at hlength
        omega
      refine ⟨chunk.take count, ⟨?_, rfl, rfl, ?_, ?_, ?_⟩,
        List.length_take_le _ _, .inl rfl, fun _ => rfl,
        fun hpos _ _ => htake hpos, fun hpos _ _ => .inl ⟨rfl, htake hpos⟩,
        fun hidle => ?_⟩
      · simp only [remaining, List.flatMap_cons]
        rw [← List.append_assoc, List.take_append_drop]
      · intro hclean answer hmem
        rcases List.mem_cons.mp hmem with rfl | hmem
        · exact ⟨chunk.drop count, hdrop, rfl⟩
        · exact hclean answer (List.mem_cons_of_mem _ hmem)
      · intro hsteady other hmem
        rcases List.mem_cons.mp hmem with heq | hmem
        · cases heq
          exact hdrop
        · exact hsteady other (List.mem_cons_of_mem _ hmem)
      · rw [failures, failures, List.countP_cons_of_neg (by simp),
          List.countP_cons_of_neg (by simp)]
      · rw [hidle chunk rfl, List.take_nil]

/-- What a write does: it succeeds and keeps its data, or it fails. -/
theorem run_write (data : Bytes) (transport : ScriptedTransport) :
    ∃ writes, (Transport.write data).run transport =
        (.ok (), { transport with
          writes, written := transport.written ++ [data] }) ∨
      ∃ e, (Transport.write data).run transport =
        (.error (.error e), { transport with writes }) := by
  obtain ⟨reads, writes, written⟩ := transport
  rcases writes with _ | ⟨_ | e, rest⟩
  · exact ⟨[], .inl rfl⟩
  · exact ⟨rest, .inl rfl⟩
  · exact ⟨rest, .inr ⟨e, rfl⟩⟩

/-- A script without failures of a write lets it succeed. -/
theorem run_write_ok (data : Bytes) {transport : ScriptedTransport}
    (h : transport.writes = []) :
    (Transport.write data).run transport = (.ok (),
      { transport with written := transport.written ++ [data] }) := by
  obtain ⟨reads, writes, written⟩ := transport
  obtain rfl : writes = [] := h
  rfl

/-! ### The bytes ahead -/

open Action

/-- The bytes the script delivers before a read fails or brings nothing. -/
def ahead (transport : ScriptedTransport) : Bytes :=
  deliver transport.reads
where
  deliver : List (Except Error Bytes) → Bytes
    | .ok chunk :: rest => if chunk = [] then [] else chunk ++ deliver rest
    | _ => []

/-- They are the first of the bytes that are left. -/
theorem ahead_prefix (transport : ScriptedTransport) :
    transport.ahead <+: transport.remaining := by
  obtain ⟨reads, writes, written⟩ := transport
  induction reads with
  | nil => exact List.nil_prefix
  | cons answer rest ih =>
      rcases answer with e | chunk
      · exact List.nil_prefix
      · rw [ahead, ahead.deliver]
        split
        · exact List.nil_prefix
        · exact (List.prefix_append_right_inj chunk).mpr ih

/-- Over a script without failures all bytes that are left are ahead. -/
theorem Clean.ahead {transport : ScriptedTransport} (h : transport.Clean) :
    transport.ahead = transport.remaining := by
  obtain ⟨reads, writes, written⟩ := transport
  induction reads with
  | nil => rfl
  | cons answer rest ih =>
      obtain ⟨chunk, hne, rfl⟩ := h answer List.mem_cons_self
      rw [ScriptedTransport.ahead, ahead.deliver, if_neg hne]
      exact congrArg (chunk ++ ·) (ih fun other hmem =>
        h other (List.mem_cons_of_mem _ hmem))

/-- A read takes its chunk off the bytes ahead; there are none where it fails or
brings nothing. -/
theorem triple_read_ahead {count : Nat} (hcount : 0 < count) (bytes : Bytes) :
    Triple (fun transport : ScriptedTransport => transport.ahead = bytes)
      (Transport.read count)
      (fun chunk transport => chunk = [] ∧ bytes = [] ∨
        chunk ≠ [] ∧ bytes = chunk ++ transport.ahead)
      (fun _ _ => bytes = []) := by
  rintro ⟨reads, writes, written⟩ rfl
  rcases reads with _ | ⟨e | chunk, rest⟩
  · exact .inl ⟨rfl, rfl⟩
  · rfl
  · simp only [Transport.read, read, Action.run]
    by_cases hnil : chunk = []
    · subst hnil
      rw [List.length_nil, if_pos (Nat.zero_le _)]
      exact .inl ⟨rfl, rfl⟩
    · have hlength := List.length_pos_iff.mpr hnil
      by_cases hle : chunk.length ≤ count
      · rw [if_pos hle]
        refine .inr ⟨hnil, ?_⟩
        rw [ahead, ahead.deliver, if_neg hnil]
        rfl
      · rw [if_neg hle]
        have htake : chunk.take count ≠ [] := by
          rw [← List.length_pos_iff, List.length_take]
          omega
        have hdrop : chunk.drop count ≠ [] := by
          rw [← List.length_pos_iff, List.length_drop]
          omega
        refine .inr ⟨htake, ?_⟩
        simp only [ahead, ahead.deliver]
        rw [if_neg hnil, if_neg hdrop, ← List.append_assoc,
          List.take_append_drop]

end ScriptedTransport

/-! ## Filling from a script -/

namespace Buffered

open ScriptedTransport

/-- What filling does: it moves bytes from the script to the end of the buffer,
until there are enough or a read fails. -/
structure FillOutcome (ended : Error) (chunkSize count : Nat)
    (before : Buffered ScriptedTransport)
    (outcome : Checked Error Unit × Buffered ScriptedTransport)
    (bytes : Bytes) : Prop where
  delivers : Delivers before.1 outcome.2.1 bytes
  buffer : outcome.2.2 = before.2 ++ bytes
  size : outcome.2.2.length ≤ before.2.length ∨
    outcome.2.2.length < count + chunkSize
  result : outcome.1 = .ok () ∧ count ≤ outcome.2.2.length ∨
    (∃ e, outcome.1 = .error (.error e)) ∧ outcome.2.2.length < count
  clean : 0 < chunkSize → before.1.Clean →
    count ≤ before.2.length + before.1.remaining.length → outcome.1 = .ok ()
  ended : before.1.Clean →
    outcome.1 = .ok () ∨ outcome.1 = .error (.error ended)
  steady : 0 < chunkSize → before.1.Steady →
    count ≤ before.2.length + before.1.remaining.length →
      outcome.1 = .ok () ∨ outcome.2.1.failures < before.1.failures
  still : count ≤ before.2.length ∨ before.1.Idle →
    bytes = [] ∧ (outcome.1 = .ok () → outcome.2.1 = before.1)

/-- A turn of the loop from a buffer that holds too little. -/
private theorem run_fillStep (ended : Error) {chunkSize count fuel : Nat}
    {state : Buffered ScriptedTransport} {chunk : Bytes}
    (hlt : ¬ count ≤ state.2.length)
    (hread : ReadOutcome chunkSize state.1
      ((Transport.read chunkSize).run state.1) chunk)
    (ih : chunk ≠ [] → ∃ bytes, FillOutcome ended chunkSize count
      (((Transport.read chunkSize).run state.1).2, state.2 ++ chunk)
      ((fillLoop ended chunkSize count fuel).run
        (((Transport.read chunkSize).run state.1).2, state.2 ++ chunk)) bytes) :
    ∃ bytes, FillOutcome ended chunkSize count state ((do
      let chunk ← read chunkSize
      if chunk = [] then Action.fail ended
      else do
        modify fun state => (state.1, state.2 ++ chunk)
        fillLoop ended chunkSize count fuel : Action Error _ Unit).run state)
      bytes := by
  have hmissing : count ≤ state.2.length + state.1.remaining.length →
      state.1.remaining ≠ [] := by
    intro henough hnil
    rw [hnil, List.length_nil] at henough
    omega
  have hsize : state.2.length < count + chunkSize := by omega
  rcases hrun : (Transport.read chunkSize).run state.1 with ⟨result, next⟩
  rw [hrun] at hread ih
  have hzoom : (read chunkSize).run state = (result, (next, state.2)) := by
    rw [read, Action.run_zoom, hrun]
  rcases hread.result with hok | ⟨rfl, e, he⟩
  · obtain rfl : result = .ok chunk := hok
    rw [Action.run_bind_ok hzoom]
    by_cases hnil : chunk = []
    · subst hnil
      rw [if_pos rfl, Action.run_fail]
      refine ⟨[], hread.delivers, by simp, .inl (Nat.le_refl _),
        .inr ⟨⟨_, rfl⟩, Nat.lt_of_not_le hlt⟩, ?_, fun _ => .inr rfl, ?_,
        fun _ => ⟨rfl, nofun⟩⟩
      · intro hpos hclean henough
        exact absurd rfl (hread.nonempty hpos hclean (hmissing henough))
      · intro hpos hsteady henough
        rcases hread.steady hpos hsteady (hmissing henough) with ⟨-, hne⟩ | hfewer
        · exact absurd rfl hne
        · exact .inr hfewer
    · rw [if_neg hnil, Action.run_bind_ok (Action.run_modify _ _)]
      dsimp only at ih ⊢
      obtain ⟨bytes, hrest⟩ := ih hnil
      refine ⟨chunk ++ bytes, hread.delivers.trans hrest.delivers, ?_, ?_,
        hrest.result, ?_, fun hclean =>
          hrest.ended (hread.delivers.clean hclean), ?_, fun hstill =>
          absurd (hread.idle (hstill.resolve_left hlt)) hnil⟩
      · rw [hrest.buffer, List.append_assoc]
      · have hchunk := hread.size
        rcases hrest.size with hle | hlt'
        · right
          rw [List.length_append] at hle
          omega
        · exact .inr hlt'
      · intro hpos hclean henough
        have hdelivered := congrArg List.length hread.delivers.remaining
        refine hrest.clean hpos (hread.delivers.clean hclean) ?_
        simp only [List.length_append] at hdelivered ⊢
        omega
      · intro hpos hsteady henough
        have hdelivered := congrArg List.length hread.delivers.remaining
        have hfewer := hread.delivers.failures
        rcases hrest.steady hpos (hread.delivers.steady hsteady) (by
          simp only [List.length_append] at hdelivered ⊢
          omega) with hok | hlt'
        · exact .inl hok
        · exact .inr (hlt'.trans_le hfewer)
  · obtain rfl : result = .error (.error e) := he
    rw [Action.run_bind_error hzoom]
    refine ⟨[], hread.delivers, by simp, .inl (Nat.le_refl _),
      .inr ⟨⟨e, rfl⟩, Nat.lt_of_not_le hlt⟩, fun _ hclean _ => ?_,
      fun hclean => ?_, fun hpos hsteady henough => ?_, fun _ => ⟨rfl, nofun⟩⟩
    · have hok := hread.clean hclean
      cases hok
    · have hok := hread.clean hclean
      cases hok
    · rcases hread.steady hpos hsteady (hmissing henough) with ⟨hok, -⟩ | hfewer
      · cases hok
      · exact .inr hfewer

theorem run_fillLoop (ended : Error) (chunkSize count : Nat)
    {state : Buffered ScriptedTransport} {fuel : Nat}
    (hfuel : count ≤ state.2.length + fuel) :
    ∃ bytes, FillOutcome ended chunkSize count state
      ((fillLoop ended chunkSize count fuel).run state) bytes := by
  induction fuel generalizing state with
  | zero =>
      have hle : count ≤ state.2.length := by omega
      have hrun : (fillLoop ended chunkSize count 0).run state =
          (.ok (), state) := by
        rw [fillLoop, Action.run_bind_ok (Action.run_get state), if_pos hle,
          Action.run_pure]
      rw [hrun]
      exact ⟨[], Delivers.refl _, by simp, .inl (Nat.le_refl _),
        .inl ⟨rfl, hle⟩, fun _ _ _ => rfl, fun _ => .inl rfl,
        fun _ _ _ => .inl rfl, fun _ => ⟨rfl, fun _ => rfl⟩⟩
  | succ fuel ih =>
      rw [fillLoop, Action.run_bind_ok (Action.run_get state)]
      by_cases hle : count ≤ state.2.length
      · rw [if_pos hle, Action.run_pure]
        exact ⟨[], Delivers.refl _, by simp, .inl (Nat.le_refl _),
          .inl ⟨rfl, hle⟩, fun _ _ _ => rfl, fun _ => .inl rfl,
          fun _ _ _ => .inl rfl, fun _ => ⟨rfl, fun _ => rfl⟩⟩
      · rw [if_neg hle]
        obtain ⟨chunk, hread⟩ := run_read chunkSize state.1
        exact run_fillStep ended hle hread fun hne => ih (by
          have hpos := List.length_pos_iff.mpr hne
          rw [List.length_append]
          omega)

theorem run_fill (ended : Error) (chunkSize count : Nat)
    (state : Buffered ScriptedTransport) :
    ∃ bytes, FillOutcome ended chunkSize count state
      ((fill ended chunkSize count).run state) bytes := by
  rw [fill, Action.run_bind_ok (Action.run_get state)]
  exact run_fillLoop ended chunkSize count (by omega)

open Action in
/-- Filling moves bytes that are ahead to the buffer, and fails where the buffer
and they are too few. -/
theorem triple_fillLoop_ahead (ended : Error) {chunkSize : Nat}
    (hchunk : 0 < chunkSize) (count fuel : Nat) (bytes : Bytes) :
    Triple (fun state : Buffered ScriptedTransport =>
        state.2 ++ state.1.ahead = bytes)
      (fillLoop ended chunkSize count fuel)
      (fun _ state => state.2 ++ state.1.ahead = bytes)
      (fun e _ => (∃ error, e = .error error) → bytes.length < count) := by
  induction fuel with
  | zero =>
      refine Triple.get_bind fun state h => Triple.ite (fun _ => ?_) fun _ => ?_
      · exact Triple.pure fun _ heq => heq ▸ h
      · exact Triple.lift (fun _ hok => nomatch hok) fun e hfuel state _ => by
          rintro ⟨error, rfl⟩
          cases hfuel
  | succ fuel ih =>
      refine Triple.get_bind fun state h => Triple.ite (fun _ => ?_) fun hlt => ?_
      · exact Triple.pure fun _ heq => heq ▸ h
      · have hread : Triple (fun other => other = state) (read chunkSize)
            (fun chunk other => other.2 = state.2 ∧ (chunk = [] ∧ state.1.ahead = [] ∨
              chunk ≠ [] ∧ state.1.ahead = chunk ++ other.1.ahead))
            (fun _ _ => state.1.ahead = []) := by
          rintro other rfl
          have hchunk := triple_read_ahead hchunk other.1.ahead other.1 rfl
          rw [read, run_zoom]
          rcases hrun : (Transport.read chunkSize).run other.1 with ⟨e | chunk, next⟩
          · rw [hrun] at hchunk
            exact hchunk
          · rw [hrun] at hchunk
            exact ⟨rfl, hchunk⟩
        have hshort : state.1.ahead = [] → bytes.length < count := by
          intro hnil
          rw [← h, hnil, List.append_nil]
          omega
        refine Triple.bind (hread.imp_post (fun _ _ h => h) fun _ _ hnil _ =>
          hshort hnil) fun chunk => Triple.ite (fun hnil => ?_) fun hne => ?_
        · refine Triple.fail fun other hother _ => hshort ?_
          exact (hother.2.resolve_right fun h => h.1 hnil).2
        · refine Triple.bind (Q := fun _ other => other.2 ++ other.1.ahead = bytes)
            (Triple.modify fun other hother => ?_) fun _ => ih
          have hahead := (hother.2.resolve_left fun h => hne h.1).2
          rw [hother.1, List.append_assoc, ← hahead, h]

end Buffered

end Ioscpp
