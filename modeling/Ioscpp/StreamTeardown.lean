import Ioscpp.StreamProgram

/-!
# Streams are torn down once

A stream that was accepted is reset at most once over any program, and exactly
once when its object ended on a link that was up before the device reset it.
The transport is closed at most once and gets no reset afterwards.

## Main results

- `World.sound_invariant`: what holds of the objects and of the trace is kept by
  every kind of statement.
- `World.lawful_performAll`: over every program, on every transport that returns no
  more bytes than were asked for, the trace is lawful.
-/

namespace Ioscpp.Stream

open Ioscpp.Support
open Ioscpp.Protocol

/-! ## Lawful traces -/

/-- The trace of streams that are torn down once. It says what resets are sent, and
when; the transport's own close is among its events. -/
structure Lawful (trace : List Event) : Prop where
  /-- A stream is reset at most once. -/
  once : ∀ id, trace.count (.resetSent (some id)) ≤ 1
  /-- No reset is sent by an object without a stream. -/
  nobody : .resetSent none ∉ trace
  /-- A stream is reset only when its object ends. -/
  ends : ∀ front back id, trace = front ++ .resetSent (some id) :: back →
    .ended id ∈ front
  /-- A stream whose reset a read took sends none afterwards. -/
  seen : ∀ front back id, trace = front ++ .resetSeen id :: back →
    .resetSent (some id) ∉ back
  /-- No reset follows the close of the transport. -/
  quiet : ∀ front back, trace = front ++ .transportClosed :: back →
    ∀ id, .resetSent id ∉ back
  /-- A stream that ends while the link is up and no reset was read sends its
  reset. -/
  owed : ∀ front back id, trace = front ++ .ended id :: back →
    .transportClosed ∉ front → .resetSeen id ∉ front →
      trace.count (.resetSent (some id)) = 1
  /-- The transport is closed at most once. -/
  closes : trace.count .transportClosed ≤ 1

/-- The event is about the end of this stream. -/
def Event.Touches (id : Nat) : Event → Prop
  | .opened _ => False
  | .resetSeen other => other = id
  | .ended other => other = id
  | .resetSent other => other = some id
  | .transportClosed => False

/-- Nothing happened to the stream since it was opened. -/
def Untouched (id : Nat) (trace : List Event) : Prop :=
  ∀ event ∈ trace, ¬ event.Touches id

/-- The stream owes no reset: a read took the device's own, the transport was closed, or
the reset was sent. -/
def Settled (id : Nat) (trace : List Event) : Prop :=
  .resetSeen id ∈ trace ∨ .transportClosed ∈ trace ∨
    trace.count (.resetSent (some id)) = 1

/-- An event of a longer trace is one of the first part or of the second. -/
private theorem append_eq_split {α : Type} {first second front back : List α}
    {a : α} (h : first ++ second = front ++ a :: back) :
    (∃ rest, first = front ++ a :: rest ∧ back = rest ++ second) ∨
      ∃ rest, front = first ++ rest ∧ second = rest ++ a :: back := by
  rcases List.append_eq_append_iff.mp h with ⟨rest, hfront, hsecond⟩ |
    ⟨rest, hfirst, hback⟩
  · exact .inr ⟨rest, hfront, hsecond⟩
  · cases rest with
    | nil =>
        refine .inr ⟨[], ?_, hback.symm⟩
        rw [hfirst, List.append_nil, List.append_nil]
    | cons b rest =>
        rw [List.cons_append, List.cons.injEq] at hback
        obtain ⟨rfl, hback⟩ := hback
        exact .inl ⟨rest, hfirst, hback⟩

/-- An event that is none of the second part is one of the first. -/
private theorem split_of_notMem {α : Type} {first second front back : List α} {a : α}
    (h : first ++ second = front ++ a :: back) (hnew : a ∉ second) :
    ∃ rest, first = front ++ a :: rest ∧ back = rest ++ second := by
  rcases append_eq_split h with hsplit | ⟨rest, -, hsecond⟩
  · exact hsplit
  · exact absurd (hsecond ▸ List.mem_append_right _ List.mem_cons_self) hnew

section Append

variable {trace : List Event} {id : Nat}

theorem Untouched.resetSent_notMem (h : Untouched id trace) :
    .resetSent (some id) ∉ trace :=
  fun hmem => h _ hmem rfl

theorem Untouched.resetSeen_notMem (h : Untouched id trace) :
    .resetSeen id ∉ trace :=
  fun hmem => h _ hmem rfl

theorem Untouched.append {more : List Event} (h : Untouched id trace)
    (hmore : ∀ event ∈ more, ¬ event.Touches id) :
    Untouched id (trace ++ more) :=
  List.forall_mem_append.mpr ⟨h, hmore⟩

theorem Settled.append {more : List Event} (h : Settled id trace)
    (hmore : ∀ event ∈ more, ¬ event.Touches id) :
    Settled id (trace ++ more) := by
  rcases h with hseen | hclosed | hsent
  · exact .inl (List.mem_append_left _ hseen)
  · exact .inr (.inl (List.mem_append_left _ hclosed))
  · refine .inr (.inr ?_)
    have hnone : Event.resetSent (some id) ∉ more :=
      fun hmem => hmore _ hmem rfl
    rw [List.count_append, hsent, List.count_eq_zero.mpr hnone]

theorem Settled.ended {other : Nat} (h : Settled id trace) :
    Settled id (trace ++ [.ended other]) := by
  rcases h with hseen | hclosed | hsent
  · exact .inl (List.mem_append_left _ hseen)
  · exact .inr (.inl (List.mem_append_left _ hclosed))
  · exact .inr (.inr (by simpa using hsent))

theorem lawful_nil : Lawful [] where
  once _ := Nat.zero_le 1
  nobody := List.not_mem_nil
  ends front back id h := by simp at h
  seen front back id h := by simp at h
  quiet front back h := by simp at h
  owed front back id h := by simp at h
  closes := Nat.zero_le 1

/-- A handshake was accepted. -/
theorem Lawful.opened (h : Lawful trace) (id : Nat) :
    Lawful (trace ++ [.opened id]) where
  once other := by simpa using h.once other
  nobody := by simpa using h.nobody
  ends front back other heq := by
    obtain ⟨rest, htrace, -⟩ := split_of_notMem heq (by simp)
    exact h.ends front rest other htrace
  seen front back other heq := by
    obtain ⟨rest, htrace, rfl⟩ := split_of_notMem heq (by simp)
    simpa using h.seen front rest other htrace
  quiet front back heq other := by
    obtain ⟨rest, htrace, rfl⟩ := split_of_notMem heq (by simp)
    simpa using h.quiet front rest htrace other
  owed front back other heq hup hunseen := by
    obtain ⟨rest, htrace, rfl⟩ := split_of_notMem heq (by simp)
    simpa using h.owed front rest other htrace hup hunseen
  closes := by simpa using h.closes

/-- A read took the reset of a stream. -/
theorem Lawful.resetSeen (h : Lawful trace) (id : Nat) :
    Lawful (trace ++ [.resetSeen id]) where
  once other := by simpa using h.once other
  nobody := by simpa using h.nobody
  ends front back other heq := by
    obtain ⟨rest, htrace, -⟩ := split_of_notMem heq (by simp)
    exact h.ends front rest other htrace
  seen front back other heq := by
    rcases append_eq_split heq with ⟨rest, htrace, rfl⟩ | ⟨rest, -, hnew⟩
    · simpa using h.seen front rest other htrace
    · cases rest with
      | nil =>
          rw [List.nil_append, List.cons.injEq] at hnew
          rw [← hnew.2]
          exact List.not_mem_nil
      | cons => simp at hnew
  quiet front back heq other := by
    obtain ⟨rest, htrace, rfl⟩ := split_of_notMem heq (by simp)
    simpa using h.quiet front rest htrace other
  owed front back other heq hup hunseen := by
    obtain ⟨rest, htrace, rfl⟩ := split_of_notMem heq (by simp)
    simpa using h.owed front rest other htrace hup hunseen
  closes := by simpa using h.closes

/-- A stream that owes no reset ended. -/
theorem Lawful.ended (h : Lawful trace) (hid : Settled id trace) :
    Lawful (trace ++ [.ended id]) where
  once other := by simpa using h.once other
  nobody := by simpa using h.nobody
  ends front back other heq := by
    obtain ⟨rest, htrace, -⟩ := split_of_notMem heq (by simp)
    exact h.ends front rest other htrace
  seen front back other heq := by
    obtain ⟨rest, htrace, rfl⟩ := split_of_notMem heq (by simp)
    simpa using h.seen front rest other htrace
  quiet front back heq other := by
    obtain ⟨rest, htrace, rfl⟩ := split_of_notMem heq (by simp)
    simpa using h.quiet front rest htrace other
  owed front back other heq hup hunseen := by
    rcases append_eq_split heq with ⟨rest, htrace, rfl⟩ | ⟨rest, rfl, hnew⟩
    · simpa using h.owed front rest other htrace hup hunseen
    · cases rest with
      | nil =>
          rw [List.nil_append, List.cons.injEq, Event.ended.injEq] at hnew
          obtain ⟨rfl, -⟩ := hnew
          rw [List.append_nil] at hup hunseen
          simpa using (hid.resolve_left hunseen).resolve_left hup
      | cons => simp at hnew
  closes := by simpa using h.closes

/-- An open stream ended while the link was up. -/
theorem Lawful.reset (h : Lawful trace) (hid : Untouched id trace)
    (hup : .transportClosed ∉ trace) :
    Lawful (trace ++ [.ended id, .resetSent (some id)]) where
  once other := by
    by_cases hother : other = id
    · rw [hother, List.count_append, List.count_eq_zero.mpr hid.resetSent_notMem]
      simp
    · simpa [List.count_append, List.count_cons, Ne.symm hother] using h.once other
  nobody := by simpa using h.nobody
  ends front back other heq := by
    rcases append_eq_split heq with ⟨rest, htrace, -⟩ | ⟨rest, rfl, hnew⟩
    · exact h.ends front rest other htrace
    · -- the reset is the event behind the end
      cases rest with
      | nil => simp at hnew
      | cons event rest =>
          rw [List.cons_append, List.cons.injEq] at hnew
          obtain ⟨rfl, hnew⟩ := hnew
          have hsame : Event.resetSent (some other) ∈ [Event.resetSent (some id)] :=
            hnew ▸ List.mem_append_right _ List.mem_cons_self
          rw [List.mem_singleton] at hsame
          cases hsame
          exact List.mem_append_right _ List.mem_cons_self
  seen front back other heq := by
    obtain ⟨rest, htrace, rfl⟩ := split_of_notMem heq (by simp)
    have hother : other ≠ id := fun heq => hid.resetSeen_notMem
      (heq ▸ htrace ▸ List.mem_append_right _ List.mem_cons_self)
    simpa [hother] using h.seen front rest other htrace
  quiet front back heq := by
    obtain ⟨rest, htrace, -⟩ := split_of_notMem heq (by simp)
    exact absurd (htrace ▸ List.mem_append_right _ List.mem_cons_self) hup
  owed front back other heq hclosed hunseen := by
    by_cases hother : other = id
    · rw [hother, List.count_append, List.count_eq_zero.mpr hid.resetSent_notMem]
      simp
    · obtain ⟨rest, htrace, -⟩ := split_of_notMem heq (by simp [hother])
      simpa [List.count_append, List.count_cons, Ne.symm hother] using
        h.owed front rest other htrace hclosed hunseen
  closes := by simpa [List.count_append, List.count_cons] using h.closes

/-- The transport was closed. -/
theorem Lawful.transportClosed (h : Lawful trace)
    (hup : .transportClosed ∉ trace) : Lawful (trace ++ [.transportClosed]) where
  once other := by simpa using h.once other
  nobody := by simpa using h.nobody
  ends front back other heq := by
    obtain ⟨rest, htrace, -⟩ := split_of_notMem heq (by simp)
    exact h.ends front rest other htrace
  seen front back other heq := by
    obtain ⟨rest, htrace, rfl⟩ := split_of_notMem heq (by simp)
    simpa using h.seen front rest other htrace
  quiet front back heq other := by
    rcases append_eq_split heq with ⟨rest, htrace, -⟩ | ⟨rest, -, hnew⟩
    · exact absurd (htrace ▸ List.mem_append_right _ List.mem_cons_self) hup
    · obtain ⟨-, rfl⟩ : rest = [] ∧ back = [] := by
        simpa [List.singleton_eq_append_iff] using hnew
      exact List.not_mem_nil
  owed front back other heq hclosed hunseen := by
    obtain ⟨rest, htrace, rfl⟩ := split_of_notMem heq (by simp)
    simpa using h.owed front rest other htrace hclosed hunseen
  closes := by
    rw [List.count_append, List.count_eq_zero.mpr hup]
    simp

end Append

/-! ## Sound worlds -/

/-- What an object and the stream that it holds have in common. -/
structure Owns (trace : List Event) (opens : Nat) (held : Held) : Prop where
  /-- An object without a stream was moved from. -/
  empty : held.id = none → held.stream.attached = false
  lt : ∀ id, held.id = some id → id < opens
  attached : ∀ id, held.id = some id → held.stream.attached = true
  untouched : ∀ id, held.id = some id → held.stream.closed = false →
    Untouched id trace
  settled : ∀ id, held.id = some id → held.stream.closed = true →
    Settled id trace
  buffered : ∀ id, held.id = some id →
    held.stream.incomingOffset ≤ held.stream.incoming.length

namespace World

variable {τ : Type} {world next : World τ}

/-- What holds of a program at any time. -/
structure Sound (world : World τ) : Prop where
  lawful : Lawful world.trace
  link : world.connection.closed = true ↔ .transportClosed ∈ world.trace
  fresh : ∀ id, world.opens ≤ id → Untouched id world.trace
  owns : ∀ target held, world.objects target = some held →
    Owns world.trace world.opens held
  /-- No two objects hold one stream. -/
  unique : ∀ target other held held' id, world.objects target = some held →
    world.objects other = some held' → held.id = some id →
    held'.id = some id → target = other

/-- A step that is about one object, or none, and one stream, or none. -/
structure Advances (world next : World τ) (target id : Option Nat) :
    Prop where
  lawful : Lawful next.trace
  link : next.connection.closed = true ↔ .transportClosed ∈ next.trace
  events : ∃ more, next.trace = world.trace ++ more ∧
    ∀ event ∈ more, ∀ other, event.Touches other → id = some other
  opens : world.opens ≤ next.opens
  lt : ∀ other, id = some other → other < next.opens
  others : ∀ other, target ≠ some other →
    next.objects other = world.objects other
  holds : ∀ other held, target = some other → next.objects other = some held →
    held.id = id ∧ Owns next.trace next.opens held
  /-- No other object holds the stream. -/
  alone : ∀ other held stream, target ≠ some other →
    world.objects other = some held → id = some stream → held.id ≠ some stream

/-- The other objects are not affected. -/
theorem Sound.advance (h : world.Sound) {target id : Option Nat}
    (hstep : Advances world next target id) : next.Sound := by
  obtain ⟨more, htrace, hmore⟩ := hstep.events
  have hquiet (other : Nat) (hother : id ≠ some other) :
      ∀ event ∈ more, ¬ event.Touches other :=
    fun event hmem htouch => hother (hmore event hmem other htouch)
  refine ⟨hstep.lawful, hstep.link, ?_, ?_, ?_⟩
  · intro other hother
    rw [htrace]
    refine (h.fresh other (Nat.le_trans hstep.opens hother)).append
      (hquiet other ?_)
    intro heq
    exact absurd (hstep.lt other heq) (Nat.not_lt.mpr hother)
  · intro other held hheld
    by_cases htarget : target = some other
    · exact (hstep.holds other held htarget hheld).2
    · rw [hstep.others other htarget] at hheld
      have howns := h.owns other held hheld
      have hid (stream : Nat) (hstream : held.id = some stream) :
          id ≠ some stream := fun heq =>
        hstep.alone other held stream htarget hheld heq hstream
      refine ⟨howns.empty, ?_, howns.attached, ?_, ?_, howns.buffered⟩
      · exact fun stream hstream =>
          Nat.lt_of_lt_of_le (howns.lt stream hstream) hstep.opens
      · intro stream hstream hopen
        rw [htrace]
        exact (howns.untouched stream hstream hopen).append
          (hquiet stream (hid stream hstream))
      · intro stream hstream hclosed
        rw [htrace]
        exact (howns.settled stream hstream hclosed).append
          (hquiet stream (hid stream hstream))
  · intro first second held held' stream hfirst hsecond hid hid'
    by_cases hone : target = some first
    · by_cases htwo : target = some second
      · exact Option.some.inj (hone.symm.trans htwo)
      · rw [hstep.others second htwo] at hsecond
        have hheld := (hstep.holds first held hone hfirst).1
        exact absurd hid'
          (hstep.alone second held' stream htwo hsecond (hheld ▸ hid))
    · rw [hstep.others first hone] at hfirst
      by_cases htwo : target = some second
      · have hheld := (hstep.holds second held' htwo hsecond).1
        exact absurd hid
          (hstep.alone first held stream hone hfirst (hheld ▸ hid'))
      · rw [hstep.others second htwo] at hsecond
        exact h.unique first second held held' stream hfirst hsecond hid hid'

/-! ## Steps -/

section Steps

variable {target : Nat} {held : Held} {link : Recorded τ × Connection}

/-- An operation of an object leaves a sound world when its events are lawful
and it leaves an object that fits them, or none. -/
private theorem Sound.put_advance (h : world.Sound)
    (hheld : world.objects target = some held) (hkept : world.Kept link)
    {events : List Event} (more : List Event)
    (hmore : events ++ (world.callsSince link).flatMap
      (observe world.connection.session.version held.id) = more)
    (hlawful : Lawful (world.trace ++ more))
    (htouch : ∀ event ∈ more, event ≠ .transportClosed ∧
      ∀ other, event.Touches other → held.id = some other)
    {left : Option Held}
    (hleft : ∀ held', left = some held' →
      held'.id = held.id ∧ Owns (world.trace ++ more) world.opens held') :
    ((world.advance held.id events link).put target left).Sound := by
  subst hmore
  have hadvances : Advances world
      ((world.advance held.id events link).put target left) (some target)
      held.id := by
    refine ⟨hlawful, ?_, ⟨_, rfl, fun event hmem => (htouch event hmem).2⟩,
      Nat.le_refl _, ?_, ?_, ?_, ?_⟩
    · have hnone : Event.transportClosed ∉ events ++
          (world.callsSince link).flatMap
            (observe world.connection.session.version held.id) :=
        fun hmem => (htouch _ hmem).1 rfl
      have hclosed : link.2.closed = true ↔ .transportClosed ∈ world.trace :=
        hkept.closed ▸ h.link
      rw [show ((world.advance held.id events link).put target left).connection =
        link.2 from rfl, hclosed]
      exact ⟨fun hmem => List.mem_append_left _ hmem,
        fun hmem => (List.mem_append.mp hmem).resolve_right hnone⟩
    · exact fun other hother => (h.owns target held hheld).lt other hother
    · intro other hother
      exact objects_put_of_ne _ left
        fun heq => hother (congrArg some heq.symm)
    · rintro other held' heq hheld'
      cases heq
      rw [objects_put] at hheld'
      exact hleft held' hheld'
    · intro other held' stream hother hheld' hid hid'
      exact hother (congrArg some
        (h.unique target other held held' stream hheld hheld' hid hid'))
  exact h.advance hadvances

/-- Reading and writing. -/
private theorem Sound.use (h : world.Sound)
    (hheld : world.objects target = some held) {after : Stream} {seen : Bool}
    (hkept : world.Kept link) (hkin : Kin held.stream after)
    (hquiet : (world.callsSince link).flatMap
      (observe world.connection.session.version held.id) = [])
    (hclosed : after.closed = (held.stream.closed || seen)) :
    ((world.advance held.id (resetEvents held.id seen) link).put target
      (some { held with stream := after })).Sound := by
  have howns := h.owns target held hheld
  cases seen with
  | false =>
      rw [Bool.or_false] at hclosed
      refine h.put_advance hheld hkept [] ?_ ?_ (by simp) ?_
      · rw [hquiet, resetEvents, if_neg (by simp), List.append_nil]
      · rw [List.append_nil]
        exact h.lawful
      · rintro _ ⟨⟩
        rw [List.append_nil]
        refine ⟨rfl, fun hnone => hkin.attached.trans (howns.empty hnone),
          howns.lt, ?_, ?_, ?_,
          fun other hother => hkin.buffered (howns.buffered other hother)⟩
        · exact fun other hother => hkin.attached.trans (howns.attached other hother)
        · exact fun other hother hopen =>
            howns.untouched other hother (hclosed ▸ hopen)
        · exact fun other hother hover =>
            howns.settled other hother (hclosed ▸ hover)
  | true =>
      rw [Bool.or_true] at hclosed
      cases hid : held.id with
      | none =>
          rw [← hid]
          refine h.put_advance hheld hkept [] ?_ ?_ (by simp) ?_
          · rw [hquiet, hid, resetEvents, if_pos rfl]
            rfl
          · rw [List.append_nil]
            exact h.lawful
          · rintro _ ⟨⟩
            rw [List.append_nil]
            refine ⟨rfl, fun hnone => hkin.attached.trans (howns.empty hnone), ?_,
              ?_, ?_, ?_, ?_⟩ <;>
              (intro id hsome; rw [hid] at hsome; cases hsome)
      | some id =>
          rw [← hid]
          refine h.put_advance hheld hkept [.resetSeen id] ?_
            (h.lawful.resetSeen id) ?_ ?_
          · rw [hquiet, hid, resetEvents, if_pos rfl]
            rfl
          · intro event hmem
            rw [List.mem_singleton] at hmem
            subst hmem
            exact ⟨by simp, fun other htouch => hid.trans (congrArg some htouch)⟩
          · rintro _ ⟨⟩
            refine ⟨rfl, fun hnone => ?_, howns.lt, ?_, ?_, ?_,
              fun other hother => hkin.buffered (howns.buffered other hother)⟩
            · rw [hid] at hnone
              cases hnone
            · exact fun other hother =>
                hkin.attached.trans (howns.attached other hother)
            · intro other hother hopen
              rw [hclosed] at hopen
              cases hopen
            · intro other hother _
              cases hid.symm.trans hother
              exact .inl (List.mem_append_right _ (List.mem_singleton.mpr rfl))

/-- A stream that is over owes nothing. -/
private theorem Sound.settled (h : world.Sound)
    (hheld : world.objects target = some held) {id : Nat} (hid : held.id = some id)
    (hover : held.stream.closed = true ∨ world.connection.closed = true) :
    Settled id world.trace := by
  rcases hover with hclosed | hdown
  · exact (h.owns target held hheld).settled id hid hclosed
  · exact .inr (.inl (h.link.mp hdown))

/-- An object is moved into a place that has none. -/
private theorem Sound.move {source : Nat} (h : world.Sound)
    (htarget : world.objects target = none)
    (hsource : world.objects source = some held) :
    ((world.put target (some held)).put source
      (some ⟨held.stream.movedFrom, none⟩)).Sound := by
  have hne : target ≠ source := fun heq => by
    rw [heq, hsource] at htarget
    cases htarget
  have hobjects (place : Nat) (held' : Held)
      (hheld' : ((world.put target (some held)).put source
        (some ⟨held.stream.movedFrom, none⟩)).objects place = some held') :
      held' = ⟨held.stream.movedFrom, none⟩ ∨
        world.objects (if place = target then source else place) = some held' ∧
          place ≠ source := by
    by_cases hplace : place = source
    · rw [hplace, objects_put] at hheld'
      exact .inl (Option.some.inj hheld').symm
    · rw [objects_put_of_ne _ _ hplace] at hheld'
      refine .inr ⟨?_, hplace⟩
      by_cases hwhere : place = target
      · rw [hwhere, objects_put] at hheld'
        rw [if_pos hwhere, hsource, hheld']
      · rw [objects_put_of_ne _ _ hwhere] at hheld'
        rw [if_neg hwhere, hheld']
  refine ⟨h.lawful, h.link, h.fresh, ?_, ?_⟩
  · intro place held' hheld'
    rcases hobjects place held' hheld' with rfl | ⟨hbefore, -⟩
    · exact ⟨fun _ => rfl, by simp, by simp, by simp, by simp, by simp⟩
    · exact h.owns _ held' hbefore
  · intro first second held' held'' id hfirst hsecond hid hid'
    rcases hobjects first held' hfirst with rfl | ⟨hbefore, hone⟩
    · cases hid
    · rcases hobjects second held'' hsecond with rfl | ⟨hbefore', htwo⟩
      · cases hid'
      · have hsame := h.unique _ _ held' held'' id hbefore hbefore' hid hid'
        -- the two places before the move differ when those after it do
        split at hsame
        · rename_i hfirst
          split at hsame
          · rename_i hsecond
            rw [hfirst, hsecond]
          · exact absurd hsame.symm htwo
        · split at hsame
          · exact absurd hsame hone
          · exact hsame

/-- A call of `open` leaves a sound world when its events are lawful and the
object that it leaves, if any, holds a stream that is untouched. -/
private theorem Sound.opened (h : world.Sound) (place : Option Nat)
    {events : List Event} (more : List Event) {objects : Nat → Option Held}
    (hmore : events ++ (world.callsSince link).flatMap
      (observe world.connection.session.version (some world.opens)) = more)
    (hclosed : link.2.closed = world.connection.closed)
    (hlawful : Lawful (world.trace ++ more))
    (htouch : ∀ event ∈ more, event ≠ .transportClosed ∧
      ∀ other, event.Touches other → other = world.opens)
    (hothers : ∀ other, place ≠ some other → objects other = world.objects other)
    (hplace : ∀ other held, place = some other → objects other = some held →
      held.id = some world.opens ∧
        Owns (world.trace ++ more) (world.opens + 1) held) :
    ({ world.advance (some world.opens) events link with
      objects := objects
      opens := world.opens + 1 } : World τ).Sound := by
  subst hmore
  have hadvances : Advances world { world.advance (some world.opens) events link with
      objects := objects
      opens := world.opens + 1 } place (some world.opens) := by
    refine ⟨hlawful, ?_, ⟨_, rfl, fun event hmem other hother => ?_⟩,
      Nat.le_succ _, ?_, hothers, hplace, ?_⟩
    · have hnone : Event.transportClosed ∉ events ++
          (world.callsSince link).flatMap
            (observe world.connection.session.version (some world.opens)) :=
        fun hmem => (htouch _ hmem).1 rfl
      have hlink : link.2.closed = true ↔ .transportClosed ∈ world.trace :=
        hclosed ▸ h.link
      refine hlink.trans ⟨fun hmem => List.mem_append_left _ hmem,
        fun hmem => (List.mem_append.mp hmem).resolve_right hnone⟩
    · rw [(htouch event hmem).2 other hother]
    · rintro other ⟨⟩
      exact Nat.lt_succ_self _
    · rintro other held _ - hheld ⟨⟩ hid
      exact absurd ((h.owns other held hheld).lt _ hid) (Nat.lt_irrefl _)
  exact h.advance hadvances

variable [ClosableTransport τ]

/-- The end of what an object holds, which is then kept or destroyed. -/
private theorem Sound.endHeld (h : world.Sound)
    (hheld : world.objects target = some held) {left : Option Held}
    (hleft : ∀ held', left = some held' →
      held' = { held with stream := (world.endHeld held).2 }) :
    ((world.endHeld held).1.put target left).Sound := by
  have howns := h.owns target held hheld
  obtain ⟨hkept, hstream, hsent⟩ := world.effect_closeNow held.stream held.id
  have hstream : (world.endHeld held).2 = { held.stream with
    closed := held.stream.closed || held.stream.attached } := hstream
  -- the object that is left, when its stream is settled
  have howns' (trace : List Event)
      (hsettled : ∀ id, held.id = some id → Settled id trace) :
      ∀ held', left = some held' →
        held'.id = held.id ∧ Owns trace world.opens held' := by
    intro held' heq
    rw [hleft held' heq, hstream]
    refine ⟨rfl, howns.empty, howns.lt, howns.attached, ?_,
      fun id hid _ => hsettled id hid, howns.buffered⟩
    intro id hid hopen
    have hattached := howns.attached id hid
    simp [hattached] at hopen
  cases hid : held.id with
  | none =>
      have hdetached : ¬ (held.stream.closed = false ∧
          held.stream.attached = true ∧ world.connection.closed = false) := by
        rw [howns.empty hid]
        simp
      refine h.put_advance hheld hkept [] ?_ ?_ (by simp) (howns' _ ?_)
      · rw [hsent, if_neg hdetached, hid]
        rfl
      · rw [List.append_nil]
        exact h.lawful
      · intro id hsome
        rw [hid] at hsome
        cases hsome
  | some id =>
      have htouch (other : Nat) (heq : id = other) : held.id = some other :=
        hid.trans (congrArg some heq)
      by_cases hover : held.stream.closed = true ∨ world.connection.closed = true
      · have hquiet : ¬ (held.stream.closed = false ∧
            held.stream.attached = true ∧ world.connection.closed = false) := by
          rcases hover with hover | hover <;> simp [hover]
        have hsettled := h.settled hheld hid hover
        refine h.put_advance hheld hkept [.ended id] ?_ (h.lawful.ended hsettled) ?_
          (howns' _ ?_)
        · rw [hsent, if_neg hquiet, hid]
          rfl
        · intro event hmem
          rw [List.mem_singleton] at hmem
          subst hmem
          exact ⟨by simp, fun other => htouch other⟩
        · intro other hother
          cases hid.symm.trans hother
          exact Settled.ended hsettled
      · obtain ⟨hopen, hup⟩ := not_or.mp hover
        rw [Bool.not_eq_true] at hopen hup
        have huntouched := howns.untouched id hid hopen
        have hlink : .transportClosed ∉ world.trace := fun hmem => by
          rw [h.link.mpr hmem] at hup
          cases hup
        refine h.put_advance hheld hkept [.ended id, .resetSent (some id)] ?_
          (h.lawful.reset huntouched hlink) ?_ (howns' _ ?_)
        · rw [hsent, if_pos ⟨hopen, howns.attached id hid, hup⟩, hid]
          rfl
        · intro event hmem
          rw [List.mem_pair] at hmem
          rcases hmem with rfl | rfl
          · exact ⟨by simp, fun other => htouch other⟩
          · exact ⟨by simp, fun other heq => htouch other (Option.some.inj heq)⟩
        · intro other hother
          cases hid.symm.trans hother
          refine .inr (.inr ?_)
          rw [List.count_append, List.count_eq_zero.mpr huntouched.resetSent_notMem]
          simp

/-- A call of `open`, accepted or not. -/
private theorem Sound.openNew (h : world.Sound) (htarget : world.objects target = none)
    (port : UInt16) (fuel : Nat) :
    (world.perform (.openNew target port fuel)).Sound := by
  have hopen := world.effect_openDirect (some world.opens) fuel port
    (world.link, world.connection) rfl
  have hfresh := h.fresh world.opens (Nat.le_refl _)
  have hopened : Untouched world.opens (world.trace ++ [.opened world.opens]) :=
    hfresh.append (by simp [Event.Touches])
  rw [perform, if_neg (by simp [htarget])]
  rcases hrun : (openDirect fuel port).run (world.link, world.connection) with
    ⟨result, link⟩
  rw [hrun] at hopen
  cases result with
  | ok stream =>
      obtain ⟨hstream, -, -, hclosed, hquiet⟩ := hopen
      refine h.opened (some target) [.opened world.opens]
        (by rw [hquiet, List.append_nil]) hclosed (h.lawful.opened _)
        (by simp [Event.Touches]) ?_ ?_
      · exact fun other hother => objects_put_of_ne _ _
          fun heq => hother (congrArg some heq.symm)
      · rintro other held ⟨⟩ hheld
        rw [objects_put] at hheld
        cases hheld
        refine ⟨rfl, by simp, ?_, ?_, ?_, ?_, ?_⟩
        · rintro id ⟨⟩
          exact Nat.lt_succ_self _
        · rintro id ⟨⟩
          rw [hstream]
        · rintro id ⟨⟩ -
          exact hopened
        · rintro id ⟨⟩ hover
          rw [hstream] at hover
          cases hover
        · rintro id ⟨⟩
          rw [hstream]
          exact Nat.le_refl 0
  | error fault =>
      obtain ⟨-, -, hclosed, hsent⟩ := hopen
      cases hack : (world.callsSince link).any
          (acknowledges world.connection.session.version) with
      | false =>
          rw [hack, if_neg (by simp)] at hsent
          refine h.opened none [] (by simp [hsent, hack]) hclosed (by simpa using h.lawful)
            (by simp) (fun _ _ => rfl) (by simp)
      | true =>
          cases hup : world.connection.closed with
          | true =>
              have hsettled : Settled world.opens
                  (world.trace ++ [.opened world.opens]) :=
                .inr (.inl (List.mem_append_left _ (h.link.mp hup)))
              have hlawful := (h.lawful.opened world.opens).ended hsettled
              rw [List.append_assoc] at hlawful
              rw [hup, if_neg (by simp)] at hsent
              exact h.opened none _ (by rw [hsent, hack, if_pos rfl]; rfl)
                hclosed hlawful (by simp [Event.Touches, eq_comm])
                (fun _ _ => rfl) (by simp)
          | false =>
              have hlink : Event.transportClosed ∉
                  world.trace ++ [.opened world.opens] := by
                intro hmem
                have hdown := h.link.mpr (by simpa using hmem)
                rw [hup] at hdown
                cases hdown
              have hlawful := (h.lawful.opened world.opens).reset hopened hlink
              rw [List.append_assoc] at hlawful
              rw [hup, hack, if_pos ⟨rfl, rfl⟩] at hsent
              exact h.opened none _ (by rw [hsent, hack, if_pos rfl]; rfl)
                hclosed hlawful (by simp [Event.Touches, eq_comm])
                (fun _ _ => rfl) (by simp)

omit [ClosableTransport τ] in
/-- The transport is closed, once. -/
private theorem Sound.closeConnection (h : world.Sound)
    (hclose : link.2 = { world.connection with closed := true })
    (hcalls : (world.callsSince link).flatMap
      (observe world.connection.session.version none) =
        if world.connection.closed then [] else [.transportClosed]) :
    (world.advance none [] link).Sound := by
  have hquiet (id : Nat) : ∀ event ∈ (world.callsSince link).flatMap
      (observe world.connection.session.version none), ¬ event.Touches id := by
    rw [hcalls]
    split <;> simp [Event.Touches]
  have htrace : (world.advance none [] link).trace = world.trace ++
      (world.callsSince link).flatMap
        (observe world.connection.session.version none) := rfl
  have hadvances : Advances world (world.advance none [] link) none none := by
    refine ⟨?_, ?_, ⟨_, htrace, ?_⟩, Nat.le_refl _, by simp, fun _ _ => rfl,
      by simp, by simp⟩
    · rw [htrace, hcalls]
      cases hup : world.connection.closed with
      | true => simpa using h.lawful
      | false =>
          refine h.lawful.transportClosed fun hmem => ?_
          rw [h.link.mpr hmem] at hup
          cases hup
    · rw [htrace, hcalls, show (world.advance none [] link).connection = link.2
        from rfl, hclose]
      cases hup : world.connection.closed with
      | true => simpa using h.link.mp hup
      | false => simp
    · exact fun event hmem other htouch => absurd htouch (hquiet other event hmem)
  exact h.advance hadvances

/-- Every statement leaves a sound world. -/
theorem sound_invariant (hbounded : Recorded.Bounded τ) : Invariant (@Sound τ) where
  openNew port fuel h htarget := h.openNew htarget port fuel
  use seen h hheld hkept hkin hquiet hclosed :=
    h.use hheld hkept hkin hquiet (hclosed hbounded)
  endHeld h hheld hleft := h.endHeld hheld hleft
  move h htarget hsource := h.move htarget hsource
  closeConnection {world} h := by
    obtain ⟨hclose, hcalls⟩ := world.effect_close none
    exact h.closeConnection hclose hcalls

omit [ClosableTransport τ] in
theorem sound_start {link : Recorded τ × Connection}
    (hopen : link.2.closed = false) : (start link).Sound where
  lawful := lawful_nil
  link := by
    rw [show (start link).connection = link.2 from rfl, hopen]
    simp [start]
  fresh _ _ event hmem := absurd hmem List.not_mem_nil
  owns _ _ h := by cases h
  unique _ _ _ _ _ h := by cases h

end Steps

/-- Over every program on a connection that is open, whatever the device answers and
resets, the streams are torn down once: an object that ends sends one reset of its
stream, none after the device's own or after the transport was closed, and the transport
is closed at most once. -/
theorem lawful_performAll [ClosableTransport τ] (hbounded : Recorded.Bounded τ)
    (program : List Op) (link : Recorded τ × Connection)
    (hopen : link.2.closed = false) :
    Lawful ((start link).performAll program).trace :=
  ((sound_invariant hbounded).performAll (sound_start hopen) program).lawful

/-- A link whose device accepts two streams and then resets the first. -/
private def resettingLink : Recorded ScriptedTransport × Connection :=
  let second : TcpHeader :=
    { deviceHeader 62078 (TcpSyn ||| TcpAck) 700 with destinationPort := 2 }
  ({ transport := { reads := [
      .ok (deviceFrame 62078 (TcpSyn ||| TcpAck) 500 []),
      .ok (Session.frameBytes { version := 1 } .tcp second.encode),
      .ok (deviceFrame 62078 TcpAck 501 [0x2a] ++
        deviceFrame 62078 TcpRst 502 [])] } },
    { session := { version := 1 } })

/-- A stream that the device resets while it is read, and another that is moved
and closed; the link is closed before the objects are destroyed. -/
private def movedThenClosed : List Op := [
  .openNew 0 62078 9,
  .openNew 1 62078 9,
  .readAll 0 9 9,
  .close 0,
  .moveConstruct 2 1,
  .close 1,
  .close 2,
  .closeConnection,
  .destroy 2,
  .destroy 1,
  .destroy 0]

theorem lawful_performAll_movedThenClosed :
    Lawful ((start resettingLink).performAll movedThenClosed).trace ∧
      ((start resettingLink).performAll movedThenClosed).trace =
        [.opened 0, .opened 1, .resetSeen 0, .ended 0, .ended 1,
          .resetSent (some 1), .transportClosed, .ended 1, .ended 0] :=
  ⟨lawful_performAll ScriptedTransport.bounded movedThenClosed resettingLink rfl,
    by decide +kernel⟩

end World

end Ioscpp.Stream
