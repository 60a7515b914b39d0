import Ioscpp.Protocol.Http2Effects
import Ioscpp.Protocol.Http2FlowControl
import Ioscpp.Protocol.Http2Write

/-!
# What an HTTP/2 client reads of its peer's frames

`connect` reads frames up to the peer's SETTINGS; it returns a connection only
when no GOAWAY and no RST_STREAM came before them, and the calls made on the
connection may read all the others.  A call reads outside the payload of a frame
only in a WINDOW_UPDATE that is cut short, and a `write` that no credit suffices
for reads every frame, also behind a GOAWAY.

## Main results

* `inside_of_hold`: over frames that hold their increments no call reads outside,
  by what `connect` and each call keep.
* `run_awaitSettings_short`, `run_write_short`: a client gets as far as a frame
  that is cut short, if it is one that the client reads.
* `readFrame_inside_iff`: no call of any client of a peer reads outside the frame
  it handles if and only if the frames that the client reads hold their
  increments.
-/

namespace Ioscpp.Protocol

open Ioscpp.Support
open Ioscpp.Support.Action

/-- The frames that a client reads of those its peer sends.  `connect` reads up to
the SETTINGS, and a GOAWAY or a RST_STREAM in front of them fails it: then there
is no connection that reads any further. -/
def clientFrames : List Http2Frame → List Http2Frame
  | [] => []
  | frame :: rest =>
      if frame.IsSettings then frame :: rest
      else if frame.Fails then [frame]
      else frame :: clientFrames rest

namespace Http2

section Inside

variable {τ : Type} [Transport τ]

/-- A call reads nothing outside the payload of a frame that it handles. -/
def StaysInside (call : Nat × Call) (http2 : Http2 τ) : Prop :=
  match call.2 with
  | .openStream stream =>
      ((openStream stream).run http2).1 ≠ .error .outOfBounds
  | .write stream payload =>
      ((write stream call.1 payload).run http2).1 ≠ .error .outOfBounds
  | .read => ((read call.1).run http2).1 ≠ .error .outOfBounds

/-- No call of several, one after the other, reads anything outside. -/
def AllInside : List (Nat × Call) → Http2 τ → Prop
  | [], _ => True
  | call :: rest, http2 =>
      StaysInside call http2 ∧ AllInside rest (perform call http2).2

/-- Neither `connect` nor, on the connection that it returns if it does, any of
the calls reads anything outside. -/
def Inside (transport : τ) (fuel : Nat) (calls : List (Nat × Call)) : Prop :=
  match (connect fuel).run { transport } with
  | (.ok _, http2) => AllInside calls http2
  | (.error e, _) => e ≠ .outOfBounds

end Inside

/-! ## A peer whose frames hold what is read -/

/-- Every frame that is left holds its increment. -/
def AllHold (http2 : Http2 ScriptedTransport) : Prop :=
  ∀ frame ∈ peerFrames http2.pending, frame.HasIncrement

/-- Every frame that is left and that `connect` may still read holds its
increment. -/
def ClientHold (http2 : Http2 ScriptedTransport) : Prop :=
  if http2.settingsSeen then AllHold http2
  else http2.failed = none →
    ∀ frame ∈ clientFrames (peerFrames http2.pending), frame.HasIncrement

section Hold

variable {http2 next : Http2 ScriptedTransport} {frame : Http2Frame}

/-- A frame that is taken off was the first of the frames left. -/
theorem Takes.peerFrames (h : Takes frame http2 next)
    (hfirst : firstFrame http2.ahead = some frame) :
    peerFrames http2.pending = frame :: peerFrames next.pending := by
  rw [peerFrames_some (firstFrame_pending hfirst), h.pending]

theorem AllHold.of_pending (h : AllHold http2)
    (hpending : next.pending = http2.pending) : AllHold next := by
  rw [AllHold, hpending]
  exact h

/-- Over frames that hold their increments, reading one reads nothing outside. -/
theorem triple_readFrame_hold :
    Triple AllHold readFrame (fun _ => AllHold)
      (fun e next => AllHold next ∧ e ≠ .outOfBounds) := by
  intro http2 h
  have hread := readsFrame http2
  rcases hrun : readFrame.run http2 with ⟨result, next⟩
  rw [hrun] at hread
  cases hread with
  | nothing _ hpending => exact ⟨h.of_pending hpending, nofun⟩
  | @outside frame _ hfirst hshort =>
      refine absurd (h frame ?_) hshort
      rw [peerFrames_some (firstFrame_pending hfirst)]
      exact List.mem_cons_self
  | refused _ _ _ _ hpending => exact ⟨h.of_pending hpending, nofun⟩
  | taken hfirst _ htakes =>
      intro other hmem
      refine h other ?_
      rw [htakes.peerFrames hfirst]
      exact List.mem_cons_of_mem _ hmem

theorem triple_write_hold (bytes : Bytes) :
    Triple AllHold (onTransport (Transport.write bytes)) (fun _ => AllHold)
      (fun e next => AllHold next ∧ e ≠ .outOfBounds) := by
  intro http2 h
  rcases run_write_cases bytes http2 with ⟨-, e, hrun⟩ | ⟨-, hrun⟩
  · rw [hrun]
    exact ⟨h, nofun⟩
  · rw [hrun]
    exact h

/-- A payload is written over frames that hold their increments. -/
theorem triple_writePayload_hold (stream : UInt32) (fuel : Nat)
    (payload : Bytes) :
    Triple AllHold (write stream fuel payload) (fun _ => AllHold)
      (fun e next => AllHold next ∧ e ≠ .outOfBounds) := by
  induction fuel generalizing payload with
  | zero =>
      refine Triple.ite (fun _ => Triple.pure fun _ h => h) fun _ =>
        Triple.lift nofun fun e he state h => ⟨h, ?_⟩
      cases he
      exact nofun
  | succ fuel ih =>
      refine Triple.ite (fun _ => Triple.pure fun _ h => h) fun _ =>
        Triple.get_bind fun http2 h => Triple.ite (fun _ => ?_) fun _ => ?_
      · exact (triple_readFrame_hold.bind fun _ => ih payload).imp_pre
          fun _ heq => heq ▸ h
      · refine Triple.bind (Q := fun _ => AllHold)
          ((triple_write_hold _).imp_pre fun _ heq => heq ▸ h) fun _ => ?_
        exact Triple.bind (Q := fun _ => AllHold)
          (Triple.modify fun _ hstate => hstate) fun _ => ih _

theorem triple_read_hold (fuel : Nat) :
    Triple AllHold (read fuel) (fun _ => AllHold)
      (fun e next => AllHold next ∧ e ≠ .outOfBounds) := by
  induction fuel with
  | zero =>
      refine Triple.lift nofun fun e he state h => ⟨h, ?_⟩
      cases he
      exact nofun
  | succ fuel ih =>
      refine Triple.get_bind fun http2 h => ?_
      split
      · rintro state rfl
        exact h
      · split
        · refine Triple.fail ?_
          rintro state rfl
          exact ⟨h, nofun⟩
        · refine (triple_readFrame_hold.bind fun _ => ih).imp_pre ?_
          rintro state rfl
          exact h

/-- What an operation keeps however it ends, it keeps of the state that it leaves. -/
private theorem inside_of_triple {α : Type}
    {x : Action Error (Http2 ScriptedTransport) α}
    (hx : Triple AllHold x (fun _ => AllHold)
      (fun e next => AllHold next ∧ e ≠ .outOfBounds)) (h : AllHold http2) :
    (x.run http2).1 ≠ .error .outOfBounds ∧ AllHold (x.run http2).2 := by
  rcases hrun : x.run http2 with ⟨e | _, next⟩
  · obtain ⟨hnext, he⟩ := hx.of_error h hrun
    exact ⟨fun heq => he (Except.error.inj heq), hnext⟩
  · exact ⟨nofun, hx.of_ok h hrun⟩

/-- A call over frames that hold their increments reads nothing outside. -/
theorem staysInside_of_hold (call : Nat × Call) (h : AllHold http2) :
    StaysInside call http2 ∧ AllHold (perform call http2).2 := by
  obtain ⟨fuel, call⟩ := call
  cases call with
  | openStream stream => exact inside_of_triple (triple_write_hold _) h
  | write stream payload =>
      exact inside_of_triple (triple_writePayload_hold stream fuel payload) h
  | read =>
      obtain ⟨hinside, hnext⟩ := inside_of_triple (triple_read_hold fuel) h
      refine ⟨hinside, ?_⟩
      rcases hrun : (read fuel).run http2 with ⟨e | message, next⟩ <;>
        (rw [hrun] at hnext; rw [perform, hrun]; exact hnext)

theorem allInside_of_hold (calls : List (Nat × Call)) (h : AllHold http2) :
    AllInside calls http2 := by
  induction calls generalizing http2 with
  | nil => trivial
  | cons call rest ih =>
      obtain ⟨hstays, hnext⟩ := staysInside_of_hold call h
      exact ⟨hstays, ih hnext⟩

/-- A frame that `connect` reads keeps what the client needs. -/
theorem Takes.clientHold (h : Takes frame http2 next)
    (hfirst : firstFrame http2.ahead = some frame) (hold : ClientHold http2)
    (hseen : http2.settingsSeen = false) (hfailed : http2.failed = none) :
    ClientHold next := by
  rw [ClientHold, hseen, if_neg (by decide), h.peerFrames hfirst, clientFrames] at hold
  replace hold := hold hfailed
  have hnext := h.settingsSeen
  rw [hseen] at hnext
  rw [ClientHold]
  by_cases hsettings : frame.IsSettings
  · rw [if_pos hsettings] at hold
    rw [if_pos (hnext.mpr (.inr hsettings))]
    exact fun other hmem => hold other (List.mem_cons_of_mem _ hmem)
  · rw [if_neg hsettings] at hold
    rw [if_neg fun hset => (hnext.mp hset).elim (by decide) hsettings]
    intro hnone
    rw [if_neg (h.failed.mp hnone).2] at hold
    exact fun other hmem => hold other (List.mem_cons_of_mem _ hmem)

/-- `connect` waits over frames that hold their increments. -/
theorem triple_awaitSettings_hold (fuel : Nat) :
    Triple ClientHold (awaitSettings fuel) (fun _ => AllHold)
      (fun e _ => e ≠ .outOfBounds) := by
  induction fuel with
  | zero =>
      refine Triple.lift nofun fun e he _ _ => ?_
      cases he
      exact nofun
  | succ fuel ih =>
      refine Triple.get_bind fun http2 h => Triple.ite (fun hseen => ?_)
        fun hseen => ?_
      · refine Triple.pure ?_
        rintro state rfl
        rw [ClientHold, if_pos hseen] at h
        exact h
      · split
        · exact Triple.fail fun _ _ => nofun
        · rename_i hfailed
          refine Triple.bind (Q := fun _ => ClientHold) ?_ fun _ => ih
          rintro state rfl
          have hread := readsFrame state
          rcases hrun : readFrame.run state with ⟨result, next⟩
          rw [hrun] at hread
          cases hread with
          | nothing _ _ => exact nofun
          | @outside frame _ hfirst hshort =>
              rw [ClientHold, if_neg hseen] at h
              refine absurd (h hfailed frame ?_) hshort
              rw [peerFrames_some (firstFrame_pending hfirst), clientFrames]
              split
              · exact List.mem_cons_self
              · split <;> exact List.mem_cons_self
          | refused _ _ _ _ _ => exact nofun
          | taken hfirst _ htakes =>
              exact htakes.clientHold hfirst h (Bool.eq_false_of_not_eq_true hseen)
                hfailed

/-- A client over frames that hold their increments reads nothing outside, in `connect`
and in every call behind it, however the script cuts the bytes and fails. -/
theorem inside_of_hold {transport : ScriptedTransport}
    (h : ∀ frame ∈ clientFrames (peerFrames transport.remaining),
      frame.HasIncrement) (fuel : Nat) (calls : List (Nat × Call)) :
    Inside transport fuel calls := by
  have hwrite : ∀ bytes, Triple ClientHold
      (onTransport (Transport.write bytes)) (fun _ => ClientHold)
      (fun e _ => e ≠ .outOfBounds) := by
    intro bytes http2 hstate
    rcases run_write_cases bytes http2 with ⟨-, e, hrun⟩ | ⟨-, hrun⟩
    · rw [hrun]
      exact nofun
    · rw [hrun]
      exact hstate
  have hconnect : Triple ClientHold (connect fuel) (fun _ => AllHold)
      (fun e _ => e ≠ .outOfBounds) :=
    (hwrite _).bind fun _ => (hwrite _).bind fun _ => (hwrite _).bind fun _ =>
      triple_awaitSettings_hold fuel
  have hpost := hconnect { transport } fun _ => h
  rw [Inside]
  rcases hrun : (connect fuel).run { transport } with ⟨e | _, http2⟩
  · rw [hrun] at hpost
    exact hpost
  · rw [hrun] at hpost
    exact allInside_of_hold calls hpost

end Hold

/-! ## A peer that cuts an increment short -/

section Short

variable {http2 next : Http2 ScriptedTransport} {frame : Http2Frame}

/-- A frame that is cut short is left, and no answer and no read fails on the way
to it. -/
structure ShortLeft (frames : List Http2Frame)
    (http2 : Http2 ScriptedTransport) : Prop where
  clean : http2.transport.Clean
  writes : http2.transport.writes = []
  short : ∃ frame ∈ frames, ¬ frame.HasIncrement

/-- From there a read takes the next frame, or it is the one that is cut short. -/
theorem ShortLeft.readFrame {frames : List Http2Frame} (h : ShortLeft frames http2)
    (hframes : frames ⊆ peerFrames http2.pending) :
    (readFrame.run http2).1 = .error .outOfBounds ∨
      ∃ frame next, readFrame.run http2 = (.ok (), next) ∧
        frame.HasIncrement ∧ Takes frame http2 next ∧
        firstFrame http2.ahead = some frame := by
  have hread := readsFrame http2
  have hahead : http2.ahead = http2.pending := by
    rw [ahead, pending, h.clean.ahead]
  obtain ⟨short, hmem, -⟩ := h.short
  rcases hrun : Http2.readFrame.run http2 with ⟨result, next⟩
  rw [hrun] at hread
  cases hread with
  | nothing hfirst _ =>
      have hleft := hframes hmem
      rw [hahead] at hfirst
      rw [peerFrames_none hfirst] at hleft
      cases hleft
  | outside _ _ => exact .inl rfl
  | refused _ _ _ hrefused _ =>
      obtain ⟨e, he⟩ := hrefused
      rw [h.writes] at he
      cases he
  | taken hfirst hincrement htakes =>
      exact .inr ⟨_, next, rfl, hincrement, htakes, hfirst⟩

/-- The frames behind one that holds its increment still have the other. -/
theorem ShortLeft.took {rest : List Http2Frame} (h : ShortLeft (frame :: rest) http2)
    (hincrement : frame.HasIncrement) (htakes : Takes frame http2 next) :
    ShortLeft rest next where
  clean := htakes.clean h.clean
  writes := by
    rw [htakes.writes, h.writes]
    exact ite_self _
  short := by
    obtain ⟨other, hmem, hshort⟩ := h.short
    refine ⟨other, (List.mem_cons.mp hmem).resolve_left ?_, hshort⟩
    rintro rfl
    exact hshort hincrement

theorem clientFrames_subset (frames : List Http2Frame) :
    clientFrames frames ⊆ frames := by
  induction frames with
  | nil => exact List.Subset.refl _
  | cons frame rest ih =>
      rw [clientFrames]
      split
      · exact List.Subset.refl _
      · split
        · exact List.cons_subset_cons _ (List.nil_subset _)
        · exact List.cons_subset_cons _ ih

/-- `connect` reads up to a frame that is cut short, or up to the SETTINGS that
stand before it. -/
theorem run_awaitSettings_short {fuel : Nat}
    (h : ShortLeft (clientFrames (peerFrames http2.pending)) http2)
    (hseen : http2.settingsSeen = false) (hfailed : http2.failed = none)
    (hfuel : (peerFrames http2.pending).length < fuel) :
    ((awaitSettings fuel).run http2).1 = .error .outOfBounds ∨
      ∃ next, (awaitSettings fuel).run http2 = (.ok (), next) ∧
        ShortLeft (peerFrames next.pending) next := by
  induction fuel generalizing http2 with
  | zero => omega
  | succ fuel ih =>
      have hturn : (awaitSettings (fuel + 1)).run http2 =
          (readFrame >>= fun _ => awaitSettings fuel).run http2 := by
        rw [awaitSettings, run_bind_ok (run_get http2), hseen, if_neg (by decide),
          hfailed]
      rw [hturn]
      rcases h.readFrame (clientFrames_subset _) with
        hfault | ⟨frame, next, hrun, hincrement, htakes, hfirst⟩
      · rcases hrun : readFrame.run http2 with ⟨e | _, next⟩
        · rw [hrun] at hfault
          obtain rfl := Except.error.inj hfault
          rw [run_bind_error hrun]
          exact .inl rfl
        · rw [hrun] at hfault
          cases hfault
      rw [run_bind_ok hrun]
      have hframes := htakes.peerFrames hfirst
      rw [hframes, List.length_cons] at hfuel
      rw [hframes, clientFrames] at h
      have hnext := htakes.settingsSeen
      rw [hseen] at hnext
      by_cases hsettings : frame.IsSettings
      · rw [if_pos hsettings] at h
        obtain ⟨fuel, rfl⟩ : ∃ less, fuel = less + 1 := ⟨fuel - 1, by omega⟩
        refine .inr ⟨next, ?_, h.took hincrement htakes⟩
        rw [awaitSettings, run_bind_ok (run_get next),
          if_pos (hnext.mpr (.inr hsettings)), run_pure]
      · rw [if_neg hsettings] at h
        by_cases hfails : frame.Fails
        · rw [if_pos hfails] at h
          obtain ⟨other, hmem, -⟩ := (h.took hincrement htakes).short
          cases hmem
        · rw [if_neg hfails] at h
          refine ih (h.took hincrement htakes) ?_
            (htakes.failed.mpr ⟨hfailed, hfails⟩) (by omega)
          exact Bool.eq_false_of_not_eq_true fun hset =>
            (hnext.mp hset).elim (by decide) hsettings

/-- A frame leaves the connection's window where it is, or below 2^31. -/
theorem connection_after_le (credit : Credit) (frame : Http2Frame) :
    (credit.after frame).connection ≤ max credit.connection (2 ^ 31) := by
  have hset : ∀ (entries : List (Nat × Nat)) (credit : Credit),
      (entries.foldl Credit.set credit).connection = credit.connection := by
    intro entries
    induction entries with
    | nil => exact fun _ => rfl
    | cons entry rest ih =>
        intro credit
        rw [List.foldl_cons, ih, Credit.set]
        split <;> rfl
  rw [Credit.after]
  split
  · rw [hset]
    exact le_max_left _ _
  · split
    · split
      · exact le_max_of_le_right (toInt32_high _).le
      · exact le_max_left _ _
    · exact le_max_left _ _

/-- A payload that no grants of the frames left make room for is written until the
frame that is cut short is read. -/
theorem run_write_short {fuel : Nat} {stream : UInt32} {payload : Bytes}
    (h : ShortLeft (peerFrames http2.pending) http2)
    (hpayload : http2.connectionWindow.toNat +
      (peerFrames http2.pending).length * 2 ^ 31 < payload.length)
    (hfuel : payload.length + (peerFrames http2.pending).length < fuel) :
    ((write stream fuel payload).run http2).1 = .error .outOfBounds := by
  induction fuel generalizing http2 payload with
  | zero => omega
  | succ fuel ih =>
      have hne : payload ≠ [] := by
        rintro rfl
        rw [List.length_nil] at hpayload
        omega
      rcases lt_or_ge 0 http2.budget with hcredit | hexhausted
      · obtain ⟨count, hpos, hcount, hbudget, hturn⟩ :=
          @run_write_credit _ _ http2 stream payload fuel hne hcredit
        have hwindow : (count : Int) ≤ http2.connectionWindow :=
          hbudget.trans ((min_le_left _ _).trans (min_le_left _ _))
        rw [hturn]
        rcases run_write_cases (dataFrame stream (payload.take count)) http2 with
          ⟨⟨e, he⟩, -⟩ | ⟨-, hwrite⟩
        · rw [h.writes] at he
          cases he
        rw [run_bind_ok hwrite, run_bind_ok (run_modify _ _)]
        have hless : toInt32 (http2.connectionWindow - count) ≤
            http2.connectionWindow - count := toInt32_le (by omega)
        refine ih ⟨h.clean, ?_, h.short⟩ ?_ ?_
        · exact congrArg List.tail h.writes
        · rw [List.length_drop]
          show (toInt32 (http2.connectionWindow - count)).toNat +
            (peerFrames http2.pending).length * 2 ^ 31 < _
          omega
        · rw [List.length_drop]
          show _ + (peerFrames http2.pending).length < _
          omega
      · rw [run_write_exhausted hne hexhausted]
        rcases h.readFrame (List.Subset.refl _) with
          hfault | ⟨frame, next, hrun, hincrement, htakes, hfirst⟩
        · rcases hrun : readFrame.run http2 with ⟨e | _, next⟩
          · rw [hrun] at hfault
            obtain rfl := Except.error.inj hfault
            rw [run_bind_error hrun]
          · rw [hrun] at hfault
            cases hfault
        rw [run_bind_ok hrun]
        have hframes := htakes.peerFrames hfirst
        rw [hframes] at h
        rw [hframes, List.length_cons] at hpayload hfuel
        have hwindow := connection_after_le http2.credit frame
        rw [← htakes.credit] at hwindow
        have hle : next.connectionWindow.toNat ≤
            http2.connectionWindow.toNat + 2 ^ 31 := by
          have hmax : next.connectionWindow ≤ max http2.connectionWindow (2 ^ 31) :=
            hwindow
          rcases le_max_iff.mp hmax with hle | hle <;> omega
        refine ih (h.took hincrement htakes) ?_ (by omega)
        rw [Nat.succ_mul] at hpayload
        omega

end Short

/-- Over a transport that accepts what is written, `connect` sends its opening and
then waits for the SETTINGS. -/
theorem run_connect_opening {transport : ScriptedTransport}
    (h : transport.writes = []) : ∃ written, ∀ fuel,
      (connect fuel).run { transport } =
        (awaitSettings fuel).run { transport := { transport with written } } := by
  obtain ⟨reads, writes, written⟩ := transport
  obtain rfl : writes = [] := h
  exact ⟨_, fun _ => rfl⟩

/-- A client of a peer that cuts an increment short reads outside, in `connect` or
in a `write` that waits for credit. -/
theorem exists_outside {bytes : Bytes} {frame : Http2Frame}
    (hmem : frame ∈ clientFrames (peerFrames bytes))
    (hshort : ¬ frame.HasIncrement) :
    ∃ (transport : ScriptedTransport) (fuel : Nat) (calls : List (Nat × Call)),
      transport.remaining = bytes ∧ ¬ Inside transport fuel calls := by
  have hne : bytes ≠ [] := by
    rintro rfl
    rw [peerFrames_none rfl] at hmem
    cases hmem
  let transport : ScriptedTransport := { reads := [.ok bytes] }
  have hremaining : transport.remaining = bytes := List.append_nil bytes
  have hclean : transport.Clean := fun answer hanswer =>
    ⟨bytes, hne, List.mem_singleton.mp hanswer⟩
  obtain ⟨written, hopening⟩ :=
    run_connect_opening (rfl : transport.writes = [])
  have hpending : pending { transport := { transport with written } } = bytes :=
    hremaining
  have hleft : ShortLeft (clientFrames (peerFrames bytes))
      { transport := { transport with written } } :=
    ⟨hclean, rfl, frame, hmem, hshort⟩
  rw [← hpending] at hleft
  have hawait := run_awaitSettings_short hleft rfl rfl (Nat.lt_succ_self _)
  rw [← hopening, hpending] at hawait
  rcases hawait with hfault | ⟨next, hok, hnext⟩
  · refine ⟨transport, (peerFrames bytes).length + 1, [], hremaining,
      fun hinside => ?_⟩
    rw [Inside] at hinside
    rcases hrun : (connect ((peerFrames bytes).length + 1)).run
      { transport } with ⟨e | _, next⟩
    · rw [hrun] at hinside hfault
      exact hinside (Except.error.inj hfault)
    · rw [hrun] at hfault
      cases hfault
  · -- a payload that all windows and grants together have no room for
    let payload : Bytes := List.replicate (next.connectionWindow.toNat +
      (peerFrames next.pending).length * 2 ^ 31 + 1) 0
    have hpayload : next.connectionWindow.toNat +
        (peerFrames next.pending).length * 2 ^ 31 < payload.length := by
      simp [payload]
    have hwrite : ((write kHttp2ControlStream (payload.length +
        (peerFrames next.pending).length + 1) payload).run next).1 =
          .error .outOfBounds :=
      run_write_short hnext hpayload (Nat.lt_succ_self _)
    refine ⟨transport, (peerFrames bytes).length + 1, [(payload.length +
      (peerFrames next.pending).length + 1, .write kHttp2ControlStream payload)],
      hremaining, fun hinside => ?_⟩
    rw [Inside, hok] at hinside
    exact hinside.1 hwrite

/-- Whatever bytes a peer sends, no call of a client over any script of them reads
outside the payload of the frame it handles, if and only if every WINDOW_UPDATE
among the frames that the client reads has a payload of at least four bytes. -/
theorem readFrame_inside_iff (bytes : Bytes) :
    (∀ (transport : ScriptedTransport) (fuel : Nat) (calls : List (Nat × Call)),
      transport.remaining = bytes → Inside transport fuel calls) ↔
      ∀ frame ∈ clientFrames (peerFrames bytes), frame.HasIncrement := by
  constructor
  · intro h frame hmem
    by_contra hshort
    obtain ⟨transport, fuel, calls, hremaining, houtside⟩ :=
      exists_outside hmem hshort
    exact houtside (h transport fuel calls hremaining)
  · rintro h transport fuel calls rfl
    exact inside_of_hold h fuel calls

/-- A WINDOW_UPDATE without a payload. -/
theorem not_readFrame_inside_emptyUpdate :
    ¬ ∀ (transport : ScriptedTransport) (fuel : Nat) (calls : List (Nat × Call)),
      Inside transport fuel calls := by
  intro h
  have hinside := h { reads := [.ok (appendFrame [] kWindowUpdate 0 0 [])] } 1 []
  have hfault : ((connect 1).run ({ transport := { reads :=
      [.ok (appendFrame [] kWindowUpdate 0 0 [])] } } :
      Http2 ScriptedTransport)).1 = .error .outOfBounds := by
    decide +kernel
  rw [Inside] at hinside
  rcases hrun : (connect 1).run ({ transport := { reads :=
    [.ok (appendFrame [] kWindowUpdate 0 0 [])] } } :
    Http2 ScriptedTransport) with ⟨e | _, next⟩
  · rw [hrun] at hinside hfault
    exact hinside (Except.error.inj hfault)
  · rw [hrun] at hfault
    cases hfault

end Http2

end Ioscpp.Protocol
