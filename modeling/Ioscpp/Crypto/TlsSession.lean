import Ioscpp.ByteStream

/-!
# TLS over a stream

mbedTLS is a parameter: each of its calls is a `Program` that asks its callbacks
to send and to receive, and returns a code.  The callbacks go to a byte stream,
and the loops of `TlsSession` call mbedTLS again as long as it wants to be.

The send callback reports a failed write as a wish to write again.  So the loops
end exactly when mbedTLS sends nothing once the link is dead.

## Main results

* `run_perform`: how one call of mbedTLS on a stream ends; what it sent on a dead
  link is still pending.
* `handshakeLoop_stuck`, `writeLoop_stuck`: from there the loops go on for ever.
* `returns_iff_not_meetsDead`: on a link that dies at some point, each loop returns
  if and only if mbedTLS sends nothing in it once the link is dead.
-/

namespace Ioscpp.Crypto

open Ioscpp.Support

/-! ## mbedTLS -/

/-- One call into mbedTLS, from what its callbacks answer to the code that it
returns and the context that it leaves. -/
inductive Program (κ : Type) where
  | done (code : Int) (context : κ)
  | send (data : Bytes) (next : Int → Program κ)
  | recv (length : Nat) (next : Int → Bytes → Program κ)

/-- `mbedtls_ssl_handshake` and `mbedtls_ssl_write` on a context. -/
structure Mbedtls (κ : Type) where
  handshake : κ → Program κ
  write : κ → Bytes → Program κ

/-- `MBEDTLS_ERR_SSL_WANT_READ`. -/
def wantRead : Int := -0x6900

/-- `MBEDTLS_ERR_SSL_WANT_WRITE`. -/
def wantWrite : Int := -0x6880

/-- `MBEDTLS_ERR_SSL_CONN_EOF`. -/
def connEof : Int := -0x7280

/-- The loops call again. -/
def Wants (code : Int) : Prop := code = wantRead ∨ code = wantWrite

instance (code : Int) : Decidable (Wants code) :=
  inferInstanceAs (Decidable (_ ∨ _))

/-! ## The callbacks -/

section Session

variable {σ κ : Type} [ByteStream σ]

/-- An operation of the stream, of which the session has a pointer. -/
def onStream {α : Type} (x : Action Error σ α) : Action Error (κ × σ) α :=
  Action.zoom Prod.snd (fun state stream => (state.1, stream)) x

def tlsSend (data : Bytes) : Action Error σ Int := do
  match ← Action.outcome (ByteStream.write data) with
  | .ok _ => return data.length
  | .error _ => return wantWrite

def tlsRecv (length : Nat) : Action Error σ (Int × Bytes) := do
  match ← Action.outcome (ByteStream.readExact length) with
  | .ok data => return (length, data)
  | .error _ => return (connEof, [])

/-- Makes a call into mbedTLS. -/
def perform : Program κ → Action Error (κ × σ) Int
  | .done code context => do
      modify fun state => (context, state.2)
      return code
  | .send data next => do
      let code ← onStream (tlsSend data)
      perform (next code)
  | .recv length next => do
      let (code, data) ← onStream (tlsRecv length)
      perform (next code data)

def cryptoError (message : String) : Error := ⟨.crypto, ascii message⟩

variable (mbedtls : Mbedtls κ)

/-- The loop of `TlsSession::start` around the handshake. -/
def handshakeLoop : Nat → Action Error (κ × σ) Unit
  | 0 => Action.lift (.error .outOfFuel)
  | fuel + 1 => do
      let state ← get
      let result ← perform (mbedtls.handshake state.1)
      if result = 0 then return ()
      else if ¬Wants result then
        Action.fail (cryptoError "the TLS handshake failed")
      else handshakeLoop fuel

/-- The loop of `TlsSession::write` over the data from its offset on. -/
def writeLoop : Nat → Bytes → Action Error (κ × σ) Unit
  | 0, _ => Action.lift (.error .outOfFuel)
  | fuel + 1, data =>
      if data = [] then return ()
      else do
        let state ← get
        let written ← perform (mbedtls.write state.1 data)
        if 0 < written then writeLoop fuel (data.drop written.toNat)
        else if ¬Wants written then
          Action.fail (cryptoError "the TLS write failed")
        else writeLoop fuel data

end Session

/-! ## What mbedTLS promises -/

/-- The next call of the handshake begins with a send: what it could not send is
pending. -/
def PendingHandshake {κ : Type} (mbedtls : Mbedtls κ) (context : κ) : Prop :=
  ∃ data next, mbedtls.handshake context = .send data next

/-- The next call of the write begins with a send: its record is pending. -/
def PendingWrite {κ : Type} (mbedtls : Mbedtls κ) (context : κ) : Prop :=
  ∀ plain ≠ [], ∃ data next, mbedtls.write context plain = .send data next

/-- A negative code of the send callback is returned, and what was to be sent stays
pending when the code asks for that; mbedTLS does not ask to be called again when
no callback did. -/
inductive Obeys {κ : Type} (Pending : κ → Prop) : Program κ → Prop where
  | done {code : Int} {context : κ} (h : ¬Wants code) :
      Obeys Pending (.done code context)
  | send {data : Bytes} {next : Int → Program κ}
      (hfailed : ∀ code < 0, ∃ context, next code = .done code context ∧
        (code = wantWrite → Pending context))
      (hsent : ∀ code, 0 ≤ code → Obeys Pending (next code)) :
      Obeys Pending (.send data next)
  | recv {length : Nat} {next : Int → Bytes → Program κ}
      (h : ∀ code data, ¬Wants code → Obeys Pending (next code data)) :
      Obeys Pending (.recv length next)

/-- mbedTLS as documented: every call obeys.  What a call could not send is pending
for the next call of its own loop; nothing is asked of the handshake after a write,
which on an established session returns without a callback. -/
structure Mbedtls.Lawful {κ : Type} (mbedtls : Mbedtls κ) : Prop where
  handshake : ∀ context, Obeys (PendingHandshake mbedtls) (mbedtls.handshake context)
  write : ∀ context data, Obeys (PendingWrite mbedtls) (mbedtls.write context data)

/-! ## Links that die -/

section Links

variable {σ κ : Type} [ByteStream σ]

/-- A call of the stream. -/
inductive StreamCall where
  | write (data : Bytes)
  | readExact (count : Nat)

/-- The stream after calls, whatever became of each. -/
def afterCalls : List StreamCall → σ → σ
  | [], stream => stream
  | .write data :: calls, stream =>
      afterCalls calls ((ByteStream.write data).run stream).2
  | .readExact count :: calls, stream =>
      afterCalls calls ((ByteStream.readExact count).run stream).2

/-- The number of writes among calls. -/
def writes (calls : List StreamCall) : Nat :=
  calls.countP fun
    | .write _ => true
    | .readExact _ => false

/-- An operation returns a value or an error of its own; a loop that goes on for ever
does neither, with any fuel. -/
def Returns {τ α : Type} (x : Action Error τ α) (state : τ) : Prop :=
  (∃ a next, x.run state = (.ok a, next)) ∨
    ∃ e next, x.run state = (.error (.error e), next)

/-- Every write fails from here on. -/
def Dead (stream : σ) : Prop :=
  ∀ calls data, ∃ e next,
    (ByteStream.write data).run (afterCalls calls stream) =
      (.error (.error e), next)

/-- Every call on the stream returns, and after `count` writes it is dead: from there
every write fails, whatever calls follow. -/
structure DiesWithin (count : Nat) (stream : σ) : Prop where
  write : ∀ calls data, Returns (ByteStream.write data) (afterCalls calls stream)
  read : ∀ calls count,
    Returns (ByteStream.readExact count) (afterCalls calls stream)
  dead : ∀ calls, count ≤ writes calls → Dead (afterCalls calls stream)

/-- The call sends something on a dead link. -/
def Program.MeetsDead : Program κ → σ → Prop
  | .done _ _, _ => False
  | .send data next, stream =>
      Dead stream ∨ ∃ code after,
        (tlsSend data).run stream = (.ok code, after) ∧
          (next code).MeetsDead after
  | .recv length next, stream =>
      ∃ answer after, (tlsRecv length).run stream = (.ok answer, after) ∧
        (next answer.1 answer.2).MeetsDead after

variable (mbedtls : Mbedtls κ)

/-- A handshake call of the loop sends something on a dead link: the call that is made
now, or one that the loop makes because this one asks to be called again. -/
inductive HandshakeMeetsDead : κ × σ → Prop where
  | now {state : κ × σ}
      (h : (mbedtls.handshake state.1).MeetsDead state.2) :
      HandshakeMeetsDead state
  | again {state next : κ × σ} {result : Int}
      (hrun : (perform (mbedtls.handshake state.1)).run state =
        (.ok result, next))
      (hwants : Wants result) (h : HandshakeMeetsDead next) :
      HandshakeMeetsDead state

/-- A call of the write loop sends something on a dead link: the call that is made now,
one for the data that this call leaves, or one that this call asks for. -/
inductive WriteMeetsDead : Bytes → κ × σ → Prop where
  | now {data : Bytes} {state : κ × σ} (hdata : data ≠ [])
      (h : (mbedtls.write state.1 data).MeetsDead state.2) :
      WriteMeetsDead data state
  | later {data : Bytes} {state next : κ × σ} {written : Int}
      (hdata : data ≠ [])
      (hrun : (perform (mbedtls.write state.1 data)).run state =
        (.ok written, next))
      (hwritten : 0 < written)
      (h : WriteMeetsDead (data.drop written.toNat) next) :
      WriteMeetsDead data state
  | again {data : Bytes} {state next : κ × σ} {written : Int}
      (hdata : data ≠ [])
      (hrun : (perform (mbedtls.write state.1 data)).run state =
        (.ok written, next))
      (hwants : Wants written) (h : WriteMeetsDead data next) :
      WriteMeetsDead data state

end Links

/-! ## One call -/

section Calls

variable {σ κ : Type} [ByteStream σ] {mbedtls : Mbedtls κ} {stream : σ}
  {count : Nat}

theorem afterCalls_append (calls calls' : List StreamCall) (stream : σ) :
    afterCalls (calls ++ calls') stream =
      afterCalls calls' (afterCalls calls stream) := by
  induction calls generalizing stream with
  | nil => rfl
  | cons call calls ih => cases call <;> exact ih _

theorem Dead.after (h : Dead stream) (calls : List StreamCall) :
    Dead (afterCalls calls stream) := by
  intro calls' data
  rw [← afterCalls_append]
  exact h (calls ++ calls') data

theorem DiesWithin.after (h : DiesWithin count stream)
    (calls : List StreamCall) :
    DiesWithin (count - writes calls) (afterCalls calls stream) where
  write calls' data := by
    rw [← afterCalls_append]
    exact h.write (calls ++ calls') data
  read calls' length := by
    rw [← afterCalls_append]
    exact h.read (calls ++ calls') length
  dead calls' hwrites := by
    rw [← afterCalls_append]
    refine h.dead (calls ++ calls') ?_
    rw [writes, List.countP_append]
    change count ≤ writes calls + writes calls'
    omega

theorem tlsSend_cases (h : DiesWithin count stream) (data : Bytes) :
    (∃ code, 0 ≤ code ∧ ¬Dead stream ∧
      (tlsSend data).run stream = (.ok code, afterCalls [.write data] stream)) ∨
    (tlsSend data).run stream =
      (.ok wantWrite, afterCalls [.write data] stream) := by
  rcases h.write [] data with ⟨⟨⟩, next, hrun⟩ | ⟨e, next, hrun⟩
  · rw [afterCalls] at hrun
    have hnext : afterCalls [.write data] stream = next :=
      congrArg Prod.snd hrun
    refine .inl ⟨data.length, Int.natCast_nonneg _, ?_, ?_⟩
    · intro hdead
      obtain ⟨e, last, hfailed⟩ := hdead [] data
      rw [afterCalls, hrun] at hfailed
      cases hfailed
    · rw [tlsSend, Action.run_bind_ok (Action.run_outcome_ok hrun), hnext]
      rfl
  · rw [afterCalls] at hrun
    have hnext : afterCalls [.write data] stream = next :=
      congrArg Prod.snd hrun
    right
    rw [tlsSend, Action.run_bind_ok (Action.run_outcome_error hrun), hnext]
    rfl

theorem tlsRecv_run (h : DiesWithin count stream) (length : Nat) :
    ∃ code data, ¬Wants code ∧ (tlsRecv length).run stream =
      (.ok (code, data), afterCalls [.readExact length] stream) := by
  rcases h.read [] length with ⟨data, next, hrun⟩ | ⟨e, next, hrun⟩
  · rw [afterCalls] at hrun
    have hnext : afterCalls [.readExact length] stream = next :=
      congrArg Prod.snd hrun
    refine ⟨length, data, ?_, ?_⟩
    · rintro (hwants | hwants) <;> simp [wantRead, wantWrite] at hwants
    · rw [tlsRecv, Action.run_bind_ok (Action.run_outcome_ok hrun), hnext]
      rfl
  · rw [afterCalls] at hrun
    have hnext : afterCalls [.readExact length] stream = next :=
      congrArg Prod.snd hrun
    refine ⟨connEof, [], by decide, ?_⟩
    rw [tlsRecv, Action.run_bind_ok (Action.run_outcome_error hrun), hnext]
    rfl

/-- How a call of mbedTLS on this stream ends. -/
structure Ended (Pending : κ → Prop) (program : Program κ) (stream : σ)
    (code : Int) (context : κ) (calls : List StreamCall) : Prop where
  /-- It asks to be called again only after a send that failed. -/
  wants : Wants code →
    code = wantWrite ∧ 0 < writes calls ∧ Pending context
  /-- What is sent on a dead link is still pending. -/
  meets : program.MeetsDead stream →
    code = wantWrite ∧ Dead (afterCalls calls stream)
  /-- On a dead link it asks to be called again only when it sent something. -/
  dead : Wants code → Dead stream → program.MeetsDead stream

/-- One call of mbedTLS over the callbacks: it returns a code, having made some calls on
the stream, and it ends as `Ended` says: what it sent on a dead link is pending. -/
theorem run_perform {Pending : κ → Prop} {program : Program κ}
    (hobeys : Obeys Pending program)
    (h : DiesWithin count stream) (context : κ) :
    ∃ code context' calls,
      (perform program).run (context, stream) =
        (.ok code, (context', afterCalls calls stream)) ∧
      Ended Pending program stream code context' calls := by
  induction hobeys generalizing stream count with
  | @done code after hcode =>
      exact ⟨code, after, [], rfl, fun hwants => absurd hwants hcode,
        fun hmeets => hmeets.elim, fun hwants => absurd hwants hcode⟩
  | @send data next hfailed hsent ih =>
      rcases tlsSend_cases h data with ⟨code, hcode, halive, hsend⟩ | hsend
      · obtain ⟨result, context', calls, hrun, hended⟩ :=
          ih code hcode (h.after [.write data])
        refine ⟨result, context', .write data :: calls, ?_, ?_, ?_, ?_⟩
        · rw [perform, Action.run_bind, onStream, Action.run_zoom, hsend]
          exact hrun
        · intro hwants
          obtain ⟨hresult, -, hpending⟩ := hended.wants hwants
          refine ⟨hresult, ?_, hpending⟩
          rw [writes, List.countP_cons_of_pos rfl]
          exact Nat.succ_pos _
        · rintro (hdead | ⟨code', after, hsend', hmeets⟩)
          · exact absurd hdead halive
          · rw [hsend] at hsend'
            cases hsend'
            exact hended.meets hmeets
        · intro _ hdead
          exact absurd hdead halive
      · obtain ⟨context', hdone, hpending⟩ := hfailed wantWrite (by decide)
        refine ⟨wantWrite, context', [.write data], ?_, ?_, ?_, ?_⟩
        · rw [perform, Action.run_bind, onStream, Action.run_zoom, hsend]
          dsimp only
          rw [hdone]
          rfl
        · exact fun _ => ⟨rfl, Nat.succ_pos 0, hpending rfl⟩
        · rintro (hdead | ⟨code', after, hsend', hmeets⟩)
          · exact ⟨rfl, hdead.after _⟩
          · rw [hsend] at hsend'
            cases hsend'
            rw [hdone] at hmeets
            exact hmeets.elim
        · exact fun _ hdead => .inl hdead
  | @recv length next hnext ih =>
      obtain ⟨code, data, hcode, hrecv⟩ := tlsRecv_run h length
      obtain ⟨result, context', calls, hrun, hended⟩ :=
        ih code data hcode (h.after [.readExact length])
      refine ⟨result, context', .readExact length :: calls, ?_, ?_, ?_, ?_⟩
      · rw [perform, Action.run_bind, onStream, Action.run_zoom, hrecv]
        exact hrun
      · intro hwants
        exact hended.wants hwants
      · rintro ⟨answer, after, hrecv', hmeets⟩
        rw [hrecv] at hrecv'
        cases hrecv'
        exact hended.meets hmeets
      · intro hwants hdead
        exact ⟨_, _, hrecv, hended.dead hwants (hdead.after [.readExact length])⟩

/-! ## The loops -/

/-- Once a record is pending on a dead link, the handshake loop goes on for
ever. -/
theorem handshakeLoop_stuck (hlaw : mbedtls.Lawful) {context : κ}
    (h : DiesWithin count stream)
    (hmeets : (mbedtls.handshake context).MeetsDead stream) (fuel : Nat) :
    ∃ last, (handshakeLoop mbedtls fuel).run (context, stream) =
      (.error .outOfFuel, last) := by
  induction fuel generalizing context stream count with
  | zero => exact ⟨_, rfl⟩
  | succ fuel ih =>
      obtain ⟨code, context', calls, hrun, hended⟩ :=
        run_perform (hlaw.handshake context) h context
      obtain ⟨rfl, hdead⟩ := hended.meets hmeets
      obtain ⟨-, -, data, next, hsend⟩ := hended.wants (.inr rfl)
      have hagain : (mbedtls.handshake context').MeetsDead
          (afterCalls calls stream) := by
        rw [hsend]
        exact .inl hdead
      rw [handshakeLoop, Action.run_bind_ok (Action.run_get _),
        Action.run_bind_ok hrun, if_neg (by decide), if_neg (by decide)]
      exact ih (h.after calls) hagain

/-- Once a record is pending on a dead link, the write loop goes on for ever: each call
tries to send it, fails, and asks to be called again. -/
theorem writeLoop_stuck (hlaw : mbedtls.Lawful) {context : κ} {data : Bytes}
    (hdata : data ≠ []) (h : DiesWithin count stream)
    (hmeets : (mbedtls.write context data).MeetsDead stream) (fuel : Nat) :
    ∃ last, (writeLoop mbedtls fuel data).run (context, stream) =
      (.error .outOfFuel, last) := by
  induction fuel generalizing context stream count with
  | zero => exact ⟨_, rfl⟩
  | succ fuel ih =>
      obtain ⟨code, context', calls, hrun, hended⟩ :=
        run_perform (hlaw.write context data) h context
      obtain ⟨rfl, hdead⟩ := hended.meets hmeets
      obtain ⟨-, -, hpending⟩ := hended.wants (.inr rfl)
      obtain ⟨record, next, hsend⟩ := hpending data hdata
      have hagain : (mbedtls.write context' data).MeetsDead
          (afterCalls calls stream) := by
        rw [hsend]
        exact .inl hdead
      rw [writeLoop, if_neg hdata, Action.run_bind_ok (Action.run_get _),
        Action.run_bind_ok hrun, if_neg (by decide), if_neg (by decide)]
      exact ih (h.after calls) hagain

theorem not_returns_outOfFuel {τ α : Type} {x : Action Error τ α}
    {state last : τ} (h : x.run state = (.error .outOfFuel, last)) :
    ¬Returns x state := by
  rintro (⟨a, next, hrun⟩ | ⟨e, next, hrun⟩)
  · rw [h] at hrun
    cases hrun
  · rw [h] at hrun
    cases hrun

theorem not_wants_of_pos {code : Int} (h : 0 < code) : ¬Wants code := by
  rintro (hwants | hwants)
  · rw [hwants] at h
    exact absurd h (by decide)
  · rw [hwants] at h
    exact absurd h (by decide)

/-- One turn of the write loop. -/
theorem run_writeLoop {state next : κ × σ} {data : Bytes} {written : Int}
    (hdata : data ≠ [])
    (hrun : (perform (mbedtls.write state.1 data)).run state =
      (.ok written, next)) (fuel : Nat) :
    (writeLoop mbedtls (fuel + 1) data).run state =
      if 0 < written then
        (writeLoop mbedtls fuel (data.drop written.toNat)).run next
      else if ¬Wants written then
        (.error (.error (cryptoError "the TLS write failed")), next)
      else (writeLoop mbedtls fuel data).run next := by
  rw [writeLoop, if_neg hdata, Action.run_bind_ok (Action.run_get _),
    Action.run_bind_ok hrun]
  split
  · rfl
  · split <;> rfl

theorem run_handshakeLoop {state next : κ × σ} {result : Int}
    (hrun : (perform (mbedtls.handshake state.1)).run state =
      (.ok result, next)) (fuel : Nat) :
    (handshakeLoop mbedtls (fuel + 1)).run state =
      if result = 0 then (.ok (), next)
      else if ¬Wants result then
        (.error (.error (cryptoError "the TLS handshake failed")), next)
      else (handshakeLoop mbedtls fuel).run next := by
  rw [handshakeLoop, Action.run_bind_ok (Action.run_get _),
    Action.run_bind_ok hrun]
  split
  · rfl
  · split <;> rfl

theorem not_returns_of_handshakeMeetsDead (hlaw : mbedtls.Lawful)
    {state : κ × σ} (h : DiesWithin count state.2)
    (hmeets : HandshakeMeetsDead mbedtls state) (fuel : Nat) :
    ¬Returns (handshakeLoop mbedtls fuel) state := by
  induction hmeets generalizing fuel count with
  | @now state hnow =>
      obtain ⟨last, hrun⟩ := handshakeLoop_stuck hlaw h hnow fuel
      exact not_returns_outOfFuel hrun
  | @again state next result hrun hwants _ ih =>
      cases fuel with
      | zero => exact not_returns_outOfFuel rfl
      | succ fuel =>
          obtain ⟨code, context, calls, hperform, hended⟩ :=
            run_perform (hlaw.handshake state.1) h state.1
          rw [hrun] at hperform
          cases hperform
          have hzero : result ≠ 0 := by
            rintro rfl
            exact absurd hwants (by decide)
          have hturn := run_handshakeLoop hrun fuel
          rw [if_neg hzero, if_neg (not_not.mpr hwants)] at hturn
          have hstuck := ih (h.after calls) fuel
          rwa [Returns, hturn]

theorem not_returns_of_writeMeetsDead (hlaw : mbedtls.Lawful)
    {state : κ × σ} {data : Bytes} (h : DiesWithin count state.2)
    (hmeets : WriteMeetsDead mbedtls data state) (fuel : Nat) :
    ¬Returns (writeLoop mbedtls fuel data) state := by
  induction hmeets generalizing fuel count with
  | @now data state hdata hnow =>
      obtain ⟨last, hrun⟩ := writeLoop_stuck hlaw hdata h hnow fuel
      exact not_returns_outOfFuel hrun
  | @later data state next written hdata hrun hwritten _ ih =>
      cases fuel with
      | zero => exact not_returns_outOfFuel rfl
      | succ fuel =>
          obtain ⟨code, context, calls, hperform, hended⟩ :=
            run_perform (hlaw.write state.1 data) h state.1
          rw [hrun] at hperform
          cases hperform
          have hturn := run_writeLoop hdata hrun fuel
          rw [if_pos hwritten] at hturn
          have hstuck := ih (h.after calls) fuel
          rwa [Returns, hturn]
  | @again data state next written hdata hrun hwants _ ih =>
      cases fuel with
      | zero => exact not_returns_outOfFuel rfl
      | succ fuel =>
          obtain ⟨code, context, calls, hperform, hended⟩ :=
            run_perform (hlaw.write state.1 data) h state.1
          rw [hrun] at hperform
          cases hperform
          have hpos : ¬0 < written := fun hpos => not_wants_of_pos hpos hwants
          have hturn := run_writeLoop hdata hrun fuel
          rw [if_neg hpos, if_neg (not_not.mpr hwants)] at hturn
          have hstuck := ih (h.after calls) fuel
          rwa [Returns, hturn]

theorem DiesWithin.mono {count' : Nat} (h : DiesWithin count stream)
    (hle : count ≤ count') : DiesWithin count' stream where
  write := h.write
  read := h.read
  dead calls hwrites := h.dead calls (hle.trans hwrites)

/-- Before the link is dead, each turn that asks for another used up a write. -/
theorem returns_handshakeLoop (hlaw : mbedtls.Lawful) {state : κ × σ}
    (h : DiesWithin count state.2)
    (hmeets : ¬HandshakeMeetsDead mbedtls state) :
    ∃ fuel, Returns (handshakeLoop mbedtls fuel) state := by
  induction count generalizing state with
  | zero =>
      obtain ⟨code, context, calls, hrun, hended⟩ :=
        run_perform (hlaw.handshake state.1) h state.1
      have hcode : ¬Wants code := fun hwants =>
        hmeets (.now (hended.dead hwants (h.dead [] (Nat.le_refl 0))))
      refine ⟨1, ?_⟩
      rw [Returns, run_handshakeLoop hrun, if_pos hcode]
      split
      · exact .inl ⟨_, _, rfl⟩
      · exact .inr ⟨_, _, rfl⟩
  | succ count ih =>
      obtain ⟨code, context, calls, hrun, hended⟩ :=
        run_perform (hlaw.handshake state.1) h state.1
      by_cases hcode : Wants code
      · obtain ⟨rfl, hused, -⟩ := hended.wants hcode
        obtain ⟨fuel, hreturns⟩ := @ih (context, afterCalls calls state.2)
          ((h.after calls).mono (by omega))
          (fun hlater => hmeets (.again hrun hcode hlater))
        refine ⟨fuel + 1, ?_⟩
        rw [Returns, run_handshakeLoop hrun, if_neg (by decide),
          if_neg (by decide)]
        exact hreturns
      · refine ⟨1, ?_⟩
        rw [Returns, run_handshakeLoop hrun, if_pos hcode]
        split
        · exact .inl ⟨_, _, rfl⟩
        · exact .inr ⟨_, _, rfl⟩

/-- Each turn of the write loop takes some data or uses up a write. -/
theorem returns_writeLoop (hlaw : mbedtls.Lawful) {state : κ × σ} {data : Bytes}
    {total : Nat} (htotal : data.length + count ≤ total)
    (h : DiesWithin count state.2)
    (hmeets : ¬WriteMeetsDead mbedtls data state) :
    ∃ fuel, Returns (writeLoop mbedtls fuel data) state := by
  induction total generalizing state data count with
  | zero =>
      have hdata : data = [] := List.eq_nil_of_length_eq_zero (by omega)
      subst hdata
      exact ⟨1, .inl ⟨_, _, rfl⟩⟩
  | succ total ih =>
      by_cases hdata : data = []
      · subst hdata
        exact ⟨1, .inl ⟨_, _, rfl⟩⟩
      obtain ⟨code, context, calls, hrun, hended⟩ :=
        run_perform (hlaw.write state.1 data) h state.1
      by_cases hpos : 0 < code
      · have hlength : (data.drop code.toNat).length < data.length := by
          have hne := List.length_pos_iff.mpr hdata
          rw [List.length_drop]
          omega
        obtain ⟨fuel, hreturns⟩ := @ih (count - writes calls)
          (context, afterCalls calls state.2) (data.drop code.toNat) (by omega)
          (h.after calls) (fun hlater => hmeets (.later hdata hrun hpos hlater))
        refine ⟨fuel + 1, ?_⟩
        rw [Returns, run_writeLoop hdata hrun, if_pos hpos]
        exact hreturns
      by_cases hcode : Wants code
      · obtain ⟨-, hused, -⟩ := hended.wants hcode
        have halive : count ≠ 0 := by
          rintro rfl
          exact hmeets (.now hdata (hended.dead hcode (h.dead [] (Nat.le_refl 0))))
        obtain ⟨fuel, hreturns⟩ := @ih (count - writes calls)
          (context, afterCalls calls state.2) data (by omega) (h.after calls)
          (fun hlater => hmeets (.again hdata hrun hcode hlater))
        refine ⟨fuel + 1, ?_⟩
        rw [Returns, run_writeLoop hdata hrun, if_neg hpos,
          if_neg (not_not.mpr hcode)]
        exact hreturns
      · refine ⟨1, ?_⟩
        rw [Returns, run_writeLoop hdata hrun, if_neg hpos, if_pos hcode]
        exact .inr ⟨_, _, rfl⟩

end Calls

/-! ## A link that breaks -/

/-- A link that takes some more writes and then none. -/
structure BreakingLink where
  left : Nat

instance : ByteStream BreakingLink where
  readExact count := return List.replicate count 0
  write _ := do
    let link ← get
    if link.left = 0 then Action.fail ⟨.transport, ascii "the link is broken"⟩
    else set (⟨link.left - 1⟩ : BreakingLink)

/-- A session of `oneRecord`: whether its handshake is over, and the record that is
pending. -/
structure RecordSession where
  established : Bool := false
  pending : Bytes := []

/-- mbedTLS with one record for each write and a handshake of one message each way.
The handshake of an established session is over at once, and a session that is not
established takes no data. -/
def oneRecord : Mbedtls RecordSession where
  handshake session :=
    if session.established then .done 0 session
    else
      let record := if session.pending = [] then [0x16] else session.pending
      .send record fun code =>
        if code < 0 then .done code { session with pending := record }
        else .recv 5 fun code _ =>
          if code < 0 then .done code { session with pending := [] }
          else .done 0 { established := true }
  write session plain :=
    if session.established then
      let record := if session.pending = [] then 0x17 :: plain else session.pending
      .send record fun code =>
        if code < 0 then .done code { session with pending := record }
        else .done plain.length { session with pending := [] }
    else .done (-0x7100) session

theorem lawful_oneRecord : oneRecord.Lawful where
  handshake session := by
    rcases hestablished : session.established with _ | _
    · simp only [oneRecord, hestablished, Bool.false_eq_true, if_false]
      refine .send (fun code hcode => ?_) fun code hcode => ?_
      · rw [if_pos hcode]
        refine ⟨_, rfl, fun _ => ?_⟩
        simp only [PendingHandshake, Bool.false_eq_true, if_false]
        exact ⟨_, _, rfl⟩
      · rw [if_neg (by omega)]
        refine .recv fun answer data hanswer => ?_
        split
        · exact .done hanswer
        · exact .done (by decide)
    · simp only [oneRecord, hestablished, if_true]
      exact .done (by decide)
  write session data := by
    rcases hestablished : session.established with _ | _
    · simp only [oneRecord, hestablished, Bool.false_eq_true, if_false]
      exact .done (by decide)
    · simp only [oneRecord, hestablished, if_true]
      refine .send (fun code hcode => ?_) fun code hcode => ?_
      · rw [if_pos hcode]
        refine ⟨_, rfl, fun _ plain _ => ?_⟩
        simp only [if_true]
        exact ⟨_, _, rfl⟩
      · rw [if_neg (by omega)]
        refine .done ?_
        rintro (hwants | hwants) <;> simp [wantRead, wantWrite] at hwants

/-- A session whose handshake is over. -/
def establishedSession : RecordSession := { established := true }

theorem run_write_broken {link : BreakingLink} (h : link.left = 0)
    (data : Bytes) :
    (ByteStream.write data).run link =
      (.error (.error ⟨.transport, ascii "the link is broken"⟩), link) := by
  simp [ByteStream.write, Action.run_bind, h]

theorem run_write_left {link : BreakingLink} (h : link.left ≠ 0) (data : Bytes) :
    (ByteStream.write data).run link = (.ok (), ⟨link.left - 1⟩) := by
  simp [ByteStream.write, Action.run_bind, h]

theorem left_afterCalls (calls : List StreamCall) (link : BreakingLink) :
    (afterCalls calls link).left = link.left - writes calls := by
  induction calls generalizing link with
  | nil => rfl
  | cons call calls ih =>
      cases call with
      | readExact count => exact ih link
      | write data =>
          have hleft : ((ByteStream.write data).run link).2.left =
              link.left - 1 := by
            by_cases hzero : link.left = 0
            · rw [run_write_broken hzero, hzero]
            · rw [run_write_left hzero]
          rw [afterCalls, ih, hleft, writes, writes,
            List.countP_cons_of_pos rfl]
          omega

theorem diesWithin_breakingLink (link : BreakingLink) :
    DiesWithin link.left link where
  write calls data := by
    by_cases hzero : (afterCalls calls link).left = 0
    · exact .inr ⟨_, _, run_write_broken hzero data⟩
    · exact .inl ⟨_, _, run_write_left hzero data⟩
  read calls count := .inl ⟨_, _, rfl⟩
  dead calls hwrites calls' data := by
    have hzero : (afterCalls calls' (afterCalls calls link)).left = 0 := by
      rw [left_afterCalls, left_afterCalls]
      omega
    exact ⟨_, _, run_write_broken hzero data⟩

/-- A write of one byte on a broken link does not end. -/
theorem not_returns_brokenLink :
    DiesWithin 0 (⟨0⟩ : BreakingLink) ∧ ¬∃ fuel,
      Returns (writeLoop oneRecord fuel [1])
        (establishedSession, (⟨0⟩ : BreakingLink)) := by
  refine ⟨diesWithin_breakingLink ⟨0⟩, ?_⟩
  rintro ⟨fuel, hreturns⟩
  have hdies := diesWithin_breakingLink ⟨0⟩
  have hmeets : (oneRecord.write establishedSession [1]).MeetsDead
      (⟨0⟩ : BreakingLink) := Or.inl (hdies.dead [] (Nat.le_refl 0))
  obtain ⟨last, hrun⟩ := writeLoop_stuck lawful_oneRecord
    (List.cons_ne_nil 1 []) hdies hmeets fuel
  exact not_returns_outOfFuel hrun hreturns

section

variable {σ κ : Type} [ByteStream σ] {mbedtls : Mbedtls κ} {stream : σ}
  {count : Nat}

/-- On a link that dies at some point, each of the two loops ends after finitely many
turns if and only if mbedTLS sends nothing in it once the link is dead: the failed send
is reported as a wish to write again, which the loop grants for ever. -/
theorem returns_iff_not_meetsDead (hlaw : mbedtls.Lawful)
    (h : DiesWithin count stream) (context : κ) (data : Bytes) :
    ((∃ fuel, Returns (handshakeLoop mbedtls fuel) (context, stream)) ↔
      ¬HandshakeMeetsDead mbedtls (context, stream)) ∧
    ((∃ fuel, Returns (writeLoop mbedtls fuel data) (context, stream)) ↔
      ¬WriteMeetsDead mbedtls data (context, stream)) := by
  refine ⟨⟨?_, ?_⟩, ⟨?_, ?_⟩⟩
  · rintro ⟨fuel, hreturns⟩ hmeets
    exact not_returns_of_handshakeMeetsDead hlaw h hmeets fuel hreturns
  · exact returns_handshakeLoop hlaw h
  · rintro ⟨fuel, hreturns⟩ hmeets
    exact not_returns_of_writeMeetsDead hlaw h hmeets fuel hreturns
  · exact returns_writeLoop hlaw (Nat.le_refl _) h

end

theorem returns_iff_not_meetsDead_oneRecord :
    ((∃ fuel, Returns (handshakeLoop oneRecord fuel) ({}, (⟨1⟩ : BreakingLink))) ↔
      ¬HandshakeMeetsDead oneRecord ({}, (⟨1⟩ : BreakingLink))) ∧
    ((∃ fuel, Returns (writeLoop oneRecord fuel [1, 2])
        (establishedSession, (⟨1⟩ : BreakingLink))) ↔
      ¬WriteMeetsDead oneRecord [1, 2]
        (establishedSession, (⟨1⟩ : BreakingLink))) :=
  ⟨(returns_iff_not_meetsDead lawful_oneRecord (diesWithin_breakingLink ⟨1⟩) {}
    [1]).1,
    (returns_iff_not_meetsDead lawful_oneRecord (diesWithin_breakingLink ⟨1⟩)
      establishedSession [1, 2]).2⟩

end Ioscpp.Crypto
