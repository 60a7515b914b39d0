import Ioscpp.Crypto.Pair

/-!
# Devices

`Device::connect` asks a device for its id, pairs with it unless the pairing is
paired, saves the record, and starts a session with it.

The same pairing goes through one attempt to connect after the other.  It counts
as paired from the moment a `Pair` request is sent, so an attempt behind a refused
one starts a session with a record that no device has accepted.

## Main results

- `triple_pair`: a pairing that is not refused is trusted when it counts as paired.
- `Safe.connect`: an attempt asks for a session only with a trusted record, unless it
  was refused before.
- `pair_atomic_iff_not_refused`: when `pair` is atomic, and what holds of every run of
  attempts.
-/

namespace Ioscpp

open Ioscpp.Support
open Ioscpp.Protocol
open Ioscpp.Crypto

/-! ## Sessions -/

namespace Lockdown

/-- The request of a session names the host of the pairing. -/
def sessionRequest (pairing : Pairing) : Plist :=
  .dictionary [
    (ascii "HostID", .string pairing.hostId),
    (ascii "Request", .string (ascii "StartSession")),
    (ascii "SystemBUID", .string pairing.systemBuid)]

/-- Takes the id of the session, if there is one. -/
def withSession (answer : Plist) (pairing : Pairing) : Pairing :=
  match answer.find (ascii "SessionID") with
  | some (.string sessionId) => { pairing with sessionId := sessionId }
  | _ => pairing

def enablesSsl (answer : Plist) : Bool :=
  match answer.find (ascii "EnableSessionSSL") with
  | some (.boolean value) => value
  | _ => false

/-- Starts a session, over TLS if the device says so; the TLS session becomes part
of the state of `lockdownd`. -/
def startSession {σ : Type} [LockdownRequests σ]
    (startTls : Pairing → Action Error σ Unit) :
    Action Error (σ × Pairing) Unit := do
  let state ← get
  let answer ← onLockdown (LockdownRequests.request (sessionRequest state.2))
  onPairing (withSession answer)
  if enablesSsl answer then do
    let state ← get
    onLockdown (startTls state.2)
  else return ()

end Lockdown

/-! ## Connecting -/

/-- What is known of a device. -/
structure Device where
  udid : Bytes := []
  productType : Bytes := []
  productVersion : Bytes := []
  deriving DecidableEq, Repr

namespace Device

/-- The text of an answer, empty for another value, or else what was there. -/
def valueOr (fallback : Bytes) (answer : Result Plist) : Bytes :=
  match answer with
  | .ok answer =>
      match answer.find (ascii "Value") with
      | some value => value.stringOr []
      | none => fallback
  | .error _ => fallback

def withUdid (answer : Result Plist) (pairing : Pairing) : Pairing :=
  { pairing with udid := valueOr pairing.udid answer }

section Connect

variable {σ Key : Type} [LockdownRequests σ]

/-- An operation of `lockdownd` and the pairing, beside the files. -/
def onRecord {α : Type} (x : Action Error (σ × Pairing) α) :
    Action Error (σ × Pairing × Pairing.Files) α :=
  Action.zoom (fun state => (state.1, state.2.1))
    (fun state part => (part.1, part.2, state.2.2)) x

def save (writes : Pairing.Writes) :
    Action Error (σ × Pairing × Pairing.Files) Unit :=
  fun state =>
    let saved := state.2.1.save writes state.2.2
    (saved.1, state.1, state.2.1, saved.2)

/-- The steps of `connect` before the session.  `opened` is how the connection,
its stream and `lockdownd` on it were opened. -/
def prepare (opened : Except Error Unit) (writer : CertificateWriter Key)
    (beforeDeadline : Nat) (writes : Pairing.Writes) :
    Action Error (σ × Pairing × Pairing.Files) Unit := do
  Action.lift (ofExcept opened)
  let udid ← Action.outcome
    (onLockdown (getValue [] (ascii "UniqueDeviceID")))
  onRecord (onPairing (withUdid udid))
  let state ← get
  if state.2.1.paired then return ()
  else do
    onRecord (pair writer beforeDeadline)
    save writes

/-- The steps of `connect` from the session on. -/
def finish (startTls : Pairing → Action Error σ Unit) :
    Action Error (σ × Pairing × Pairing.Files) Device := do
  onRecord (Lockdown.startSession startTls)
  let productType ← Action.outcome
    (onLockdown (getValue [] (ascii "ProductType")))
  let productVersion ← Action.outcome
    (onLockdown (getValue [] (ascii "ProductVersion")))
  let state ← get
  return {
    udid := state.2.1.udid
    productType := valueOr [] productType
    productVersion := valueOr [] productVersion }

def connect (opened : Except Error Unit) (writer : CertificateWriter Key)
    (beforeDeadline : Nat) (writes : Pairing.Writes)
    (startTls : Pairing → Action Error σ Unit) :
    Action Error (σ × Pairing × Pairing.Files) Device := do
  prepare opened writer beforeDeadline writes
  finish startTls

end Connect

/-! ## Attempts to connect -/

/-- What one attempt to connect meets: whether the device is reached, its answers in
their order, mbedTLS, the turns up to the deadline of pairing, what becomes of the
record's file, and of the TLS handshake. -/
structure Attempt (Key : Type) where
  opened : Except Error Unit := .ok ()
  answers : List (Except Error Plist)
  writer : CertificateWriter Key
  beforeDeadline : Nat := 0
  writes : Pairing.Writes
  tls : Pairing → Except Error Unit := fun _ => .ok ()

namespace Attempt

variable {Key : Type} (attempt : Attempt Key)

/-- The attempt up to the session, from the pairing and the files. -/
def prepared (host : Pairing × Pairing.Files) :
    Result Unit × ScriptedLockdown × Pairing × Pairing.Files :=
  (prepare attempt.opened attempt.writer attempt.beforeDeadline
    attempt.writes).run ({ answers := attempt.answers }, host)

/-- The whole attempt. -/
def connected (host : Pairing × Pairing.Files) :
    Result Device × ScriptedLockdown × Pairing × Pairing.Files :=
  (connect attempt.opened attempt.writer attempt.beforeDeadline attempt.writes
    fun pairing => Action.lift (ofExcept (attempt.tls pairing))).run
      ({ answers := attempt.answers }, host)

/-- The device is reached and refuses to pair.  Its first answer is its id. -/
def Refused : Prop :=
  attempt.opened.isOk = true ∧
    Crypto.Refused attempt.writer attempt.beforeDeadline attempt.answers.tail

instance instDecidableRefused : Decidable attempt.Refused :=
  inferInstanceAs (Decidable (_ ∧ _))

end Attempt

/-- The message is a `StartSession` request. -/
def isStartSession (message : Plist) : Bool :=
  match message.find (ascii "Request") with
  | some (.string text) => text = ascii "StartSession"
  | _ => false

/-- What the attempts so far have led to: the pairing, the files, the exchanges
with all devices, and each sent `StartSession`, as the pairing that it was sent with
and the exchanges before it. -/
structure History where
  pairing : Pairing
  files : Pairing.Files
  exchanges : List Exchange := []
  sessions : List (Pairing × List Exchange) := []

namespace History

variable {Key : Type}

/-- One more attempt. -/
def connect (attempt : Attempt Key) (history : History) : History :=
  let prepared := attempt.prepared (history.pairing, history.files)
  let connected := attempt.connected (history.pairing, history.files)
  { pairing := connected.2.2.1
    files := connected.2.2.2
    exchanges := history.exchanges ++ connected.2.1.exchanges
    sessions :=
      if connected.2.1.exchanges.any fun exchange => isStartSession exchange.1 then
        history.sessions ++
          [(prepared.2.2.1, history.exchanges ++ prepared.2.1.exchanges)]
      else history.sessions }

def connectAll : List (Attempt Key) → History → History
  | [], history => history
  | attempt :: rest, history => connectAll rest (connect attempt history)

/-- No attempt that has to pair is refused. An attempt with a pairing that counts as
paired makes no `Pair` request. -/
def Unrefused : List (Attempt Key) → History → Prop
  | [], _ => True
  | attempt :: rest, history =>
      (history.pairing.paired = false → ¬ attempt.Refused) ∧
        Unrefused rest (connect attempt history)

end History

/-- What an operation keeps of `lockdownd` and the pairing. -/
theorem keeps_onRecord {I : ScriptedLockdown × Pairing → Prop} {α : Type}
    {x : Action Error (ScriptedLockdown × Pairing) α} (h : Action.Keeps I x) :
    Action.Keeps (fun state : ScriptedLockdown × Pairing × Pairing.Files =>
      I (state.1, state.2.1)) (onRecord x) :=
  h.zoom fun _ _ => rfl

/-- What an operation does from one state of both. -/
theorem triple_onRecord {lockdown : ScriptedLockdown} {pairing : Pairing}
    {α : Type} {x : Action Error (ScriptedLockdown × Pairing) α}
    {Q : α → ScriptedLockdown × Pairing → Prop}
    {E : Fault Error → ScriptedLockdown × Pairing → Prop}
    (h : Action.Triple (fun state => state = (lockdown, pairing)) x Q E)
    (files : Pairing.Files) :
    Action.Triple (fun state => state = (lockdown, pairing, files)) (onRecord x)
      (fun a state => Q a (state.1, state.2.1))
      (fun fault state => E fault (state.1, state.2.1)) := by
  apply Action.Triple.zoom
  intro state hstate
  rw [hstate]
  exact h

/-- Writing a record changes the files only. -/
theorem keeps_save {I : ScriptedLockdown × Pairing × Pairing.Files → Prop}
    (h : ∀ state files, I state → I (state.1, state.2.1, files))
    (writes : Pairing.Writes) : Action.Keeps I (save writes) :=
  Action.Keeps.of_state fun state hI => h state _ hI

theorem run_onRecord_onPairing (f : Pairing → Pairing)
    (lockdown : ScriptedLockdown) (pairing : Pairing) (files : Pairing.Files) :
    (onRecord (onPairing f)).run (lockdown, pairing, files) =
      (.ok (), (lockdown, f pairing, files)) := rfl

/-! ## What is asked before a session -/

section Asked

open ScriptedLockdown

/-- No request so far was for a session. -/
def NoSession (lockdown : ScriptedLockdown) : Prop :=
  ∀ exchange ∈ lockdown.exchanges, isStartSession exchange.1 = false

theorem NoSession.exchange {lockdown : ScriptedLockdown}
    (h : NoSession lockdown) {message : Plist}
    (hmessage : isStartSession message = false) :
    NoSession (lockdown.exchange message) := by
  intro exchange hmem
  rcases List.mem_append.mp hmem with hmem | hmem
  · exact h exchange hmem
  · rw [List.mem_singleton.mp hmem]
    exact hmessage

theorem isStartSession_sessionRequest (pairing : Pairing) :
    isStartSession (Lockdown.sessionRequest pairing) = true := by
  have hhost : ascii "HostID" ≠ ascii "Request" := by decide +kernel
  unfold isStartSession Lockdown.sessionRequest
  simp [Plist.find, SortedMap.find, hhost]

theorem isStartSession_pairRequest (pairing : Pairing) :
    isStartSession (pairRequest pairing) = false := by
  have hrecord : ascii "PairRecord" ≠ ascii "Request" := by decide +kernel
  have hoptions : ascii "PairingOptions" ≠ ascii "Request" := by decide +kernel
  have hversion : ascii "ProtocolVersion" ≠ ascii "Request" := by decide +kernel
  have hpair : ascii "Pair" ≠ ascii "StartSession" := by decide +kernel
  unfold isStartSession pairRequest
  simp [Plist.find, SortedMap.find, hrecord, hoptions, hversion, hpair]

variable {τ Key : Type}

theorem keeps_request {message : Plist} (h : isStartSession message = false) :
    Action.Keeps NoSession (LockdownRequests.request message) :=
  Action.Keeps.of_state fun _ hstate => hstate.exchange h

theorem keeps_pairLoop {message : Plist} (h : isStartSession message = false)
    (beforeDeadline : Nat) :
    Action.Keeps NoSession (pairLoop message beforeDeadline) := by
  induction beforeDeadline with
  | zero => exact keeps_request h
  | succ beforeDeadline ih =>
      apply (keeps_request h).outcome.bind
      intro result
      match result with
      | .ok answer => exact Action.keeps_pure _
      | .error (.error error) => exact Action.keeps_ite ih (Action.keeps_fail _)
      | .error .outOfBounds => exact Action.keeps_lift _
      | .error .exception => exact Action.keeps_lift _
      | .error .outOfFuel => exact Action.keeps_lift _

/-- An operation of `lockdownd` alone. -/
theorem keeps_onLockdown {α : Type} {x : Action Error ScriptedLockdown α}
    (h : Action.Keeps NoSession x) :
    Action.Keeps (fun state : ScriptedLockdown × τ => NoSession state.1)
      (onLockdown x) :=
  h.zoom fun _ _ => rfl

theorem keeps_onPairing (f : Pairing → Pairing) :
    Action.Keeps (fun state : ScriptedLockdown × Pairing => NoSession state.1)
      (onPairing f) :=
  Action.keeps_modify fun _ h => h

theorem keeps_pair (writer : CertificateWriter Key) (beforeDeadline : Nat) :
    Action.Keeps (fun state : ScriptedLockdown × Pairing => NoSession state.1)
      (pair writer beforeDeadline) := by
  apply (keeps_onLockdown (keeps_request (by decide +kernel))).bind
  intro answer
  apply (Action.keeps_lift _).bind
  intro key
  apply (Action.keeps_lift _).bind
  intro chain
  apply (keeps_onPairing _).bind
  intro _
  apply (keeps_onLockdown (keeps_request (by decide +kernel))).outcome.bind
  intro wifi
  apply (keeps_onPairing _).bind
  intro _
  apply Action.Keeps.get_bind
  intro state
  apply (keeps_onLockdown
    (keeps_pairLoop (isStartSession_pairRequest _) _)).bind
  intro answer
  apply (keeps_onPairing _).bind
  intro _
  apply Action.Keeps.get_bind
  intro state
  exact Action.keeps_ite (Action.keeps_fail _) (Action.keeps_pure _)

theorem keeps_prepare (opened : Except Error Unit)
    (writer : CertificateWriter Key) (beforeDeadline : Nat)
    (writes : Pairing.Writes) :
    Action.Keeps (fun state : ScriptedLockdown × Pairing × Pairing.Files =>
      NoSession state.1) (prepare opened writer beforeDeadline writes) := by
  apply (Action.keeps_lift _).bind
  intro _
  apply (keeps_onLockdown (keeps_request (by decide +kernel))).outcome.bind
  intro udid
  apply (keeps_onRecord (keeps_onPairing _)).bind
  intro _
  apply Action.Keeps.get_bind
  intro state
  apply Action.keeps_ite (Action.keeps_pure _)
  apply (keeps_onRecord (keeps_pair _ _)).bind
  intro _
  exact keeps_save (fun _ _ h => h) writes

end Asked

/-! ## Trust -/

/-- The records are the same but for the device's id and the session. -/
def SameRecord (pairing other : Pairing) : Prop :=
  { pairing with udid := other.udid, sessionId := other.sessionId } = other

/-- The pairing was paired when it was loaded, or a device has accepted a `Pair`
request with it, and it has taken the answer. -/
def Trusted (loaded : Pairing) (exchanges : List Exchange) (pairing : Pairing) :
    Prop :=
  (loaded.paired = true ∧ SameRecord pairing loaded) ∨
    ∃ sent answer, (pairRequest sent, .ok answer) ∈ exchanges ∧
      SameRecord pairing (sent.adopt answer)

section Trust

open ScriptedLockdown

variable {loaded pairing : Pairing} {before exchanges : List Exchange}

theorem SameRecord.withUdid {other : Pairing} (h : SameRecord pairing other)
    (answer : Result Plist) : SameRecord (withUdid answer pairing) other := h

theorem SameRecord.withSession {other : Pairing} (h : SameRecord pairing other)
    (answer : Plist) : SameRecord (Lockdown.withSession answer pairing) other := by
  unfold Lockdown.withSession
  split
  · exact h
  · exact h

theorem Trusted.imp (h : Trusted loaded exchanges pairing)
    {exchanges' : List Exchange} {pairing' : Pairing}
    (hmem : ∀ exchange ∈ exchanges, exchange ∈ exchanges')
    (hsame : ∀ other, SameRecord pairing other → SameRecord pairing' other) :
    Trusted loaded exchanges' pairing' := by
  rcases h with ⟨hloaded, hpairing⟩ | ⟨sent, answer, hsent, hpairing⟩
  · exact .inl ⟨hloaded, hsame _ hpairing⟩
  · exact .inr ⟨sent, answer, hmem _ hsent, hsame _ hpairing⟩

/-- A pairing that counts as paired is trusted. -/
def TrustedIfPaired (loaded : Pairing) (exchanges : List Exchange)
    (pairing : Pairing) : Prop :=
  pairing.paired = true → Trusted loaded exchanges pairing

theorem paired_withSession (answer : Plist) :
    (Lockdown.withSession answer pairing).paired = pairing.paired := by
  unfold Lockdown.withSession
  split
  · rfl
  · rfl

/-- What a session and the requests behind it keep. -/
def Good (loaded : Pairing) (before : List Exchange)
    (state : ScriptedLockdown × Pairing) : Prop :=
  TrustedIfPaired loaded (before ++ state.1.exchanges) state.2

theorem Good.exchange {lockdown : ScriptedLockdown}
    (h : Good loaded before (lockdown, pairing)) (message : Plist) :
    Good loaded before (lockdown.exchange message, pairing) := by
  intro hpaired
  apply (h hpaired).imp _ fun _ h => h
  intro exchange hmem
  show exchange ∈ before ++ (lockdown.exchanges ++ _)
  rw [← List.append_assoc]
  exact List.mem_append_left _ hmem

theorem keeps_startSession (tls : Pairing → Except Error Unit) :
    Action.Keeps (Good loaded before)
      (Lockdown.startSession fun pairing => Action.lift (ofExcept (tls pairing))) := by
  apply Action.Keeps.get_bind
  intro state
  apply (Action.Keeps.of_state fun _ h => h.exchange _).bind
  intro answer
  apply (Action.keeps_modify _).bind
  · intro _
    apply Action.keeps_ite _ (Action.keeps_pure _)
    apply Action.Keeps.get_bind
    intro state
    exact Action.Keeps.of_state fun _ h => h
  · intro state h hpaired
    rw [paired_withSession] at hpaired
    exact (h hpaired).imp (fun _ hmem => hmem) fun _ hsame =>
      hsame.withSession answer

theorem keeps_getValue (domain key : Bytes) :
    Action.Keeps (fun state : ScriptedLockdown × Pairing × Pairing.Files =>
        Good loaded before (state.1, state.2.1))
      (onLockdown (getValue domain key)) :=
  Action.Keeps.of_state fun _ h => h.exchange (getValueRequest domain key)

theorem keeps_finish (tls : Pairing → Except Error Unit) :
    Action.Keeps (fun state : ScriptedLockdown × Pairing × Pairing.Files =>
        Good loaded before (state.1, state.2.1))
      (finish fun pairing => Action.lift (ofExcept (tls pairing))) := by
  apply (keeps_onRecord (keeps_startSession tls)).bind
  intro _
  apply (keeps_getValue _ _).outcome.bind
  intro productType
  apply (keeps_getValue _ _).outcome.bind
  intro productVersion
  apply Action.Keeps.get_bind
  intro state
  exact Action.keeps_pure _

/-- A pairing that is not refused is trusted when it counts as paired, which it does
when `pair` succeeds. -/
theorem triple_pair {Key : Type} (loaded : Pairing) (before : List Exchange)
    (pairing : Pairing) (writer : CertificateWriter Key)
    (beforeDeadline : Nat) (lockdown : ScriptedLockdown)
    (hpairing : pairing.paired = false)
    (hrefused : ¬ Crypto.Refused writer beforeDeadline lockdown.answers) :
    Action.Triple (fun state => state = (lockdown, pairing))
      (pair writer beforeDeadline)
      (fun _ state => Good loaded before state ∧ state.2.paired = true)
      (fun _ => Good loaded before) := by
  intro state hstate
  rw [hstate]
  cases hchain : chainOf writer lockdown.answers with
  | error error =>
      obtain ⟨next, hrun⟩ := run_pair_of_error beforeDeadline pairing hchain
      rw [hrun]
      intro hpaired
      exact absurd hpaired (by rw [hpairing]; exact Bool.false_ne_true)
  | ok chain =>
      cases hlast : lastAnswer beforeDeadline lockdown.answers.tail.tail with
      | error error =>
          exact absurd ⟨by rw [hchain]; rfl, by rw [hlast]; rfl⟩ hrefused
      | ok answer =>
          obtain ⟨next, hrun, hmem⟩ :=
            run_pair_answered beforeDeadline pairing hchain hlast
          rw [hrun, run_takeAnswer]
          have hgood : Good loaded before
              (next, (readyToPair lockdown.answers chain pairing).adopt answer) :=
            fun _ => .inr ⟨_, answer, List.mem_append_right _ hmem, rfl⟩
          split_ifs with hempty
          · exact hgood
          · exact ⟨hgood, paired_iff.mpr hempty⟩

/-- The request for the id of the device. -/
def idRequest : Plist := getValueRequest [] (ascii "UniqueDeviceID")

variable {Key : Type} {opened : Except Error Unit}
  {writer : CertificateWriter Key} {beforeDeadline : Nat}
  {lockdown : ScriptedLockdown}

theorem triple_prepare (hgood : Good loaded before (lockdown, pairing))
    (hrefused : pairing.paired = false → ¬ (opened.isOk = true ∧
      Crypto.Refused writer beforeDeadline lockdown.answers.tail))
    (files : Pairing.Files) (writes : Pairing.Writes) :
    Action.Triple (fun state => state = (lockdown, pairing, files))
      (prepare opened writer beforeDeadline writes)
      (fun _ state => Good loaded before (state.1, state.2.1) ∧
        state.2.1.paired = true)
      (fun _ state => Good loaded before (state.1, state.2.1)) := by
  cases opened with
  | error error =>
      intro state hstate
      rw [hstate]
      exact hgood
  | ok _ =>
      apply Action.Triple.lift_ok_bind
      apply Action.Triple.bind_of_run (run_outcome_getValue _ _ _ _)
      apply Action.Triple.bind_of_run (run_onRecord_onPairing _ _ _ _)
      apply Action.Triple.get_bind
      intro state hstate
      rw [hstate]
      have hnamed := hgood.exchange (getValueRequest [] (ascii "UniqueDeviceID"))
      apply Action.Triple.ite
      · intro hpaired
        apply Action.Triple.pure
        intro state hstate
        rw [hstate]
        exact ⟨hnamed, hpaired⟩
      · intro hunpaired
        have hfalse : pairing.paired = false :=
          Bool.eq_false_of_not_eq_true hunpaired
        have hpair := triple_pair loaded before
          (withUdid (ofExcept (nextAnswer lockdown.answers)) pairing) writer
          beforeDeadline (lockdown.exchange idRequest) hfalse
          fun h => hrefused hfalse ⟨rfl, h⟩
        apply (triple_onRecord hpair files).bind
        intro _
        apply (keeps_save (fun _ _ h => h) writes).imp_post
        · exact fun _ _ h => h
        · exact fun _ _ h => h.1

end Trust

/-! ## Whole runs -/

namespace History

variable {Key : Type} {loaded : Pairing} {attempt : Attempt Key}
  {history : History}

/-- Every session was started with a trusted record, and the next one will be. -/
structure Safe (loaded : Pairing) (history : History) : Prop where
  sessions : ∀ session ∈ history.sessions, Trusted loaded session.2 session.1
  pairing : TrustedIfPaired loaded history.exchanges history.pairing

theorem good_start (h : Safe loaded history) :
    Good loaded history.exchanges
      ({ answers := attempt.answers }, history.pairing) := by
  show TrustedIfPaired loaded (history.exchanges ++ []) history.pairing
  rw [List.append_nil]
  exact h.pairing

theorem mem_sessions_connect {session : Pairing × List Exchange}
    (h : session ∈ (connect attempt history).sessions) :
    session ∈ history.sessions ∨
      (∃ exchange ∈ (attempt.connected
          (history.pairing, history.files)).2.1.exchanges,
        isStartSession exchange.1 = true) ∧
      session = ((attempt.prepared (history.pairing, history.files)).2.2.1,
        history.exchanges ++
          (attempt.prepared (history.pairing, history.files)).2.1.exchanges) := by
  unfold connect at h
  dsimp only at h
  split at h
  · rename_i hany
    rcases List.mem_append.mp h with hmem | hmem
    · exact .inl hmem
    · exact .inr ⟨List.any_eq_true.mp hany, List.mem_singleton.mp hmem⟩
  · exact .inl h

/-- One attempt: it fails before a session, of which none was asked for then, or it
goes on with a trusted record. -/
theorem Safe.connect (h : Safe loaded history)
    (hrefused : history.pairing.paired = false → ¬ attempt.Refused) :
    Safe loaded (connect attempt history) := by
  have hprepare := triple_prepare (good_start h) hrefused history.files
    attempt.writes _ rfl
  have hquiet : NoSession ((prepare attempt.opened attempt.writer
      attempt.beforeDeadline attempt.writes).run
        (({ answers := attempt.answers } : ScriptedLockdown), history.pairing,
          history.files)).2.1 :=
    (keeps_prepare attempt.opened attempt.writer attempt.beforeDeadline
      attempt.writes).state fun _ hmem => nomatch hmem
  rcases hrun : (prepare attempt.opened attempt.writer attempt.beforeDeadline
      attempt.writes).run (({ answers := attempt.answers } : ScriptedLockdown),
        history.pairing, history.files) with ⟨fault | _, next⟩
  · rw [hrun] at hprepare hquiet
    have hconnected : attempt.connected (history.pairing, history.files) =
        (.error fault, next) := Action.run_bind_error hrun
    constructor
    · intro session hmem
      rcases mem_sessions_connect hmem with hold | ⟨⟨exchange, hasked, hstart⟩, -⟩
      · exact h.sessions session hold
      · rw [hconnected] at hasked
        rw [hquiet exchange hasked] at hstart
        cases hstart
    · show TrustedIfPaired loaded (history.exchanges ++ (attempt.connected
        (history.pairing, history.files)).2.1.exchanges) (attempt.connected
        (history.pairing, history.files)).2.2.1
      rw [hconnected]
      exact hprepare
  · rw [hrun] at hprepare
    have hprepared : attempt.prepared (history.pairing, history.files) =
        (.ok (), next) := hrun
    have hconnected : attempt.connected (history.pairing, history.files) =
        (finish fun pairing =>
          Action.lift (ofExcept (attempt.tls pairing))).run next :=
      Action.run_bind_ok hrun
    constructor
    · intro session hmem
      rcases mem_sessions_connect hmem with hold | ⟨-, hsession⟩
      · exact h.sessions session hold
      · rw [hsession, hprepared]
        exact hprepare.1 hprepare.2
    · show TrustedIfPaired loaded (history.exchanges ++ (attempt.connected
        (history.pairing, history.files)).2.1.exchanges) (attempt.connected
        (history.pairing, history.files)).2.2.1
      rw [hconnected]
      exact (keeps_finish attempt.tls).state hprepare.1

theorem Safe.connectAll {attempts : List (Attempt Key)}
    (h : Safe loaded history) (hunrefused : Unrefused attempts history) :
    Safe loaded (connectAll attempts history) := by
  induction attempts generalizing history with
  | nil => exact h
  | cons attempt rest ih => exact ih (h.connect hunrefused.1) hunrefused.2

/-- A pairing that was loaded, before any attempt. -/
theorem safe_loaded (pairing : Pairing) (files : Pairing.Files) :
    Safe pairing { pairing, files } where
  sessions := nofun
  pairing := fun hpaired => .inl ⟨hpaired, rfl⟩

end History

/-! ## Refused requests -/

section Refused

variable {Key : Type}

/-- If certificates have bytes, an error of `pair` leaves the pairing unpaired
exactly if the key or the chain cannot be had or the last `Pair` request is not
refused.  And in a run of attempts that share a pairing, of which none that has to
pair ends refused, sessions are asked for with trusted records only. -/
theorem pair_atomic_iff_not_refused {writer : CertificateWriter Key}
    (hwriter : writer.WritesBytes) :
    (∀ beforeDeadline (lockdown : ScriptedLockdown) (pairing : Pairing),
      pairing.paired = false →
      ((∀ fault, ((pair writer beforeDeadline).run (lockdown, pairing)).1 =
          .error fault →
        ((pair writer beforeDeadline).run (lockdown, pairing)).2.2.paired =
          false) ↔
        ¬ Crypto.Refused writer beforeDeadline lockdown.answers)) ∧
    ∀ pairing files (attempts : List (Attempt Key)),
      History.Unrefused attempts { pairing, files } →
        ∀ session ∈ (History.connectAll attempts { pairing, files }).sessions,
          Trusted pairing session.2 session.1 := by
  constructor
  · intro beforeDeadline lockdown pairing hpairing
    exact paired_of_error_iff beforeDeadline lockdown pairing hwriter hpairing
  · intro pairing files attempts hunrefused
    exact ((History.safe_loaded pairing files).connectAll hunrefused).sessions

/-! ## Examples -/

/-- Certificates of one byte. -/
private def oneByte : CertificateWriter Unit where
  generateKeyPair _ := .ok ()
  parsePublicKey _ := some ()
  writeCertificate _ _ _ _ := .ok [0x30]
  writeKey _ := .ok [0x31]

private theorem writesBytes_oneByte : oneByte.WritesBytes := by
  intro _ _ _ _ bytes h
  cases h
  exact List.cons_ne_nil _ _

private def keyAnswer : Plist := .dictionary [(ascii "Value", .data [0x32])]

private def denied : Error := ⟨.device, ascii "UserDeniedPairing"⟩

/-- A device that answers the request to pair so. -/
private def pairs (answer : Except Error Plist) : Attempt Unit where
  answers := [.error denied, .ok keyAnswer, .error denied, answer]
  writer := oneByte
  writes := .wrote 0

/-- A device that answers nothing. -/
private def silent : ScriptedLockdown where
  answers := []

/-- The first device accepts, and no session is started as the record cannot be
written; the second attempt starts one. -/
private def accepted : List (Attempt Unit) :=
  [pairs (.ok (.dictionary [])), pairs (.error denied)]

theorem pair_atomic_iff_not_refused_accepted :
    (∀ fault, ((pair oneByte 0).run (silent, {})).1 = .error fault →
        ((pair oneByte 0).run (silent, {})).2.2.paired = false) ∧
      ∀ session ∈ (History.connectAll accepted
          { pairing := {}, files := fun _ => none }).sessions,
        Trusted {} session.2 session.1 := by
  obtain ⟨hpair, hsessions⟩ := pair_atomic_iff_not_refused writesBytes_oneByte
  constructor
  · exact (hpair 0 silent {} rfl).mpr (by decide +kernel)
  · apply hsessions {} (fun _ => none) accepted
    exact ⟨fun _ => by decide +kernel, fun h => absurd h (by decide +kernel),
      trivial⟩

/-- The first device refuses, and the second attempt starts a session. -/
private def refused : List (Attempt Unit) :=
  [pairs (.error denied), pairs (.error denied)]

private def afterRefused : History :=
  History.connectAll refused { pairing := {}, files := fun _ => none }

/-- The device behind its id. -/
private def denying : ScriptedLockdown where
  answers := (pairs (.error denied)).answers.tail

theorem find_pairRequest (pairing : Pairing) :
    (pairRequest pairing).find (ascii "PairRecord") =
      some (pairRecord pairing) := by
  unfold pairRequest Plist.find SortedMap.find
  exact if_pos rfl

/-- Without a `Pair` request that is accepted no record becomes trusted. -/
theorem not_trusted_of_exchanges {loaded pairing : Pairing}
    {exchanges : List Exchange} (hloaded : loaded.paired = false)
    (h : ∀ exchange ∈ exchanges, exchange.2.isOk = true →
      (exchange.1.find (ascii "PairRecord")).isNone = true) :
    ¬ Trusted loaded exchanges pairing := by
  intro htrusted
  rcases htrusted with ⟨hpaired, -⟩ | ⟨sent, answer, hmem, -⟩
  · rw [hloaded] at hpaired
    cases hpaired
  · have hnone := h _ hmem rfl
    rw [find_pairRequest] at hnone
    cases hnone

/-- The device denies the request: `pair` returns an error, the pairing is paired,
and the next attempt starts a session with a record that nobody has accepted. -/
theorem not_atomic_refused :
    oneByte.WritesBytes ∧ ({} : Pairing).paired = false ∧
      ((pair oneByte 0).run (denying, {})).1.isOk = false ∧
      ((pair oneByte 0).run (denying, {})).2.2.paired = true ∧
      ∃ session ∈ afterRefused.sessions, ¬ Trusted {} session.2 session.1 := by
  refine ⟨writesBytes_oneByte, rfl, by decide +kernel, by decide +kernel, ?_⟩
  have hsent : afterRefused.sessions ≠ [] := by decide +kernel
  have hexchanges : ∀ session ∈ afterRefused.sessions, ∀ exchange ∈ session.2,
      exchange.2.isOk = true →
        (exchange.1.find (ascii "PairRecord")).isNone = true := by decide +kernel
  obtain ⟨session, hmem⟩ := List.exists_mem_of_ne_nil _ hsent
  exact ⟨session, hmem, not_trusted_of_exchanges rfl (hexchanges session hmem)⟩

end Refused

end Device

end Ioscpp
