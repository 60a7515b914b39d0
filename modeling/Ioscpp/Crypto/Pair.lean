import Ioscpp.Crypto.Pairing
import Ioscpp.Crypto.TlsSession
import Ioscpp.Lockdown
import Ioscpp.Support.ActionTriple

/-!
# Pairing with a device

`pair` asks `lockdownd` for the key of the device, makes the certificates of a
pairing record with it, and sends the record in a `Pair` request.  A locked device
and one without trust refuse it with errors of their own, so the request is
repeated until a deadline.

The certificates are stored in the pairing before the request is sent, the one for
the device among them, and that is the one `paired` looks at.

## Main results

- `run_pair_refused`, `run_pair_answered`: what `pair` leaves in the pairing, by its
  last answer.
- `paired_of_error_iff`: an error leaves the pairing unpaired exactly if the `Pair`
  request was not refused.
-/

namespace Ioscpp.Crypto

open Ioscpp.Support
open Ioscpp.Protocol

/-! ## The certificate chain -/

/-- The calls into mbedTLS that make keys and certificates.  A key pair is drawn
anew by each call, so the calls have numbers. -/
structure CertificateWriter (Key : Type) where
  generateKeyPair : Nat → Except Error Key
  parsePublicKey : Bytes → Option Key
  writeCertificate : (subject issuer : Key) → (isCa hasKeyUsage : Bool) →
    Except Error Bytes
  writeKey : Key → Except Error Bytes

/-- The certificates and keys of a `Pair` request. -/
structure Chain where
  rootCertificate : Bytes
  rootPrivateKey : Bytes
  hostCertificate : Bytes
  hostPrivateKey : Bytes
  deviceCertificate : Bytes

namespace CertificateWriter

variable {Key : Type} (writer : CertificateWriter Key)

/-- A certificate that is written has bytes. A pairing counts as paired exactly when the
device's certificate in its record has some. -/
def WritesBytes : Prop :=
  ∀ subject issuer isCa hasKeyUsage bytes,
    writer.writeCertificate subject issuer isCa hasKeyUsage = .ok bytes →
      bytes ≠ []

/-- The certificates and keys, of which any can fail. -/
def writeChain (rootKey hostKey deviceKey : Key) : Except Error Chain := do
  let rootCertificate ← writer.writeCertificate rootKey rootKey true false
  let hostCertificate ← writer.writeCertificate hostKey rootKey false true
  let deviceCertificate ← writer.writeCertificate deviceKey rootKey false true
  let rootPrivateKey ← writer.writeKey rootKey
  let hostPrivateKey ← writer.writeKey hostKey
  return {
    rootCertificate, rootPrivateKey, hostCertificate, hostPrivateKey,
    deviceCertificate }

/-- The chain for a device; its key is a PEM text that gets a final zero. -/
def generateChain (devicePublicKey : Bytes) : Except Error Chain := do
  let rootKey ← writer.generateKeyPair 0
  let hostKey ← writer.generateKeyPair 1
  match writer.parsePublicKey (devicePublicKey ++ [0]) with
  | none => throw (cryptoError "the device public key could not be parsed")
  | some deviceKey =>
      (writer.writeChain rootKey hostKey deviceKey).mapError fun _ =>
        cryptoError "the certificate chain could not be generated"

end CertificateWriter

/-! ## The fields that pairing sets -/

namespace Pairing

def withChain (chain : Chain) (pairing : Pairing) : Pairing :=
  { pairing with
    rootCertificate := chain.rootCertificate
    rootPrivateKey := chain.rootPrivateKey
    hostCertificate := chain.hostCertificate
    hostPrivateKey := chain.hostPrivateKey
    deviceCertificate := chain.deviceCertificate }

/-- Takes the Wi-Fi address of an answer, if there is one. -/
def withWifi (answer : Result Plist) (pairing : Pairing) : Pairing :=
  match answer with
  | .ok wifi =>
      match wifi.find (ascii "Value") with
      | some (.string address) => { pairing with wifiMacAddress := address }
      | _ => pairing
  | .error _ => pairing

/-- The bytes of an entry, or else what was there before. -/
def dataOr (fallback : Bytes) (answer : Plist) (key : String) : Bytes :=
  match answer.find (ascii key) with
  | some (.data bytes) => bytes
  | _ => fallback

/-- Takes the fields of the device's answer to a `Pair` request. -/
def adopt (answer : Plist) (pairing : Pairing) : Pairing :=
  { pairing with
    deviceCertificate :=
      dataOr pairing.deviceCertificate answer "DeviceCertificate"
    rootCertificate := dataOr pairing.rootCertificate answer "RootCertificate"
    escrowBag := dataOr pairing.escrowBag answer "EscrowBag" }

end Pairing

/-! ## The requests -/

/-- Requests to `lockdownd`, each of which ends in an answer or an error. -/
class LockdownRequests (σ : Type) where
  request : Plist → Action Error σ Plist

instance instLockdownRequestsOfByteStream {σ : Type} [ByteStream σ] :
    LockdownRequests σ where
  request := Lockdown.request

/-- The request for a value; an empty domain or key is left out. -/
def getValueRequest (domain key : Bytes) : Plist :=
  let request := [(ascii "Request", Plist.string (ascii "GetValue"))]
  let request :=
    if domain ≠ [] then
      SortedMap.emplace (ascii "Domain") (.string domain) request
    else request
  .dictionary
    (if key ≠ [] then SortedMap.emplace (ascii "Key") (.string key) request
    else request)

/-- The record that a `Pair` request carries; the private keys stay here. -/
def pairRecord (pairing : Pairing) : Plist :=
  let record := [
    (ascii "DeviceCertificate", Plist.data pairing.deviceCertificate),
    (ascii "HostCertificate", .data pairing.hostCertificate),
    (ascii "HostID", .string pairing.hostId),
    (ascii "RootCertificate", .data pairing.rootCertificate),
    (ascii "SystemBUID", .string pairing.systemBuid)]
  .dictionary
    (if pairing.wifiMacAddress ≠ [] then
      SortedMap.emplace (ascii "WiFiMACAddress")
        (.string pairing.wifiMacAddress) record
    else record)

def pairRequest (pairing : Pairing) : Plist :=
  .dictionary [
    (ascii "PairRecord", pairRecord pairing),
    (ascii "PairingOptions",
      .dictionary [(ascii "ExtendedPairingErrors", .boolean true)]),
    (ascii "ProtocolVersion", .string (ascii "2")),
    (ascii "Request", .string (ascii "Pair"))]

/-- The key in an answer. -/
def publicKey (answer : Plist) : Except Error Bytes :=
  match answer.find (ascii "Value") with
  | some (.data key) => .ok key
  | _ => .error (cryptoError "the device did not send its public key")

/-- A refusal that the user can lift. -/
def isPending (error : Error) : Bool :=
  error.message = ascii "PasswordProtected" ∨
    error.message = ascii "PairingDialogResponsePending"

/-! ## Pairing -/

section Pair

variable {σ Key : Type} [LockdownRequests σ]

/-- An operation of `lockdownd`, beside the state of the host. -/
def onLockdown {τ α : Type} (x : Action Error σ α) : Action Error (σ × τ) α :=
  Action.zoom Prod.fst (fun state lockdown => (lockdown, state.2)) x

/-- A change of the pairing. -/
def onPairing (f : Pairing → Pairing) : Action Error (σ × Pairing) Unit :=
  modify fun state => (state.1, f state.2)

def getValue (domain key : Bytes) : Action Error σ Plist :=
  LockdownRequests.request (getValueRequest domain key)

/-- A result of a computation that has no other way to end. -/
def ofExcept {α : Type} (result : Except Error α) : Result α :=
  result.mapError Fault.error

/-- Repeats the request as long as it is refused for now and the clock, which is
looked at after a refusal, is before the deadline: so many times. -/
def pairLoop (message : Plist) : Nat → Action Error σ Plist
  | 0 => LockdownRequests.request message
  | beforeDeadline + 1 => do
      match ← Action.outcome (LockdownRequests.request message) with
      | .ok answer => return answer
      | .error (.error error) =>
          if isPending error then pairLoop message beforeDeadline
          else Action.fail error
      | .error fault => Action.lift (.error fault)

/-- The last check of `pair`. -/
def requireCertificate (pairing : Pairing) : Action Error (σ × Pairing) Unit :=
  if pairing.deviceCertificate = [] then
    Action.fail
      (cryptoError "the device did not send a certificate while pairing")
  else return ()

/-- The end of `pair`, with the answer to its request. -/
def takeAnswer (answer : Plist) : Action Error (σ × Pairing) Unit := do
  onPairing (Pairing.adopt answer)
  let state ← get
  requireCertificate state.2

def pair (writer : CertificateWriter Key) (beforeDeadline : Nat) :
    Action Error (σ × Pairing) Unit := do
  let answer ← onLockdown (getValue [] (ascii "DevicePublicKey"))
  let key ← Action.lift (ofExcept (publicKey answer))
  let chain ← Action.lift (ofExcept (writer.generateChain key))
  onPairing (Pairing.withChain chain)
  let wifi ← Action.outcome (onLockdown (getValue [] (ascii "WiFiAddress")))
  onPairing (Pairing.withWifi wifi)
  let state ← get
  let answer ← onLockdown (pairLoop (pairRequest state.2) beforeDeadline)
  takeAnswer answer

end Pair

/-! ## The answers of a device -/

/-- A request and what it ended in. -/
abbrev Exchange := Plist × Except Error Plist

/-- A `lockdownd` with its answers to come, and what it was asked so far. Each request
takes the next answer, an error among them. -/
structure ScriptedLockdown where
  answers : List (Except Error Plist)
  exchanges : List Exchange := []

namespace ScriptedLockdown

/-- What a request ends in when the device says nothing more. -/
def linkEnded : Error := ⟨.io, ascii "the stream ended early"⟩

def nextAnswer (answers : List (Except Error Plist)) : Except Error Plist :=
  answers.headD (.error linkEnded)

/-- One more request. -/
def exchange (message : Plist) (lockdown : ScriptedLockdown) :
    ScriptedLockdown where
  answers := lockdown.answers.tail
  exchanges := lockdown.exchanges ++ [(message, nextAnswer lockdown.answers)]

instance instLockdownRequestsScriptedLockdown :
    LockdownRequests ScriptedLockdown where
  request message := fun lockdown =>
    (ofExcept (nextAnswer lockdown.answers), lockdown.exchange message)

theorem run_request (message : Plist) (lockdown : ScriptedLockdown) :
    (LockdownRequests.request message).run lockdown =
      (ofExcept (nextAnswer lockdown.answers), lockdown.exchange message) := rfl

/-- A request is among the exchanges, and the ones before stay. -/
theorem mem_exchange (message : Plist) (lockdown : ScriptedLockdown) :
    (message, nextAnswer lockdown.answers) ∈
      (lockdown.exchange message).exchanges :=
  List.mem_append_right _ List.mem_cons_self

/-- What the repeated request ends in: the first answer that is not a refusal for
now, or the one at the deadline. -/
def lastAnswer : Nat → List (Except Error Plist) → Except Error Plist
  | 0, answers => nextAnswer answers
  | beforeDeadline + 1, answers =>
      match nextAnswer answers with
      | .ok answer => .ok answer
      | .error error =>
          if isPending error then lastAnswer beforeDeadline answers.tail
          else .error error

theorem run_pairLoop (message : Plist) (beforeDeadline : Nat)
    (lockdown : ScriptedLockdown) :
    ∃ next : ScriptedLockdown,
      (pairLoop message beforeDeadline).run lockdown =
        (ofExcept (lastAnswer beforeDeadline lockdown.answers), next) ∧
      ∀ answer, lastAnswer beforeDeadline lockdown.answers = .ok answer →
        (message, .ok answer) ∈ next.exchanges := by
  induction beforeDeadline generalizing lockdown with
  | zero =>
      refine ⟨lockdown.exchange message, rfl, ?_⟩
      intro answer h
      have hmem := mem_exchange message lockdown
      rwa [show nextAnswer lockdown.answers = .ok answer from h] at hmem
  | succ beforeDeadline ih =>
      have hrequest := run_request message lockdown
      have hmem := mem_exchange message lockdown
      unfold pairLoop lastAnswer
      cases hanswer : nextAnswer lockdown.answers with
      | ok answer =>
          rw [hanswer] at hrequest hmem
          rw [Action.run_bind_ok (Action.run_outcome_ok hrequest)]
          refine ⟨lockdown.exchange message, rfl, ?_⟩
          intro other h
          cases h
          exact hmem
      | error error =>
          rw [hanswer] at hrequest
          rw [Action.run_bind_ok (Action.run_outcome_error hrequest)]
          dsimp only
          by_cases hpending : isPending error = true
          · rw [if_pos hpending, if_pos hpending]
            exact ih (lockdown.exchange message)
          · rw [if_neg hpending, if_neg hpending]
            exact ⟨lockdown.exchange message, rfl, nofun⟩

end ScriptedLockdown

/-! ## How pairing ends -/

/-- A sequence that ends in a value has done both parts. -/
theorem exists_of_bind_ok {α β : Type} {x : Except Error α}
    {f : α → Except Error β} {b : β} (h : x >>= f = .ok b) :
    ∃ a, x = .ok a ∧ f a = .ok b := by
  cases x with
  | ok a => exact ⟨a, rfl, h⟩
  | error error => cases h

section Chain

variable {Key : Type} {writer : CertificateWriter Key}
  (hwriter : writer.WritesBytes) {chain : Chain}

include hwriter

theorem deviceCertificate_of_writeChain {rootKey hostKey deviceKey : Key}
    (h : writer.writeChain rootKey hostKey deviceKey = .ok chain) :
    chain.deviceCertificate ≠ [] := by
  unfold CertificateWriter.writeChain at h
  obtain ⟨rootCertificate, -, h⟩ := exists_of_bind_ok h
  obtain ⟨hostCertificate, -, h⟩ := exists_of_bind_ok h
  obtain ⟨deviceCertificate, hdevice, h⟩ := exists_of_bind_ok h
  obtain ⟨rootPrivateKey, -, h⟩ := exists_of_bind_ok h
  obtain ⟨hostPrivateKey, -, h⟩ := exists_of_bind_ok h
  cases h
  exact hwriter _ _ _ _ _ hdevice

theorem deviceCertificate_of_generateChain {devicePublicKey : Bytes}
    (h : writer.generateChain devicePublicKey = .ok chain) :
    chain.deviceCertificate ≠ [] := by
  unfold CertificateWriter.generateChain at h
  obtain ⟨rootKey, -, h⟩ := exists_of_bind_ok h
  obtain ⟨hostKey, -, h⟩ := exists_of_bind_ok h
  cases hparse : writer.parsePublicKey (devicePublicKey ++ [0]) with
  | none =>
      rw [hparse] at h
      cases h
  | some deviceKey =>
      rw [hparse] at h
      dsimp only at h
      cases hchain : writer.writeChain rootKey hostKey deviceKey with
      | error error =>
          rw [hchain] at h
          cases h
      | ok written =>
          rw [hchain] at h
          cases h
          exact deviceCertificate_of_writeChain hwriter hchain

end Chain

section Ends

open ScriptedLockdown

variable {Key : Type} (writer : CertificateWriter Key) (beforeDeadline : Nat)
variable (answers : List (Except Error Plist))

/-- The chain for the key that the first answer holds. -/
def chainOf : Except Error Chain := do
  let answer ← nextAnswer answers
  let key ← publicKey answer
  writer.generateChain key

/-- The device sends a key for which there is a chain, and ends its answers to the
`Pair` request, which come behind those with the key and the Wi-Fi address, with
an error. -/
def Refused : Prop :=
  (chainOf writer answers).isOk = true ∧
    (lastAnswer beforeDeadline answers.tail.tail).isOk = false

instance instDecidableRefused :
    Decidable (Refused writer beforeDeadline answers) :=
  inferInstanceAs (Decidable (_ ∧ _))

/-- The pairing when the `Pair` request is sent. -/
def readyToPair (chain : Chain) (pairing : Pairing) : Pairing :=
  (pairing.withChain chain).withWifi (ofExcept (nextAnswer answers.tail))

variable {writer answers} {chain : Chain}

theorem deviceCertificate_withWifi (answer : Result Plist) (pairing : Pairing) :
    (pairing.withWifi answer).deviceCertificate = pairing.deviceCertificate := by
  unfold Pairing.withWifi
  split
  · split
    · rfl
    · rfl
  · rfl

theorem paired_iff {pairing : Pairing} :
    pairing.paired = true ↔ pairing.deviceCertificate ≠ [] :=
  decide_eq_true_iff

/-- From the chain on the pairing counts as paired. -/
theorem paired_readyToPair (hwriter : writer.WritesBytes)
    (h : chainOf writer answers = .ok chain) (pairing : Pairing) :
    (readyToPair answers chain pairing).paired = true := by
  obtain ⟨answer, -, h⟩ := exists_of_bind_ok h
  obtain ⟨key, -, h⟩ := exists_of_bind_ok h
  rw [paired_iff]
  unfold readyToPair
  rw [deviceCertificate_withWifi]
  exact deviceCertificate_of_generateChain hwriter h

variable {lockdown : ScriptedLockdown} (pairing : Pairing)

/-- The request for the key of the device. -/
def keyRequest : Plist := getValueRequest [] (ascii "DevicePublicKey")

/-- The request for the Wi-Fi address of the device. -/
def wifiRequest : Plist := getValueRequest [] (ascii "WiFiAddress")

theorem run_onLockdown_getValue {τ : Type} (lockdown : ScriptedLockdown)
    (host : τ) (domain key : Bytes) :
    (onLockdown (getValue domain key)).run (lockdown, host) =
      (ofExcept (nextAnswer lockdown.answers),
        (lockdown.exchange (getValueRequest domain key), host)) := rfl

/-- A value that may be missing. -/
theorem run_outcome_getValue {τ : Type} (lockdown : ScriptedLockdown)
    (host : τ) (domain key : Bytes) :
    (Action.outcome (onLockdown (getValue domain key))).run (lockdown, host) =
      (.ok (ofExcept (nextAnswer lockdown.answers)),
        (lockdown.exchange (getValueRequest domain key), host)) := by
  have hrun := run_onLockdown_getValue lockdown host domain key
  cases hanswer : nextAnswer lockdown.answers with
  | ok answer =>
      rw [hanswer] at hrun
      exact Action.run_outcome_ok hrun
  | error error =>
      rw [hanswer] at hrun
      exact Action.run_outcome_error hrun

/-- The steps up to the chain. -/
theorem run_chain_bind
    (f : Chain → Action Error (ScriptedLockdown × Pairing) Unit) :
    (do
      let answer ← onLockdown (getValue [] (ascii "DevicePublicKey"))
      let key ← Action.lift (ofExcept (publicKey answer))
      let chain ← Action.lift (ofExcept (writer.generateChain key))
      f chain).run (lockdown, pairing) =
    (Action.lift (ofExcept (chainOf writer lockdown.answers)) >>= f).run
      (lockdown.exchange keyRequest, pairing) := by
  have hrun := run_onLockdown_getValue lockdown pairing []
    (ascii "DevicePublicKey")
  unfold chainOf
  cases hanswer : nextAnswer lockdown.answers with
  | error error =>
      rw [hanswer] at hrun
      exact Action.run_bind_error hrun
  | ok answer =>
      rw [hanswer] at hrun
      rw [Action.run_bind_ok hrun]
      show _ = (Action.lift (ofExcept (publicKey answer >>= _)) >>= f).run _
      cases publicKey answer with
      | error error => rfl
      | ok key => rfl

/-- Without a chain the pairing is left alone. -/
theorem run_pair_of_error {error : Error}
    (h : chainOf writer lockdown.answers = .error error) :
    ∃ next, (pair writer beforeDeadline).run (lockdown, pairing) =
      (.error (.error error), (next, pairing)) := by
  refine ⟨lockdown.exchange keyRequest, ?_⟩
  unfold pair
  rw [run_chain_bind, h]
  rfl

section Chain

variable (h : chainOf writer lockdown.answers = .ok chain)

include h

/-- With a chain the record is sent, as it is then. -/
theorem run_pair_of_ok : (pair writer beforeDeadline).run (lockdown, pairing) =
    (onLockdown (pairLoop
        (pairRequest (readyToPair lockdown.answers chain pairing))
        beforeDeadline) >>= takeAnswer).run
      ((lockdown.exchange keyRequest).exchange wifiRequest,
        readyToPair lockdown.answers chain pairing) := by
  unfold pair
  rw [run_chain_bind, h]
  show (Action.outcome _ >>= _).run
    (lockdown.exchange keyRequest, pairing.withChain chain) = _
  rw [Action.run_bind_ok (run_outcome_getValue _ _ _ _)]
  rfl

/-- The last answer is a refusal: `pair` returns its error, and the pairing stays as it
was when the request was sent, with the device's certificate in it. -/
theorem run_pair_refused {error : Error}
    (hlast : lastAnswer beforeDeadline lockdown.answers.tail.tail =
      .error error) :
    ∃ next, (pair writer beforeDeadline).run (lockdown, pairing) =
      (.error (.error error),
        (next, readyToPair lockdown.answers chain pairing)) := by
  obtain ⟨next, hrun, -⟩ := run_pairLoop
    (pairRequest (readyToPair lockdown.answers chain pairing)) beforeDeadline
    ((lockdown.exchange keyRequest).exchange wifiRequest)
  rw [show lastAnswer beforeDeadline
    ((lockdown.exchange keyRequest).exchange wifiRequest).answers = _ from hlast]
    at hrun
  refine ⟨next, ?_⟩
  rw [run_pair_of_ok beforeDeadline pairing h]
  apply Action.run_bind_error
  unfold onLockdown
  rw [Action.run_zoom, hrun]
  rfl

/-- The last answer is no refusal: the pairing takes it, and `pair` ends as that does.
The request and its answer are among the exchanges. -/
theorem run_pair_answered {answer : Plist}
    (hlast : lastAnswer beforeDeadline lockdown.answers.tail.tail =
      .ok answer) :
    ∃ next : ScriptedLockdown,
      (pair writer beforeDeadline).run (lockdown, pairing) =
        (takeAnswer answer).run
          (next, readyToPair lockdown.answers chain pairing) ∧
      (pairRequest (readyToPair lockdown.answers chain pairing), .ok answer) ∈
        next.exchanges := by
  obtain ⟨next, hrun, hmem⟩ := run_pairLoop
    (pairRequest (readyToPair lockdown.answers chain pairing)) beforeDeadline
    ((lockdown.exchange keyRequest).exchange wifiRequest)
  rw [show lastAnswer beforeDeadline
    ((lockdown.exchange keyRequest).exchange wifiRequest).answers = _ from hlast]
    at hrun
  refine ⟨next, ?_, hmem answer hlast⟩
  rw [run_pair_of_ok beforeDeadline pairing h]
  apply Action.run_bind_ok
  unfold onLockdown
  rw [Action.run_zoom, hrun]
  rfl

end Chain

theorem run_takeAnswer (answer : Plist) (next : ScriptedLockdown) :
    (takeAnswer answer).run (next, pairing) =
      (if (pairing.adopt answer).deviceCertificate = [] then
        .error (.error
          (cryptoError "the device did not send a certificate while pairing"))
      else .ok (), (next, pairing.adopt answer)) := by
  unfold takeAnswer
  show (if (pairing.adopt answer).deviceCertificate = [] then _ else _ :
    Action Error (ScriptedLockdown × Pairing) Unit).run _ = _
  split
  · rfl
  · rfl

/-- After an answer that is taken, `pair` fails exactly if there is no
certificate. -/
theorem paired_of_takeAnswer {answer : Plist} {next : ScriptedLockdown}
    {fault : Fault Error}
    (h : ((takeAnswer answer).run (next, pairing)).1 = .error fault) :
    ((takeAnswer answer).run (next, pairing)).2.2.paired = false := by
  rw [run_takeAnswer] at h ⊢
  dsimp only at h ⊢
  split at h
  · rename_i hempty
    exact decide_eq_false (not_not.mpr hempty)
  · cases h

variable (lockdown) in
/-- Pairing is atomic on failure exactly if it does not end with a refusal of its
`Pair` request. -/
theorem paired_of_error_iff (hwriter : writer.WritesBytes)
    (hpairing : pairing.paired = false) :
    (∀ fault, ((pair writer beforeDeadline).run (lockdown, pairing)).1 =
        .error fault →
      ((pair writer beforeDeadline).run (lockdown, pairing)).2.2.paired =
        false) ↔
      ¬ Refused writer beforeDeadline lockdown.answers := by
  unfold Refused
  cases hchain : chainOf writer lockdown.answers with
  | error error =>
      obtain ⟨next, hrun⟩ := run_pair_of_error beforeDeadline pairing hchain
      rw [hrun]
      exact iff_of_true (fun _ _ => hpairing) fun h => nomatch h.1
  | ok chain =>
      cases hlast : lastAnswer beforeDeadline lockdown.answers.tail.tail with
      | error error =>
          obtain ⟨next, hrun⟩ :=
            run_pair_refused beforeDeadline pairing hchain hlast
          rw [hrun]
          apply iff_of_false
          · intro h
            have hpaired := paired_readyToPair hwriter hchain pairing
            rw [h _ rfl] at hpaired
            cases hpaired
          · exact not_not.mpr ⟨rfl, rfl⟩
      | ok answer =>
          obtain ⟨next, hrun, -⟩ :=
            run_pair_answered beforeDeadline pairing hchain hlast
          rw [hrun]
          apply iff_of_true
          · intro fault h
            exact paired_of_takeAnswer _ h
          · exact fun h => nomatch h.2

end Ends

end Ioscpp.Crypto
