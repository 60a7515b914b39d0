import Ioscpp.Device
import Ioscpp.SecureLink

/-!
# Requests across a session

A client of `lockdownd` makes requests, starts a session, and makes more requests.
When the session is over TLS, everything before it is on the stream, up to the last
byte of the answer that starts it, and everything behind it is in the TLS session.

## Main results

- `run_startSession_plain`: the session is started on what is behind the bytes of its
  answer.
- `requestAcross_secured`: requests before and in the session give what their own
  answers say.
-/

namespace Ioscpp.Lockdown

open Ioscpp.Support
open Ioscpp.Support.Action
open Ioscpp.Protocol
open Ioscpp.Crypto

/-- A TLS session that ends within a message. -/
def closedMidMessage : Error := protocolError "the link closed mid-message"

/-- The link of `lockdownd`. -/
abbrev Link (σ κ : Type) := SecureLink closedMidMessage σ κ

/-- A caller with a session: requests, the session, and more requests. -/
def requestAcross {σ : Type} [ByteStream σ]
    (startTls : Pairing → Action Error σ Unit) (before after : List Plist)
    (state : σ × Pairing) :
    List (Result Plist) × Result Unit × List (Result Plist) × (σ × Pairing) :=
  let (results, link) := requestAll before state.1
  let (result, (link, pairing)) := (startSession startTls).run (link, state.2)
  let (more, link) := requestAll after link
  (results, result, more, (link, pairing))

section Session

variable {σ κ : Type} [ByteStream σ] [Transport κ]
  {R : σ → MemoryByteStream → Prop} {R' : κ → MemoryByteStream → Prop}

/-- The session is started on what is behind the bytes of its answer: the pairing has
taken the answer's session, and TLS begins on the stream with nothing of the answer
left. -/
theorem run_startSession_plain (h : CarriesBytes R)
    {startTls : Pairing → Action Error (Link σ κ) Unit} {pairing : Pairing}
    {stream : σ} {bytes : Bytes} {answer : Plist} (hanswer : Answers bytes answer)
    (hok : checkAnswer answer = .ok answer) (hssl : enablesSsl answer = true)
    {written rest : Bytes}
    (hR : R stream ⟨bytes ++ rest, written⟩) :
    ∃ asked, R asked
        ⟨rest, written ++ PlistService.frame (labeled (sessionRequest pairing))⟩ ∧
      (startSession startTls).run (.plain stream, pairing) =
        (((startTls (withSession answer pairing)).run (.plain asked)).1,
          ((startTls (withSession answer pairing)).run (.plain asked)).2,
          withSession answer pairing) := by
  have hcarries := @SecureLink.carries_plain closedMidMessage σ κ _ _ R h
  have hplain : SecureLink.Carried R (fun _ _ => False) (.plain stream : Link σ κ)
      ⟨bytes ++ rest, written⟩ := hR
  obtain ⟨link, hrun, hlink⟩ := run_request_carried hcarries hplain
    (run_exchange hanswer (sessionRequest pairing) written rest)
  rw [hok] at hrun
  cases link with
  | tls session => exact hlink.elim
  | plain asked =>
      have hrequest : (onLockdown (LockdownRequests.request (sessionRequest pairing)) :
          Action Error (Link σ κ × Pairing) Plist).run (.plain stream, pairing) =
          (.ok answer, (.plain asked, pairing)) := by
        rw [onLockdown, run_zoom]
        exact congrArg (fun outcome => (outcome.1, (outcome.2, pairing))) hrun
      refine ⟨asked, hlink, ?_⟩
      rw [startSession, run_bind_ok (run_get _), run_bind_ok hrequest, onPairing,
        run_bind_ok (run_modify _ _), if_pos hssl, run_bind_ok (run_get _)]
      rfl

/-- Requests on a stream stay on it. -/
theorem requestAll_plain (h : CarriesBytes R) {stream : σ}
    {exchanges : List Exchange} {written rest : Bytes}
    (hanswers : ∀ exchange ∈ exchanges, exchange.Answered)
    (hR : R stream ⟨answersOf exchanges ++ rest, written⟩) :
    ∃ last, requestAll (exchanges.map Exchange.request) (.plain stream : Link σ κ) =
        (exchanges.map fun exchange => checkAnswer exchange.answer, .plain last) ∧
      R last ⟨rest, written ++ requestsOf exchanges⟩ := by
  have hplain : SecureLink.Carried R (fun _ _ => False) (.plain stream : Link σ κ)
      ⟨answersOf exchanges ++ rest, written⟩ := hR
  obtain ⟨link, hrun, hlink⟩ :=
    requestAll_carried (SecureLink.carries_plain h) hanswers hplain
  cases link with
  | tls session => exact hlink.elim
  | plain last => exact ⟨last, hrun, hlink⟩

/-- Requests over TLS stay in the session. -/
theorem requestAll_tls (h : DeliversBytes R') {session : κ}
    {exchanges : List Exchange} {written rest : Bytes}
    (hanswers : ∀ exchange ∈ exchanges, exchange.Answered)
    (hR : R' session ⟨answersOf exchanges ++ rest, written⟩) :
    ∃ last, requestAll (exchanges.map Exchange.request) (.tls session : Link σ κ) =
        (exchanges.map fun exchange => checkAnswer exchange.answer, .tls last) ∧
      R' last ⟨rest, written ++ requestsOf exchanges⟩ := by
  have htls : SecureLink.Carried (fun _ _ => False) R' (.tls session : Link σ κ)
      ⟨answersOf exchanges ++ rest, written⟩ := hR
  obtain ⟨link, hrun, hlink⟩ :=
    requestAll_carried (SecureLink.carries_tls h) hanswers htls
  cases link with
  | plain stream => exact hlink.elim
  | tls last => exact ⟨last, hrun, hlink⟩

/-- Requests, a session over TLS, and more requests: each request gives what its own
answer says, the stream has the requests up to the one for the session and nothing
else, and the session has those behind it.  TLS starts where the answer ends. -/
theorem requestAcross_secured (h : CarriesBytes R) (h' : DeliversBytes R')
    {startTls : Pairing → Action Error (Link σ κ) Unit} {pairing : Pairing}
    {stream : σ} {before after : List Exchange} {bytes : Bytes} {answer : Plist}
    (hbefore : ∀ exchange ∈ before, exchange.Answered)
    (hafter : ∀ exchange ∈ after, exchange.Answered)
    (hanswer : Answers bytes answer)
    (hok : checkAnswer answer = .ok answer) (hssl : enablesSsl answer = true)
    {hello rest : Bytes}
    (hR : R stream ⟨answersOf before ++ (bytes ++ hello), []⟩)
    (htls : ∀ stream : σ, R stream ⟨hello, requestsOf before ++
        PlistService.frame (labeled (sessionRequest pairing))⟩ →
      ∃ session : κ, (startTls (withSession answer pairing)).run (.plain stream) =
          (.ok (), .tls session) ∧
        R' session ⟨answersOf after ++ rest, []⟩) :
    ∃ session : κ, requestAcross startTls (before.map Exchange.request)
        (after.map Exchange.request) ((.plain stream : Link σ κ), pairing) =
      (before.map fun exchange => checkAnswer exchange.answer, .ok (),
        after.map fun exchange => checkAnswer exchange.answer,
        (.tls session, withSession answer pairing)) ∧
      R' session ⟨rest, requestsOf after⟩ := by
  obtain ⟨first, hfirst, hfirstR⟩ := @requestAll_plain σ κ _ _ R h _ _ _ _ hbefore hR
  obtain ⟨asked, hasked, hstart⟩ := @run_startSession_plain σ κ _ _ R h startTls
    pairing first bytes answer hanswer hok hssl _ _ hfirstR
  obtain ⟨session, hsession, hsessionR⟩ := htls asked hasked
  obtain ⟨last, hlast, hlastR⟩ := @requestAll_tls σ κ _ _ R' h' _ _ _ _ hafter hsessionR
  rw [hsession] at hstart
  refine ⟨last, ?_, hlastR⟩
  rw [requestAcross, hfirst]
  dsimp only
  rw [hstart]
  dsimp only
  rw [hlast]

end Session

/-! ### A run -/

private def valueAnswer : Plist :=
  .dictionary [(ascii "Value", .string (ascii "iPhone"))]

private def sslAnswer : Plist :=
  .dictionary [(ascii "EnableSessionSSL", .boolean true)]

private theorem sendable_valueAnswer : PlistService.Sendable valueAnswer :=
  PlistService.sendable_dictionary (List.pairwise_singleton _ _)
    (by rw [List.forall_mem_singleton]; exact PlistService.isText_string _)
    (by decide +kernel)

private theorem sendable_sslAnswer : PlistService.Sendable sslAnswer :=
  PlistService.sendable_dictionary (List.pairwise_singleton _ _)
    (by rw [List.forall_mem_singleton]; exact ⟨.leaf trivial, .leaf trivial trivial⟩)
    (by decide +kernel)

private def valueExchanges : List Exchange :=
  [⟨.dictionary [], valueAnswer, PlistService.frame valueAnswer⟩]

private theorem answered_valueExchanges :
    ∀ exchange ∈ valueExchanges, exchange.Answered := by
  rw [valueExchanges, List.forall_mem_singleton]
  exact answers_frame sendable_valueAnswer

/-- A session whose records hold a byte, and the rest of an answer. -/
private def records : ScriptedTransport where
  reads := [.ok ((answersOf valueExchanges).take 1),
    .ok ((answersOf valueExchanges).drop 1)]

private def startRecords (_ : Pairing) :
    Action Error (Link MemoryByteStream ScriptedTransport) Unit := fun _ =>
  (.ok (), .tls records)

theorem requestAcross_secured_records :
    ∃ session : ScriptedTransport,
      requestAcross startRecords [.dictionary []] [.dictionary []]
        ((.plain ⟨answersOf valueExchanges ++ PlistService.frame sslAnswer, []⟩ :
          Link MemoryByteStream ScriptedTransport), {}) =
        ([.ok valueAnswer], .ok (), [.ok valueAnswer], (.tls session, {})) ∧
      session.written.flatten = PlistService.frame (labeled (.dictionary [])) := by
  have hssl : enablesSsl sslAnswer = true := by decide +kernel
  have hok : checkAnswer sslAnswer = .ok sslAnswer := rfl
  have hclean : records.Clean := by
    intro answer hmem
    simp only [records, List.mem_cons, List.not_mem_nil, or_false] at hmem
    rcases hmem with rfl | rfl
    · exact ⟨_, by decide +kernel, rfl⟩
    · exact ⟨_, by decide +kernel, rfl⟩
  have hremaining : records.remaining = answersOf valueExchanges ++ [] := by
    rw [ScriptedTransport.remaining, records, List.flatMap_cons, List.flatMap_cons,
      List.flatMap_nil, List.append_nil, List.take_append_drop, List.append_nil]
  have htls : ∀ stream : MemoryByteStream, stream = ⟨[], requestsOf valueExchanges ++
      PlistService.frame (labeled (sessionRequest {}))⟩ →
      ∃ session, (startRecords (withSession sslAnswer {})).run (.plain stream) =
          (.ok (), .tls session) ∧ session.Clean ∧ session.writes = [] ∧
        session.remaining = answersOf valueExchanges ++ [] ∧
        session.written.flatten = [] :=
    fun stream _ => ⟨records, rfl, hclean, rfl, hremaining, rfl⟩
  have hincoming : (⟨answersOf valueExchanges ++ PlistService.frame sslAnswer, []⟩ :
      MemoryByteStream) =
      ⟨answersOf valueExchanges ++ (PlistService.frame sslAnswer ++ []), []⟩ := by
    rw [List.append_nil]
  obtain ⟨session, hrun, -, -, -, hwritten⟩ := requestAcross_secured
    MemoryByteStream.carriesBytes ScriptedTransport.deliversBytes
    answered_valueExchanges answered_valueExchanges
    (answers_frame sendable_sslAnswer) hok hssl
    hincoming htls
  exact ⟨session, hrun, hwritten.trans (List.append_nil _)⟩

end Ioscpp.Lockdown
