import Ioscpp.Rsd
import Ioscpp.Protocol.Http2Receive
import Ioscpp.Protocol.RemoteXpcRoundTrip
import Ioscpp.Support.Truncation

/-!
# The device handshake and its frames

The handshake takes a DATA frame for a wrapper.  Whatever control frames stand
between them and however the transport cuts them, its outcome is that of the DATA
frames' payloads (`replies`).  When the peer cuts its wrappers into other frames,
the outcome is that of the wrappers exactly when every frame up to the answer is
one whole wrapper: a frame that is a part of a wrapper, or more than one, is
refused.

## Main results

- `outcome_handshake`: the outcome of a handshake that was sent is that of the
  messages to come.
-/

namespace Ioscpp

open Ioscpp.Support
open Ioscpp.Protocol

/-! ## The outcome of the messages -/

/-- The outcome of the handshake's loop over the messages that are read. -/
def replies : List Http2Message → Result RsdServices
  | [] => .error (.error Http2.connectionEnded)
  | reply :: rest => do
      let message ← XpcWrapper.parse reply.payload
      match handshakeAnswer message with
      | none => replies rest
      | some object => parseServices object

namespace Rsd

theorem onHttp2_ok {α : Type} {x : Action Error (Http2 ScriptedTransport) α}
    {rsd : Rsd ScriptedTransport} {a : α} {next : Http2 ScriptedTransport}
    (h : x.run rsd.http2 = (.ok a, next)) :
    (onHttp2 x).run rsd = (.ok a, { rsd with http2 := next }) := by
  rw [onHttp2, Action.run_zoom, h]

theorem onHttp2_error {α : Type} {x : Action Error (Http2 ScriptedTransport) α}
    {rsd : Rsd ScriptedTransport} {e : Fault Error}
    {next : Http2 ScriptedTransport}
    (h : x.run rsd.http2 = (.error e, next)) :
    (onHttp2 x).run rsd = (.error e, { rsd with http2 := next }) := by
  rw [onHttp2, Action.run_zoom, h]

/-- The outcome of a run: its result, and the services it leaves. -/
def outcome (run : Checked Error Unit × Rsd ScriptedTransport) :
    Checked Error Unit × RsdServices := (run.1, run.2.services)

/-- The outcome of a handshake whose loop ends in that way: the services are
recorded when there is an answer. -/
def finish (services : RsdServices) :
    Result RsdServices → Checked Error Unit × RsdServices
  | .ok found => (.ok (), found)
  | .error e => (.error e, services)

theorem finish_injective (services : RsdServices) :
    Function.Injective (finish services) := by
  rintro (e | found) (e' | found') h
  · cases h
    rfl
  · cases h
  · cases h
  · cases h
    rfl

/-- The loop's outcome is that of the messages to come. -/
theorem outcome_awaitHandshake {frames : List Http2Frame}
    {rsd : Rsd ScriptedTransport} (h : Http2.Incoming frames rsd.http2)
    {turns fuel : Nat} (hturns : frames.length < turns)
    (hfuel : (Http2.toCome frames rsd.http2).length < fuel) :
    outcome ((awaitHandshake turns fuel).run rsd) =
      finish rsd.services (replies (Http2.toCome frames rsd.http2)) := by
  induction fuel generalizing frames rsd with
  | zero => omega
  | succ fuel ih =>
      have hread := Http2.run_read h hturns
      rw [awaitHandshake]
      rcases hmessages : Http2.toCome frames rsd.http2 with _ | ⟨reply, others⟩
      · rw [hmessages] at hread
        obtain ⟨next, hread⟩ := hread
        rw [Action.run_bind_error (onHttp2_error hread)]
        rfl
      · rw [hmessages] at hread hfuel
        obtain ⟨next, hread, rest, hincoming, hcome, hle⟩ := hread
        rw [Action.run_bind_ok (onHttp2_ok hread), replies]
        rcases hparse : XpcWrapper.parse reply.payload with e | message
        · rw [Action.run_bind_error (Action.run_lift _ _)]
          rfl
        · rw [Action.run_bind_ok (Action.run_lift _ _), ok_bind]
          rcases handshakeAnswer message with _ | object
          · have hrest := @ih rest { rsd with http2 := next } hincoming
              (hle.trans_lt hturns) (by
                show (Http2.toCome rest next).length < fuel
                rw [hcome]
                rw [List.length_cons] at hfuel
                omega)
            dsimp only at hrest ⊢
            rw [hrest, hcome]
          · dsimp only
            rcases parseServices object with e | services
            · rw [Action.run_bind_error (Action.run_lift _ _)]
              rfl
            · rw [Action.run_bind_ok (Action.run_lift _ _)]
              rfl

/-- Sending the handshake drops no message and records no service. -/
theorem sendHandshake_expecting {messages : List Http2Message} {size : Nat}
    (fuel : Nat) (uuid : RsdUuid) (services : RsdServices) :
    Action.Keeps (fun rsd : Rsd ScriptedTransport =>
      Http2.Expecting messages size [] rsd.http2 ∧ rsd.services = services)
      (sendHandshake fuel uuid) := by
  have hinvariant := Http2.invariant_expecting messages size
  have hcall : ∀ x : Action Error (Http2 ScriptedTransport) Unit,
      Action.Keeps (Http2.Expecting messages size []) x →
      Action.Keeps (fun rsd : Rsd ScriptedTransport =>
        Http2.Expecting messages size [] rsd.http2 ∧ rsd.services = services)
        (onHttp2 x) := by
    rintro x hx rsd ⟨hexpecting, hservices⟩
    have hpost := hx rsd.http2 hexpecting
    rcases hrun : x.run rsd.http2 with ⟨e | _, next⟩
    · rw [hrun] at hpost
      rw [onHttp2_error hrun]
      exact ⟨hpost, hservices⟩
    · rw [hrun] at hpost
      rw [onHttp2_ok hrun]
      exact ⟨hpost, hservices⟩
  have hopen : ∀ stream, Action.Keeps (Http2.Expecting messages size [])
      (Http2.openStream stream) := fun stream =>
    hinvariant.opening [] _ (.inr (.inr (.inr ⟨stream, rfl⟩)))
  have hwrite : ∀ stream payload, Action.Keeps (Http2.Expecting messages size [])
      (Http2.write stream fuel payload) := fun stream payload =>
    hinvariant.write [] stream fuel payload
  exact (hcall _ (hopen _)).bind fun _ => (hcall _ (hwrite _ _)).bind fun _ =>
    (hcall _ (hopen _)).bind fun _ => (hcall _ (hwrite _ _)).bind fun _ =>
      (hcall _ (hwrite _ _)).bind fun _ => hcall _ (hwrite _ _)

/-- The outcome of a handshake that was sent is that of the messages to come, those that
are queued already and those of the frames behind them. -/
theorem outcome_handshake {frames : List Http2Frame}
    {rsd : Rsd ScriptedTransport} (h : Http2.Incoming frames rsd.http2)
    {fuel : Nat} {uuid : RsdUuid} (hframes : frames.length < fuel)
    (hfuel : (Http2.toCome frames rsd.http2).length < fuel)
    (hsent : ((sendHandshake fuel uuid).run rsd).1 = .ok ()) :
    outcome ((handshake fuel uuid).run rsd) =
      finish rsd.services (replies (Http2.toCome frames rsd.http2)) := by
  obtain ⟨⟨rest, hincoming, hcome, hle⟩, hservices⟩ :=
    (sendHandshake_expecting fuel uuid rsd.services).state
      (show Http2.Expecting (Http2.toCome frames rsd.http2) frames.length []
        rsd.http2 ∧ rsd.services = rsd.services from
        ⟨⟨frames, h, rfl, Nat.le_refl _⟩, rfl⟩)
  rw [List.nil_append] at hcome
  rw [handshake, Action.run_bind_ok (Prod.ext hsent rfl),
    outcome_awaitHandshake hincoming (hle.trans_lt hframes) (by rwa [hcome]),
    hcome, hservices]

end Rsd

end Ioscpp
