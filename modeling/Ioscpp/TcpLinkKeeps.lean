import Ioscpp.TcpLink

/-!
# What the operations of a link keep

A connection reads and writes packets through the link's framer, and changes the
numbers, the peer and the received bytes of the link.  A property that is about
the tunnel, the framer and the sizes of the link is kept by every operation when
the framer's own two calls keep it.

## Main results

- `keeps_receiveSegment`: what reading a packet keeps, receiving a segment keeps.
-/

namespace Ioscpp.TcpLink

open Ioscpp.Support
open Ioscpp.Protocol

variable {τ : Type} [Transport τ] {I : τ × TcpLink → Prop}

/-- What reading a packet keeps, receiving a segment keeps: the packets that are not
the connection's are passed over. -/
theorem keeps_receiveSegment
    (h : Action.Keeps I (onFramer Ipv6Framer.readPacket)) (fuel : Nat) :
    Action.Keeps I (receiveSegment fuel) := by
  induction fuel with
  | zero => exact Action.keeps_lift _
  | succ fuel ih =>
      apply h.bind
      intro packet
      apply Action.Keeps.get_bind
      intro state
      apply (Action.keeps_lift _).bind
      intro segment
      cases segment with
      | none => exact ih
      | some segment => exact Action.keeps_pure _

/-- A property that no operation of a link can break by itself. -/
structure Steady (I : τ × TcpLink → Prop) : Prop where
  update : ∀ transport link link', I (transport, link) →
    link'.framer = link.framer → link'.mtu = link.mtu → link'.mss = link.mss →
    I (transport, link')
  readPacket : Action.Keeps I (onFramer Ipv6Framer.readPacket)
  writePacket : ∀ packet, Action.Keeps I (onFramer (Ipv6Framer.writePacket packet))

namespace Steady

variable (h : Steady I)
include h

theorem keeps_update {f : TcpLink → TcpLink}
    (hframer : ∀ link, (f link).framer = link.framer)
    (hmtu : ∀ link, (f link).mtu = link.mtu)
    (hmss : ∀ link, (f link).mss = link.mss) :
    Action.Keeps I (TcpLink.update f) := by
  apply Action.keeps_modify
  intro state hstate
  exact h.update state.1 state.2 (f state.2) hstate (hframer _) (hmtu _) (hmss _)

theorem keeps_update_bind {α : Type} {f : TcpLink → TcpLink}
    {x : PUnit → Action Error (τ × TcpLink) α}
    (hframer : ∀ link, (f link).framer = link.framer)
    (hmtu : ∀ link, (f link).mtu = link.mtu)
    (hmss : ∀ link, (f link).mss = link.mss)
    (hx : ∀ done, Action.Keeps I (x done)) :
    Action.Keeps I (TcpLink.update f >>= x) :=
  (h.keeps_update hframer hmtu hmss).bind hx

theorem keeps_sendSegment (flags : UInt8) (payload : Bytes) :
    Action.Keeps I (TcpLink.sendSegment flags payload) := by
  apply Action.Keeps.get_bind
  intro state
  apply (h.writePacket _).bind
  intro _
  exact h.keeps_update (fun _ => rfl) (fun _ => rfl) fun _ => rfl

theorem keeps_awaitSynAck (fuel : Nat) :
    Action.Keeps I (TcpLink.awaitSynAck fuel) := by
  induction fuel with
  | zero => exact Action.keeps_lift _
  | succ fuel ih =>
      apply (keeps_receiveSegment h.readPacket _).bind
      intro segment
      apply Action.keeps_ite (Action.keeps_fail _)
      apply Action.keeps_ite _ ih
      refine h.keeps_update_bind (fun _ => rfl) (fun _ => rfl) (fun _ => rfl) fun _ => ?_
      apply (h.keeps_sendSegment _ _).bind
      intro _
      exact h.keeps_update (fun _ => rfl) (fun _ => rfl) fun _ => rfl

theorem keeps_connect (fuel : Nat) (address : Bytes) (port : UInt16) :
    Action.Keeps I (TcpLink.connect fuel address port) := by
  apply Action.Keeps.get_bind
  intro state
  apply Action.keeps_ite (Action.keeps_fail _)
  apply (Action.keeps_lift _).bind
  intro destination
  refine h.keeps_update_bind (fun _ => rfl) (fun _ => rfl) (fun _ => rfl) fun _ => ?_
  apply (h.keeps_sendSegment _ _).bind
  intro _
  exact h.keeps_awaitSynAck fuel

theorem keeps_handleSegment (segment : Segment)
    {again : Action Error (τ × TcpLink) Bool}
    (hagain : Action.Keeps I again) :
    Action.Keeps I (TcpLink.handleSegment segment again) := by
  apply Action.keeps_ite
  · refine h.keeps_update_bind (fun _ => rfl) (fun _ => rfl) (fun _ => rfl) fun _ => ?_
    exact Action.keeps_fail _
  apply Action.keeps_ite
  · refine h.keeps_update_bind (fun _ => rfl) (fun _ => rfl) (fun _ => rfl) fun _ => ?_
    apply (h.keeps_sendSegment _ _).attempt.bind
    intro _
    refine h.keeps_update_bind (fun _ => rfl) (fun _ => rfl) (fun _ => rfl) fun _ => ?_
    apply Action.keeps_ite (Action.keeps_pure _)
    refine h.keeps_update_bind (fun _ => rfl) (fun _ => rfl) (fun _ => rfl) fun _ => ?_
    exact hagain
  apply Action.keeps_ite _ hagain
  refine h.keeps_update_bind (fun _ => rfl) (fun _ => rfl) (fun _ => rfl) fun _ => ?_
  apply (h.keeps_sendSegment _ _).bind
  intro _
  refine h.keeps_update_bind (fun _ => rfl) (fun _ => rfl) (fun _ => rfl) fun _ => ?_
  exact hagain

theorem keeps_awaitIncoming (fuel : Nat) :
    Action.Keeps I (TcpLink.awaitIncoming fuel) := by
  induction fuel with
  | zero =>
      apply Action.Keeps.get_bind
      intro state
      exact Action.keeps_ite (Action.keeps_pure _) (Action.keeps_lift _)
  | succ fuel ih =>
      apply Action.Keeps.get_bind
      intro state
      apply Action.keeps_ite (Action.keeps_pure _)
      refine h.keeps_update_bind (fun _ => rfl) (fun _ => rfl) (fun _ => rfl) fun _ => ?_
      apply Action.keeps_ite (Action.keeps_pure _)
      apply (keeps_receiveSegment h.readPacket _).bind
      intro segment
      exact h.keeps_handleSegment segment ih

theorem keeps_read (count fuel : Nat) :
    Action.Keeps I (TcpLink.read count fuel) := by
  apply (h.keeps_awaitIncoming fuel).bind
  intro more
  apply Action.keeps_ite _ (Action.keeps_pure _)
  apply Action.Keeps.get_bind
  intro state
  refine h.keeps_update_bind (fun _ => rfl) (fun _ => rfl) (fun _ => rfl) fun _ => ?_
  exact Action.keeps_pure _

theorem keeps_readExactLoop (count turns fuel : Nat) (data : Bytes) :
    Action.Keeps I (TcpLink.readExactLoop count turns fuel data) := by
  induction fuel generalizing data with
  | zero => exact Action.keeps_ite (Action.keeps_pure _) (Action.keeps_lift _)
  | succ fuel ih =>
      apply Action.keeps_ite (Action.keeps_pure _)
      apply (h.keeps_read _ _).bind
      intro more
      exact Action.keeps_ite (Action.keeps_fail _) (ih _)

theorem keeps_writeLoop (fuel : Nat) (data : Bytes) :
    Action.Keeps I (TcpLink.writeLoop fuel data) := by
  induction fuel generalizing data with
  | zero => exact Action.keeps_ite (Action.keeps_pure _) (Action.keeps_lift _)
  | succ fuel ih =>
      apply Action.keeps_ite (Action.keeps_pure _)
      apply Action.Keeps.get_bind
      intro state
      apply (h.keeps_sendSegment _ _).bind
      intro _
      exact ih _

theorem keeps_close : Action.Keeps I TcpLink.close := by
  apply Action.Keeps.get_bind
  intro state
  apply Action.keeps_ite (Action.keeps_pure _)
  refine h.keeps_update_bind (fun _ => rfl) (fun _ => rfl) (fun _ => rfl) fun _ => ?_
  apply Action.keeps_ite _ (Action.keeps_pure _)
  apply (h.keeps_sendSegment _ _).attempt.bind
  intro _
  exact Action.keeps_pure _

end Steady

end Ioscpp.TcpLink
