import Smarthome.Coordinator.DatagramReceiver
import Smarthome.Node.DatagramReads

/-! Which datagrams the two receivers, and the consumer of a UART message, handle
without a look past the end of what they were given. -/
namespace Smarthome

open Semantics

/-- A datagram to a node and one to the coordinator are read within their lengths,
and the payload of a UART datagram within its sixteen bytes. -/
def ReadWithinBounds (nodeData : Nat → Byte) (nodeLength : Nat) (rootData : Nat → Byte)
    (rootLength : Nat) : Prop :=
  Node.Receiving.udpReceiver.InBounds nodeData nodeLength ∧
    (∀ rootTime senderAddr,
      (Coordinator.udpDataReceiver rootTime senderAddr rootLength).InBounds rootData rootLength) ∧
    ∀ (node : Node.MainNode) (payload : Nat → Byte), Node.IsUartDatagram nodeData →
      (Node.lightMainProcess
        (node.receive (Node.udpReceiver nodeData)).messageForMainProcess).InBounds payload 16

/-- **Which datagrams are read within their bounds.** Those that are at least as
long as the layout of their type; a UART datagram must not ask for more than the
sixteen bytes it carries. -/
theorem read_within_bounds_iff (nodeData : Nat → Byte) (nodeLength : Nat) (rootData : Nat → Byte)
    (rootLength : Nat) :
    ReadWithinBounds nodeData nodeLength rootData rootLength ↔
      Node.Receiving.receiverLength nodeData ≤ nodeLength ∧
        Coordinator.receiverLength rootData ≤ rootLength ∧
        (Node.IsUartDatagram nodeData → nodeData 4 ≤ 16) := by
  have hRoot (rootTime : Time.TimeData) (senderAddr : Ipv6Address) :=
    Coordinator.inBounds_udpDataReceiver_iff rootTime senderAddr rootData rootLength
  apply and_congr (Node.Receiving.inBounds_udpReceiver_iff nodeData nodeLength)
  apply and_congr
  · constructor
    · intro h
      exact (hRoot (Time.TimeData.ofBytes 0 0 0 0 0 0) (Vector.replicate 16 0)).mp (h _ _)
    · intro h rootTime senderAddr
      exact (hRoot rootTime senderAddr).mpr h
  · constructor
    · intro h hUart
      exact (Node.inBounds_lightMainProcess_iff Node.MainNode.start nodeData nodeData hUart).mp
        (h _ _ hUart)
    · intro h node payload hUart
      exact (Node.inBounds_lightMainProcess_iff node payload nodeData hUart).mpr (h hUart)

/-- Of an empty datagram, a node reads four bytes. -/
theorem read_within_bounds_fails : ¬ ∀ (nodeData : Nat → Byte) (nodeLength : Nat)
    (rootData : Nat → Byte) (rootLength : Nat),
    ReadWithinBounds nodeData nodeLength rootData rootLength := by
  intro h
  have hEmpty := h (fun _ => 0) 0 (fun _ => 0) 0
  exact Nat.not_lt_zero 0 (hEmpty.1 0 (List.mem_cons_self ..))

end Smarthome
