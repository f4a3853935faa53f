import Smarthome.Time.Handler
import Smarthome.Coordinator.DatagramReceiver
import Smarthome.Coordinator.Slots
import Smarthome.Node.DatagramReads
import Smarthome.Ota.System
import Mathlib.Data.NNReal.Basic

/-! The time synchronisation of a node with the root. A request carries the time of the
node, the answer of the root also its own, and from both the node sets its clock. -/
namespace Smarthome.Time

open Semantics Ota
open scoped NNReal

/-- `send_time_sync_req_packet`, in the normal mode. -/
def sendTimeSyncReqPacket (rootAddr : Ipv6Address) (localTime : TimeData) : Datagram where
  destination := rootAddr
  payload := [protocolVersionV1, deviceVersionV1, dataTypeSetTime, dataTypeSetTimeRequest] ++
    List.replicate 6 dataReserved ++ localTime.bytes

/-- The offsets of the two clocks, and the datagrams that were sent between them. -/
structure Network where
  node : EpochOffset
  root : EpochOffset
  datagrams : List Datagram

def Network.initial : Network := ⟨EpochOffset.initial, EpochOffset.initial, []⟩

/-- What happens when one of the counters of seconds stands at `ticks`. -/
inductive Event where
  | nodeReset
  | localCommand (uartData : Nat → Byte) (ticks : Nat)
  | sendRequest (ticks : Nat)
  | rootReceive (datagram : Datagram) (ticks : Nat)
  | nodeReceive (datagram : Datagram) (ticks : Nat)

/-- The offset of the root after a local command of the router. -/
def localCommandOffset (root : EpochOffset) (uartData : Nat → Byte) (ticks : Nat) : EpochOffset :=
  match Coordinator.localCommand uartData with
  | some (.setEpochTime seconds) => setEpochTime (TimeData.assign seconds 0) ticks
  | some .systemReset => EpochOffset.initial
  | some (.flashSectorErase _) | none => root

/-- The offset of the node after a datagram. -/
def receiveOffset (node : EpochOffset) (datagram : Datagram) (ticks : Nat) : EpochOffset :=
  match Node.udpReceiver (payloadData datagram) with
  | .timeDataHandler =>
      let (rootTime, localTimeReq) := Node.Receiving.timeResponse.value (payloadData datagram)
      (timeDataHandler node rootTime localTimeReq ticks).1
  | _ => node

/-- A datagram that was sent is received any number of times, in any order, or never. -/
def step (nodeAddr rootAddr : Ipv6Address) (net : Network) : Event → Option Network
  | .nodeReset => some { net with node := EpochOffset.initial }
  | .localCommand uartData ticks =>
      some { net with root := localCommandOffset net.root uartData ticks }
  | .sendRequest ticks =>
      some { net with datagrams :=
        net.datagrams ++ [sendTimeSyncReqPacket rootAddr (getEpochTime net.node ticks)] }
  | .rootReceive datagram ticks =>
      if datagram ∈ net.datagrams then
        some { net with datagrams := net.datagrams ++ ((Coordinator.udpDataReceiver
          (getEpochTime net.root ticks) nodeAddr datagram.payload.length).value
            (payloadData datagram)).sent }
      else none
  | .nodeReceive datagram ticks =>
      if datagram ∈ net.datagrams then
        some { net with node := receiveOffset net.node datagram ticks }
      else none

/-- Both clocks are normal, and so is the time of the root in each of its answers. -/
structure Network.Normal (net : Network) : Prop where
  node : net.node.Normal
  root : net.root.Normal
  answers : ∀ datagram ∈ net.datagrams,
    Node.udpReceiver (payloadData datagram) = .timeDataHandler →
      (Node.Receiving.timeResponse.value (payloadData datagram)).1.Normal

variable {nodeAddr rootAddr : Ipv6Address} {net other : Network} {rootTime : TimeData}

/-- A time of whole seconds. -/
theorem TimeData.assign_zero_normal (seconds : Int) : (TimeData.assign seconds 0).Normal :=
  TimeData.assign_normal seconds (by decide) (by decide)

/-- What a node takes out of an answer: the time of the root, and the six bytes that the
root has taken from the request. -/
theorem timeResponse_sendTimeSyncRespPacket (rootTime : TimeData) (data : Nat → Byte) :
    Node.Receiving.timeResponse.value (payloadData
      ((Coordinator.sendTimeSyncRespPacket rootTime nodeAddr).value data)) =
        (rootTime, TimeData.ofBytes (data 10) (data 11) (data 12) (data 13) (data 14) (data 15)) := by
  have hRootTime : (TimeData.read 4).value (payloadData
      ((Coordinator.sendTimeSyncRespPacket rootTime nodeAddr).value data)) = rootTime := by
    rw [TimeData.value_read]
    exact rootTime.ofBytes_bytes
  have hRequestTime : (TimeData.read 10).value (payloadData
      ((Coordinator.sendTimeSyncRespPacket rootTime nodeAddr).value data)) =
        TimeData.ofBytes (data 10) (data 11) (data 12) (data 13) (data 14) (data 15) := by
    rw [TimeData.value_read]
    rfl
  unfold Node.Receiving.timeResponse
  rw [Reads.value_bind, Reads.value_bind, Reads.value_pure, hRootTime, hRequestTime]

theorem udpReceiver_sendTimeSyncRespPacket (rootTime : TimeData) (data : Nat → Byte) :
    Node.udpReceiver (payloadData
      ((Coordinator.sendTimeSyncRespPacket rootTime nodeAddr).value data)) = .timeDataHandler := rfl

/-- The root answers a request with its time, and the time of the node comes back. -/
theorem timeResponse_request (rootTime localTime : TimeData) :
    Node.Receiving.timeResponse.value (payloadData
      ((Coordinator.sendTimeSyncRespPacket rootTime nodeAddr).value
        (payloadData (sendTimeSyncReqPacket rootAddr localTime)))) = (rootTime, localTime) := by
  rw [timeResponse_sendTimeSyncRespPacket]
  exact congrArg (Prod.mk rootTime) localTime.ofBytes_bytes

/-- The root sends a confirmation, a pong or the answer to a request. -/
theorem mem_sent_udpDataReceiver {senderAddr : Ipv6Address} {datalen : Nat} {data : Nat → Byte}
    {datagram : Datagram} (h : datagram ∈
      ((Coordinator.udpDataReceiver rootTime senderAddr datalen).value data).sent) :
    datagram = Coordinator.sendConfirmationPacket senderAddr ∨
      datagram = Coordinator.sendPongPacket senderAddr ∨
      datagram = (Coordinator.sendTimeSyncRespPacket rootTime senderAddr).value data := by
  simp only [Coordinator.udpDataReceiver, Coordinator.decryptedDataProcessed, Reads.value_bind,
    Reads.value_ite, Reads.value_pure] at h
  split_ifs at h
  · exact Or.inl (List.mem_singleton.mp h)
  · exact Or.inr (Or.inl (List.mem_singleton.mp h))
  · exact Or.inr (Or.inr (List.mem_singleton.mp h))
  · exact absurd h List.not_mem_nil
  · exact absurd h List.not_mem_nil
  · exact absurd h List.not_mem_nil
  · exact absurd h List.not_mem_nil

theorem localCommandOffset_normal {root : EpochOffset} (h : root.Normal) (uartData : Nat → Byte)
    (ticks : Nat) : (localCommandOffset root uartData ticks).Normal := by
  unfold localCommandOffset
  split
  · exact (setEpochTime_spec (TimeData.assign_zero_normal _) ticks).1
  · exact EpochOffset.initial_normal
  · exact h
  · exact h

theorem receiveOffset_normal {node : EpochOffset} {datagram : Datagram} (hNode : node.Normal)
    (hAnswer : Node.udpReceiver (payloadData datagram) = .timeDataHandler →
      (Node.Receiving.timeResponse.value (payloadData datagram)).1.Normal) (ticks : Nat) :
    (receiveOffset node datagram ticks).Normal := by
  unfold receiveOffset
  split
  · exact timeDataHandler_normal hNode (hAnswer ‹_›) _ ticks
  · exact hNode

/-- What the root sends while its time is normal. -/
theorem sent_normal {senderAddr : Ipv6Address} {datalen : Nat} {data : Nat → Byte}
    {datagram : Datagram} (hRoot : rootTime.Normal) (h : datagram ∈
      ((Coordinator.udpDataReceiver rootTime senderAddr datalen).value data).sent)
    (hAnswer : Node.udpReceiver (payloadData datagram) = .timeDataHandler) :
    (Node.Receiving.timeResponse.value (payloadData datagram)).1.Normal := by
  rcases mem_sent_udpDataReceiver h with rfl | rfl | rfl
  · cases hAnswer
  · cases hAnswer
  · rw [timeResponse_sendTimeSyncRespPacket]
    exact hRoot

theorem Network.Normal.step (h : net.Normal) {event : Event}
    (hStep : Time.step nodeAddr rootAddr net event = some other) : other.Normal := by
  cases event with
  | nodeReset =>
      obtain rfl := Option.some.inj hStep
      exact { h with node := EpochOffset.initial_normal }
  | localCommand uartData ticks =>
      obtain rfl := Option.some.inj hStep
      exact { h with root := localCommandOffset_normal h.root uartData ticks }
  | sendRequest ticks =>
      obtain rfl := Option.some.inj hStep
      refine { h with answers := ?_ }
      rw [List.forall_mem_append, List.forall_mem_singleton]
      exact ⟨h.answers, nofun⟩
  | rootReceive datagram ticks =>
      rw [Time.step] at hStep
      split_ifs at hStep
      obtain rfl := Option.some.inj hStep
      have hRoot := (getEpochTime_spec h.root ticks).1
      refine { h with answers := ?_ }
      rw [List.forall_mem_append]
      exact ⟨h.answers, fun answer hSent => sent_normal hRoot hSent⟩
  | nodeReceive datagram ticks =>
      rw [Time.step] at hStep
      split_ifs at hStep with hMem
      obtain rfl := Option.some.inj hStep
      exact { h with node := receiveOffset_normal h.node (h.answers datagram hMem) ticks }

/-- In every state that the two reach, their clocks are normal. -/
theorem Network.normal_of_reaches (run : Reaches (Time.step nodeAddr rootAddr)
    (fun _ _ => True) Network.initial net) : net.Normal := by
  apply run.invariant Network.Normal
  · exact ⟨EpochOffset.initial_normal, EpochOffset.initial_normal, nofun⟩
  · intro before event after h _ hStep
    exact h.step hStep

/-- One exchange: the request at `request` of the node's counter, the answer at `answer` of
the root's, and its arrival at `arrival` of the node's. -/
def exchange (nodeAddr rootAddr : Ipv6Address) (net : Network) (request answer arrival : Nat) :
    List Event :=
  let requestDatagram := sendTimeSyncReqPacket rootAddr (getEpochTime net.node request)
  let answerDatagram := (Coordinator.sendTimeSyncRespPacket (getEpochTime net.root answer)
    nodeAddr).value (payloadData requestDatagram)
  [.sendRequest request, .rootReceive requestDatagram answer, .nodeReceive answerDatagram arrival]

/-- An exchange is possible in every state. It leaves the clock of the root alone, and the
handler of the node gets the time of each of the two. -/
theorem runAll_exchange (nodeAddr rootAddr : Ipv6Address) (net : Network)
    (request answer arrival : Nat) :
    ∃ after, runAll (step nodeAddr rootAddr) net
        (exchange nodeAddr rootAddr net request answer arrival) = some after ∧
      after.root = net.root ∧ after.node = (timeDataHandler net.node (getEpochTime net.root answer)
        (getEpochTime net.node request) arrival).1 := by
  have hSent (rootTime localTime : TimeData) : ((Coordinator.udpDataReceiver rootTime nodeAddr
      (sendTimeSyncReqPacket rootAddr localTime).payload.length).value
        (payloadData (sendTimeSyncReqPacket rootAddr localTime))).sent =
          [(Coordinator.sendTimeSyncRespPacket rootTime nodeAddr).value
            (payloadData (sendTimeSyncReqPacket rootAddr localTime))] := rfl
  have hReceive (rootTime localTime : TimeData) : receiveOffset net.node
      ((Coordinator.sendTimeSyncRespPacket rootTime nodeAddr).value
        (payloadData (sendTimeSyncReqPacket rootAddr localTime))) arrival =
          (timeDataHandler net.node rootTime localTime arrival).1 := by
    unfold receiveOffset
    rw [udpReceiver_sendTimeSyncRespPacket, timeResponse_request]
  simp only [exchange, runAll, step, Option.bind_some, List.mem_append, List.mem_singleton, or_true,
    if_true, hSent, hReceive, Option.some.injEq, exists_eq_left', and_self]

/-- Two times are at most `n` milliseconds apart, on the circle of all seconds. -/
def TimeData.Within (n : Nat) (time other : TimeData) : Prop :=
  ((time.total : Int) - other.total) % 4294967296000 ≤ n ∨
    ((other.total : Int) - time.total) % 4294967296000 ≤ n

/-- The node's time of the epoch at one value of its counter is the root's at one of its. -/
def Network.Synchronized (net : Network) (nodeTicks rootTicks : Nat) : Prop :=
  (getEpochTime net.node nodeTicks).Within 2 (getEpochTime net.root rootTicks)

/-- After an exchange the node is behind by the time of the answer's way and, once more,
by half of the round trip. -/
theorem exchange_synchronized_iff (nodeAddr rootAddr : Ipv6Address) (hNet : net.Normal)
    {request answer arrival now : Nat}
    (hRequest : request ≤ arrival) (hAnswer : answer ≤ now)
    (hRoundTrip : arrival ≤ request + 6 * 0x100000000) (hWay : now ≤ answer + 6 * 0x100000000) :
    ∃ after, runAll (step nodeAddr rootAddr) net
        (exchange nodeAddr rootAddr net request answer arrival) = some after ∧
      (after.Synchronized arrival now ↔ rtcCount now - rtcCount answer +
        (rtcCount arrival - rtcCount request) / 2 ≤ 2) := by
  obtain ⟨after, hRun, hRoot, hNode⟩ :=
    runAll_exchange nodeAddr rootAddr net request answer arrival
  refine ⟨after, hRun, ?_⟩
  have hTransit : rtcCount arrival ≤ rtcCount request + 6 * 1000 := by
    rw [← rtcCount_add_seconds]
    exact rtcCount_le hRoundTrip
  have hBack : rtcCount now ≤ rtcCount answer + 6 * 1000 := by
    rw [← rtcCount_add_seconds]
    exact rtcCount_le hWay
  have hForward := rtcCount_le hAnswer
  obtain ⟨hAnswered, hAnswerTotal⟩ := getEpochTime_spec hNet.root answer
  obtain ⟨-, hNowTotal⟩ := getEpochTime_spec hNet.root now
  have hBehind := getEpochTime_timeDataHandler hNet.node hAnswered hRequest (by omega)
  unfold Network.Synchronized TimeData.Within
  rw [hRoot, hNode]
  omega

/-- The counter `t` seconds after its start. -/
noncomputable def ticksAt (t : ℝ≥0) : Nat := ⌊t * 0x100000000⌋₊

theorem ticksAt_le {t u : ℝ≥0} (h : t ≤ u) : ticksAt t ≤ ticksAt u :=
  Nat.floor_mono (mul_le_mul_left h _)

theorem ticksAt_natCast (n : Nat) : ticksAt n = n * 0x100000000 := by
  unfold ticksAt
  exact_mod_cast Nat.floor_natCast (n * 0x100000000)

theorem ticksAt_add_le {t d : ℝ≥0} {n : Nat} (h : d ≤ n) :
    ticksAt (t + d) ≤ ticksAt t + n * 0x100000000 := by
  calc ticksAt (t + d) ≤ ⌊t * 0x100000000 + (n * 0x100000000 : Nat)⌋₊ := by
        apply Nat.floor_mono
        push_cast
        rw [← add_mul]
        gcongr
    _ = ticksAt t + n * 0x100000000 := Nat.floor_add_natCast zero_le _

/-- **When an exchange synchronises the clock of a node.** The node is `2 * delay` older on
arrival than at its request, the root `delay` older than at its answer. -/
theorem exchange_synchronizes_iff (run : Reaches (step nodeAddr rootAddr) (fun _ _ => True)
    Network.initial net) (sent answered delay : ℝ≥0) (h : 2 * delay ≤ 6) :
    ∃ after, runAll (step nodeAddr rootAddr) net (exchange nodeAddr rootAddr net (ticksAt sent)
        (ticksAt answered) (ticksAt (sent + 2 * delay))) = some after ∧
      (after.Synchronized (ticksAt (sent + 2 * delay)) (ticksAt (answered + delay)) ↔
        rtcCount (ticksAt (answered + delay)) - rtcCount (ticksAt answered) +
          (rtcCount (ticksAt (sent + 2 * delay)) - rtcCount (ticksAt sent)) / 2 ≤ 2) := by
  have hDelay : delay ≤ 2 * delay := by
    rw [two_mul]
    exact le_add_self
  apply exchange_synchronized_iff nodeAddr rootAddr (Network.normal_of_reaches run)
  · exact ticksAt_le le_self_add
  · exact ticksAt_le le_self_add
  · exact ticksAt_add_le (by exact_mod_cast h)
  · exact ticksAt_add_le (by exact_mod_cast hDelay.trans h)

/-- Between neighbours, with no delay at all. -/
theorem exchange_synchronizes_at_once : ∃ after,
    runAll (step (Vector.replicate 16 0) (Vector.replicate 16 1)) Network.initial
        (exchange (Vector.replicate 16 0) (Vector.replicate 16 1) Network.initial (ticksAt 0)
          (ticksAt 0) (ticksAt (0 + 2 * 0))) = some after ∧
      after.Synchronized (ticksAt (0 + 2 * 0)) (ticksAt (0 + 0)) := by
  have hReaches : Reaches (step (Vector.replicate 16 0) (Vector.replicate 16 1)) (fun _ _ => True)
      Network.initial Network.initial := Reaches.start
  obtain ⟨after, hRun, hIff⟩ := exchange_synchronizes_iff hReaches 0 0 0 (by norm_num)
  refine ⟨after, hRun, hIff.mpr ?_⟩
  simp

/-- With a second for each of the two ways, the node is two seconds behind. -/
theorem exchange_synchronizes_fails : ¬ ∀ (nodeAddr rootAddr : Ipv6Address) (net : Network)
    (sent answered delay : ℝ≥0),
    Reaches (step nodeAddr rootAddr) (fun _ _ => True) Network.initial net → 2 * delay ≤ 6 →
      ∃ after, runAll (step nodeAddr rootAddr) net (exchange nodeAddr rootAddr net (ticksAt sent)
          (ticksAt answered) (ticksAt (sent + 2 * delay))) = some after ∧
        after.Synchronized (ticksAt (sent + 2 * delay)) (ticksAt (answered + delay)) := by
  intro h
  have hReaches : Reaches (step (Vector.replicate 16 0) (Vector.replicate 16 1)) (fun _ _ => True)
      Network.initial Network.initial := Reaches.start
  obtain ⟨after, hRun, hSynchronized⟩ := h _ _ _ 0 0 1 hReaches (by norm_num)
  have hStart : ticksAt 0 = 0 := by simpa using ticksAt_natCast 0
  have hOne : ticksAt (0 + 1) = 0x100000000 := by simpa using ticksAt_natCast 1
  have hTwo : ticksAt (0 + 2 * 1) = 2 * 0x100000000 := by simpa using ticksAt_natCast 2
  rw [hStart, hTwo] at hRun
  rw [hOne, hTwo] at hSynchronized
  have hArrival : 0 ≤ 2 * 0x100000000 := by decide
  have hNow : 0 ≤ 0x100000000 := by decide
  obtain ⟨other, hOther, hIff⟩ := exchange_synchronized_iff _ _
    (Network.normal_of_reaches hReaches) hArrival hNow (by decide) (by decide)
  obtain rfl := Option.some.inj (hRun.symm.trans hOther)
  exact absurd (hIff.mp hSynchronized) (by decide)

end Smarthome.Time
