import Smarthome.Mesh.Network

/-! How a node gets into the network: through a coordinator that has heard it, and that has told
the router so. -/
namespace Smarthome.Mesh

open Semantics Coordinator Node.Membership

variable {Index Other : Type} {layout : Layout Index} {s : Network Index Other}
  {heard : List Hearing}

/-- The coordinator has received a join of the node, and printed it for the router. -/
def Announced (layout : Layout Index) (heard : List Hearing) (root node : Ipv6Address) : Prop :=
  root ∈ layout.roots ∧ ∃ h ∈ heard, h.root = root ∧ h.sender = node ∧
    h.payload[2]? = some dataTypeJoin ∧ h.printed = rawText node h.payload

/-- The coordinator has received a status report or a sensor event of the node. -/
def Reported (layout : Layout Index) (heard : List Hearing) (root node : Ipv6Address) : Prop :=
  root ∈ layout.roots ∧ ∃ h ∈ heard, h.root = root ∧ h.sender = node ∧
    (h.payload[2]? = some dataTypeStatus ∨ h.payload[2]? = some dataTypeSensorData)

/-- What a node sends to where it has not been announced is a join or a request for firmware. -/
def Admitted (layout : Layout Index) (heard : List Hearing) (destination source : Ipv6Address)
    (payload : List Byte) : Prop :=
  ∀ i, source = layout.addr i → payload[2]? = some dataTypeJoin ∨
    payload[2]? = some dataTypeFirmwareCmd ∨ Announced layout heard destination source

/-- Why a datagram of this type was sent. -/
structure Justified (layout : Layout Index) (heard : List Hearing) (t : Transmission) : Prop where
  long : 3 ≤ t.payload.length
  join : t.payload[2]? = some dataTypeJoin → t.payload.length = 10
  confirm : t.payload[2]? = some dataTypeJoinConfirm →
    Announced layout heard t.source t.destination
  pong : t.payload[2]? = some dataTypePong → Reported layout heard t.source t.destination
  admitted : Admitted layout heard t.destination t.source t.payload

structure Inv (layout : Layout Index) (s : Network Index Other) [DecidableEq Other] : Prop where
  nodes : ∀ i, (s.nodes i).Inv
  confirmed : ∀ i, ∀ root ∈ (s.nodes i).vars.confirmed,
    Announced layout s.heard root (layout.addr i)
  air : ∀ t ∈ s.air, Justified layout s.heard t
  heard : ∀ h ∈ s.heard, Admitted layout s.heard h.root h.sender h.payload

section History

variable {later : List Hearing} (hHeard : heard ⊆ later)

include hHeard

theorem Announced.mono {root node : Ipv6Address} (h : Announced layout heard root node) :
    Announced layout later root node := by
  obtain ⟨hRoot, hearing, hMem, hHearing⟩ := h
  exact ⟨hRoot, hearing, hHeard hMem, hHearing⟩

theorem Reported.mono {root node : Ipv6Address} (h : Reported layout heard root node) :
    Reported layout later root node := by
  obtain ⟨hRoot, hearing, hMem, hHearing⟩ := h
  exact ⟨hRoot, hearing, hHeard hMem, hHearing⟩

theorem Admitted.mono {destination source : Ipv6Address} {payload : List Byte}
    (h : Admitted layout heard destination source payload) :
    Admitted layout later destination source payload :=
  fun i hSource => (h i hSource).imp_right fun hRest => hRest.imp_right (Announced.mono hHeard)

theorem Justified.mono {t : Transmission} (h : Justified layout heard t) :
    Justified layout later t where
  long := h.long
  join := h.join
  confirm hType := (h.confirm hType).mono hHeard
  pong hType := (h.pong hType).mono hHeard
  admitted := h.admitted.mono hHeard

end History

section Receivers

variable {data : Nat → Byte}

theorem firmwareCommand_ne {command data4 data5 : Byte} {call : Node.ReceiverCall}
    (hCall : call = .joinConfirmHandler ∨ call = .pongHandler) :
    Node.firmwareCommand command data4 data5 ≠ call := by
  unfold Node.firmwareCommand
  rcases hCall with rfl | rfl <;> split_ifs <;> exact nofun

/-- The type byte alone leads to the two handlers. -/
theorem type_of_receiverEvent {senderAddr : Ipv6Address} {event : NodeEvent Other}
    (h : receiverEvent senderAddr (Node.udpReceiver data) = some event) :
    data 2 = dataTypeJoinConfirm ∧ event = .joinConfirm senderAddr ∨
      data 2 = dataTypePong ∧ event = .pong := by
  revert h
  unfold Node.udpReceiver
  split_ifs with hVersion hConfirm hCommand hUart hPong hFirmware hTime hResponse hSync hSchedule
    hFirmwareCmd
  · intro h
    exact Or.inl ⟨hConfirm, (Option.some.inj h).symm⟩
  · exact nofun
  · exact nofun
  · intro h
    exact Or.inr ⟨hPong, (Option.some.inj h).symm⟩
  · exact nofun
  · exact nofun
  · exact nofun
  · exact nofun
  · exact nofun
  · intro h
    cases hCall : Node.firmwareCommand (data 3) (data 4) (data 5) with
    | joinConfirmHandler => exact absurd hCall (firmwareCommand_ne (Or.inl rfl))
    | pongHandler => exact absurd hCall (firmwareCommand_ne (Or.inr rfl))
    | _ =>
        rw [hCall] at h
        cases h
  · exact nofun
  · exact nofun

/-- A coordinator answers the sender of a datagram, and prints a join that it confirms. -/
structure Answers (senderAddr : Ipv6Address) (datalen : Nat) (data : Nat → Byte)
    (printed : List Char) (d : Datagram) : Prop where
  destination : d.destination = senderAddr
  long : 3 ≤ d.payload.length
  type : d.payload[2]? = some dataTypeJoinConfirm ∧ data 2 = dataTypeJoin ∧
      printed = (dagRootRawPrint senderAddr datalen).value data ∨
    d.payload[2]? = some dataTypePong ∧ (data 2 = dataTypeStatus ∨ data 2 = dataTypeSensorData) ∨
    d.payload[2]? = some dataTypeSetTime

theorem answers_udpDataReceiver (rootTime : Time.TimeData) (senderAddr : Ipv6Address)
    (datalen : Nat) :
    ∀ d ∈ ((udpDataReceiver rootTime senderAddr datalen).value data).sent,
      Answers senderAddr datalen data
        ((udpDataReceiver rootTime senderAddr datalen).value data).printed d := by
  intro d hMem
  simp only [udpDataReceiver, decryptedDataProcessed, Reads.value_bind, Reads.value_ite,
    Reads.value_pure] at hMem ⊢
  split_ifs at hMem ⊢ with hVersion hJoin hReport hTime hRequest
  · obtain rfl := List.mem_singleton.mp hMem
    exact ⟨rfl, by simp [sendConfirmationPacket], Or.inl ⟨rfl, hJoin, rfl⟩⟩
  · obtain rfl := List.mem_singleton.mp hMem
    exact ⟨rfl, by simp [sendPongPacket], Or.inr (Or.inl ⟨rfl, hReport⟩)⟩
  · obtain rfl := List.mem_singleton.mp hMem
    exact ⟨rfl, by simp [sendTimeSyncRespPacket], Or.inr (Or.inr rfl)⟩
  all_goals cases hMem

/-- What a coordinator forwards is of the types of the four slots. -/
theorem type_of_relay {slots : Slots} {packet : UartPacket} {datagrams : List Datagram}
    (hRelay : Coordinator.relay slots packet = some datagrams) {d : Datagram}
    (hMem : d ∈ datagrams) : 3 ≤ d.payload.length ∧ ∃ dataType ∈ [dataTypeCommand,
      dataTypeFirmware, dataTypeFirmwareCmd, dataTypeUart], d.payload[2]? = some dataType := by
  have hSlot {ready : Bool} {datagram : Datagram} (hTransmit : d ∈ transmit true ready datagram) :
      d = datagram := by
    unfold transmit at hTransmit
    split_ifs at hTransmit
    · exact List.mem_singleton.mp hTransmit
    · cases hTransmit
  obtain ⟨effect, -, rfl⟩ := Option.map_eq_some_iff.mp hRelay
  simp only [sendCommandProcess, List.mem_append] at hMem
  rcases hMem with ((hCommand | hFirmware) | hFirmwareCmd) | hUart
  · obtain rfl := hSlot hCommand
    exact ⟨by simp [sendCommandPacket], dataTypeCommand, by simp, rfl⟩
  · obtain rfl := hSlot hFirmware
    exact ⟨by simp [sendFirmwarePacket], dataTypeFirmware, by simp, rfl⟩
  · obtain rfl := hSlot hFirmwareCmd
    exact ⟨by simp [sendFirmwareCmdPacket], dataTypeFirmwareCmd, by simp, rfl⟩
  · obtain rfl := hSlot hUart
    exact ⟨by simp [sendUartPacket], dataTypeUart, by simp, rfl⟩

end Receivers

section Packets

theorem join_mem_packetTypes {kind : PacketKind} : dataTypeJoin ∈ packetTypes kind ↔ kind = .join := by
  cases kind <;> decide

theorem confirm_notMem_packetTypes (kind : PacketKind) : dataTypeJoinConfirm ∉ packetTypes kind := by
  cases kind <;> decide

theorem pong_notMem_packetTypes (kind : PacketKind) : dataTypePong ∉ packetTypes kind := by
  cases kind <;> decide

variable {vars after : NodeVars}

theorem confirmed_effect (h : Effect vars after) : after.confirmed = vars.confirmed := by
  cases h with
  | quiet hQuiet => exact hQuiet.confirmed
  | sends packet hCount hConfirmed hSent hPacket => exact hConfirmed
  | looks hFew => rfl
  | counts => rfl

theorem newPacket_effect (h : Effect vars after) {packet : SentPacket}
    (hNew : newPacket vars after = some packet) :
    packet ∈ after.sent ∧ packet.confirmed = vars.confirmed := by
  have hOld (hSent : after.sent = vars.sent) : packet ∈ after.sent ∧
      packet.confirmed = vars.confirmed := by
    rw [newPacket, if_pos (congrArg List.length hSent)] at hNew
    cases hNew
  cases h with
  | quiet hQuiet => exact hOld hQuiet.sent
  | looks hFew => exact hOld rfl
  | counts => exact hOld rfl
  | sends first hCount hConfirmed hSent hPacket =>
      rw [newPacket, hSent, if_neg (by simp)] at hNew
      obtain rfl := Option.some.inj hNew
      exact ⟨hSent ▸ List.mem_cons_self, hPacket⟩

end Packets

section Kept

theorem justified_of_root {root destination : Ipv6Address} {payload : List Byte}
    (hRoot : root ∈ layout.roots) (hLong : 3 ≤ payload.length)
    (hJoin : payload[2]? ≠ some dataTypeJoin)
    (hConfirm : payload[2]? = some dataTypeJoinConfirm → Announced layout heard root destination)
    (hPong : payload[2]? = some dataTypePong → Reported layout heard root destination) :
    Justified layout heard ⟨root, destination, payload⟩ where
  long := hLong
  join hType := absurd hType hJoin
  confirm := hConfirm
  pong := hPong
  admitted i hSource := absurd (hSource ▸ hRoot) (layout.apart i)

theorem printed_join {senderAddr : Ipv6Address} {t : Transmission} (hLength : t.payload.length = 10)
    (behind : Nat → Byte) :
    (dagRootRawPrint senderAddr t.payload.length).value (t.data behind) =
      rawText senderAddr t.payload := by
  have hData : (List.range 10).map (fun i => t.data behind (0 + i)) = t.payload := by
    refine List.ext_getElem (by simp [hLength]) fun i hi hPayload => ?_
    simp [Transmission.data, hPayload]
  rw [hLength, dagRootRawPrint, if_neg (by decide), Reads.value_bind, Reads.value_readRange, hData]
  rfl

variable [DecidableEq Other]

/-- A node moves on, and has no more confirmations than it is allowed. -/
theorem Inv.setNode [DecidableEq Index] (h : Inv layout s) {i : Index} {node : MeshNode Other} (hNode : node.Inv)
    (hConfirmed : ∀ root ∈ node.vars.confirmed,
      Announced layout s.heard root (layout.addr i)) : Inv layout (s.setNode i node) where
  nodes j := by
    show (Function.update s.nodes i node j).Inv
    rcases eq_or_ne j i with rfl | hNe
    · rw [Function.update_self]
      exact hNode
    · rw [Function.update_of_ne hNe]
      exact h.nodes j
  confirmed j root hRoot := by
    replace hRoot : root ∈ (Function.update s.nodes i node j).vars.confirmed := hRoot
    rcases eq_or_ne j i with rfl | hNe
    · rw [Function.update_self] at hRoot
      exact hConfirmed root hRoot
    · rw [Function.update_of_ne hNe] at hRoot
      exact h.confirmed j root hRoot
  air := h.air
  heard := h.heard

theorem Inv.transmit (h : Inv layout s) {source : Ipv6Address} {datagrams : List Datagram}
    (hJustified : ∀ d ∈ datagrams, Justified layout s.heard ⟨source, d.destination, d.payload⟩) :
    Inv layout (s.transmit source datagrams) where
  nodes := h.nodes
  confirmed := h.confirmed
  air t hMem := by
    rcases List.mem_append.mp hMem with hNew | hOld
    · obtain ⟨d, hd, rfl⟩ := List.mem_map.mp hNew
      exact hJustified d hd
    · exact h.air t hOld
  heard := h.heard

theorem Inv.hear (h : Inv layout s) (hearing : Hearing)
    (hAdmitted : Admitted layout s.heard hearing.root hearing.sender hearing.payload) :
    Inv layout { s with heard := hearing :: s.heard } := by
  have hGrows : s.heard ⊆ hearing :: s.heard := List.subset_cons_self hearing s.heard
  refine ⟨h.nodes, ?_, ?_, ?_⟩
  · exact fun i root hRoot => (h.confirmed i root hRoot).mono hGrows
  · exact fun t hMem => (h.air t hMem).mono hGrows
  · intro earlier hMem
    rcases List.mem_cons.mp hMem with rfl | hOld
    · exact hAdmitted.mono hGrows
    · exact (h.heard earlier hOld).mono hGrows

/-- The packet of a step goes to the coordinator that has confirmed the node, or it is a join or
a request for firmware. -/
theorem justified_newPacket (h : Inv layout s) {i : Index} {node : MeshNode Other}
    (hNode : node.Inv) (hEffect : Effect (s.nodes i).vars node.vars) {packet : SentPacket}
    (hNew : newPacket (s.nodes i).vars node.vars = some packet) {payload : List Byte}
    (hContents : IsContents packet.kind payload) :
    Justified layout s.heard ⟨layout.addr i, packet.destination, payload⟩ := by
  obtain ⟨hMem, hConfirmed⟩ := newPacket_effect hEffect hNew
  obtain ⟨⟨dataType, hKind, hType⟩, hLength⟩ := hContents
  have hProper := hNode.joined.proper packet hMem
  have hMember (hOther : packet.kind ≠ .join) (hRequest : packet.kind ≠ .fwChunkReq) :
      Announced layout s.heard packet.destination (layout.addr i) := by
    obtain ⟨hDestination, hMember⟩ := hProper.resolve_left hOther
    obtain ⟨root, rest, hRoot⟩ := List.exists_cons_of_ne_nil (hMember.resolve_left hRequest)
    rw [hDestination, hRoot]
    refine h.confirmed i root ?_
    rw [← hConfirmed, hRoot]
    exact List.mem_cons_self
  have hOnly (other : Byte) (hOther : payload[2]? = some other) :
      other ∈ packetTypes packet.kind := by
    rw [hType] at hOther
    exact Option.some.inj hOther ▸ hKind
  have hShort : 3 ≤ payload.length := by
    rcases hLength with hTen | ⟨-, hRest | hRest⟩ <;> omega
  refine ⟨hShort, fun hJoin => ?_, fun hConfirm => ?_, fun hPong => ?_, fun j _ => ?_⟩
  · have hKindJoin : packet.kind = .join := join_mem_packetTypes.mp (hOnly _ hJoin)
    exact hLength.resolve_right fun hRest => hRest.1 hKindJoin
  · exact absurd (hOnly _ hConfirm) (confirm_notMem_packetTypes _)
  · exact absurd (hOnly _ hPong) (pong_notMem_packetTypes _)
  · by_cases hJoin : packet.kind = .join
    · rw [hJoin, packetTypes, List.mem_singleton] at hKind
      exact Or.inl (hKind ▸ hType)
    · by_cases hRequest : packet.kind = .fwChunkReq
      · rw [hRequest, packetTypes, List.mem_singleton] at hKind
        exact Or.inr (Or.inl (hKind ▸ hType))
      · exact Or.inr (Or.inr (hMember hJoin hRequest))

end Kept

section Steps

variable [DecidableEq Index] [DecidableEq Other] [Fintype Other]

theorem inv_node (h : Inv layout s) {i : Index} {event : NodeEvent Other} {payload : List Byte}
    {u : Network Index Other} (hStep : s.step layout (.node i event payload) = some u) :
    Inv layout u := by
  simp only [Network.step] at hStep
  split_ifs at hStep with hInner
  rw [Option.bind_eq_some_iff] at hStep
  obtain ⟨node, hNode, hSent⟩ := hStep
  have hEffect := MeshNode.effect_step hInner hNode
  have hInv : node.Inv := ((h.nodes i).step hNode).1
  have hMoved : Inv layout (s.setNode i node) :=
    h.setNode hInv fun root hRoot => h.confirmed i root (confirmed_effect hEffect ▸ hRoot)
  split at hSent
  · obtain rfl := Option.some.inj hSent
    exact hMoved
  · rename_i packet hNew
    split_ifs at hSent with hContents
    obtain rfl := Option.some.inj hSent
    refine hMoved.transmit fun d hMem => ?_
    obtain rfl := List.mem_singleton.mp hMem
    exact justified_newPacket h hInv hEffect hNew hContents

/-- A confirmation that a node gets is one of a coordinator that has announced it. -/
theorem inv_receive (h : Inv layout s) {i : Index} {t : Transmission} {behind : Nat → Byte}
    {u : Network Index Other} (hStep : s.step layout (.receive i t behind) = some u) :
    Inv layout u := by
  simp only [Network.step] at hStep
  split_ifs at hStep with hComes
  obtain ⟨hMem, hDestination⟩ := hComes
  have hJustified := h.air t hMem
  have hByte : t.payload[2]? = some (t.data behind 2) := by
    have hLong := hJustified.long
    rw [Transmission.data, List.getD_eq_getElem?_getD, List.getElem?_eq_getElem (by omega),
      Option.getD_some]
  cases hEvent : @receiverEvent Other t.source (Node.udpReceiver (t.data behind)) with
  | none =>
      rw [hEvent] at hStep
      obtain rfl := Option.some.inj hStep
      exact h
  | some event =>
      rw [hEvent] at hStep
      obtain ⟨node, hNode, rfl⟩ := Option.map_eq_some_iff.mp hStep
      refine h.setNode ((h.nodes i).step hNode).1 fun root hRoot => ?_
      rcases type_of_receiverEvent hEvent with ⟨hConfirm, rfl⟩ | ⟨-, rfl⟩
      · rw [MeshNode.vars_joinConfirm hNode] at hRoot
        rcases List.mem_cons.mp hRoot with rfl | hOld
        · rw [hConfirm] at hByte
          exact hDestination ▸ hJustified.confirm hByte
        · exact h.confirmed i root hOld
      · rw [MeshNode.vars_pong hNode] at hRoot
        exact h.confirmed i root hRoot

theorem inv_hear (h : Inv layout s) {t : Transmission} {behind : Nat → Byte}
    {rootTime : Time.TimeData} {u : Network Index Other}
    (hStep : s.step layout (.hear t behind rootTime) = some u) : Inv layout u := by
  simp only [Network.step] at hStep
  split_ifs at hStep with hComes
  obtain ⟨hMem, hRoot⟩ := hComes
  obtain rfl := Option.some.inj hStep
  have hJustified := h.air t hMem
  have hByte : t.payload[2]? = some (t.data behind 2) := by
    have hLong := hJustified.long
    rw [Transmission.data, List.getD_eq_getElem?_getD, List.getElem?_eq_getElem (by omega),
      Option.getD_some]
  refine (h.hear ⟨t.destination, t.source, t.payload, _⟩ hJustified.admitted).transmit
    fun d hSent => ?_
  have hAnswer := answers_udpDataReceiver rootTime t.source t.payload.length d hSent
  rcases hAnswer.type with ⟨hType, hJoin, hPrinted⟩ | ⟨hType, hReport⟩ | hType
  · refine justified_of_root hRoot hAnswer.long (hType ▸ by decide) (fun _ => ?_)
      fun hPong => absurd (hType.symm.trans hPong) (by decide)
    rw [hJoin] at hByte
    refine ⟨hRoot, _, List.mem_cons_self, rfl, hAnswer.destination.symm, hByte, ?_⟩
    rw [hAnswer.destination, hPrinted, printed_join (hJustified.join hByte)]
  · refine justified_of_root hRoot hAnswer.long (hType ▸ by decide)
      (fun hConfirm => absurd (hType.symm.trans hConfirm) (by decide)) fun _ => ?_
    refine ⟨hRoot, _, List.mem_cons_self, rfl, hAnswer.destination.symm, ?_⟩
    exact hReport.imp (fun hStatus => hByte.trans (congrArg some hStatus))
      fun hSensor => hByte.trans (congrArg some hSensor)
  · exact justified_of_root hRoot hAnswer.long (hType ▸ by decide)
      (fun hConfirm => absurd (hType.symm.trans hConfirm) (by decide))
      fun hPong => absurd (hType.symm.trans hPong) (by decide)

theorem inv_relay (h : Inv layout s) {root : Ipv6Address} {slots : Slots} {packet : UartPacket}
    {u : Network Index Other} (hStep : s.step layout (.relay root slots packet) = some u) :
    Inv layout u := by
  simp only [Network.step] at hStep
  split_ifs at hStep with hRoot
  obtain ⟨datagrams, hRelay, rfl⟩ := Option.map_eq_some_iff.mp hStep
  refine h.transmit fun d hMem => ?_
  obtain ⟨hLong, dataType, hTypes, hType⟩ := type_of_relay hRelay hMem
  have hOther (other : Byte) (hNot : other ∉ [dataTypeCommand, dataTypeFirmware,
      dataTypeFirmwareCmd, dataTypeUart]) : d.payload[2]? ≠ some other := by
    intro hSame
    rw [hType, Option.some.injEq] at hSame
    exact hNot (hSame ▸ hTypes)
  exact justified_of_root hRoot hLong (hOther _ (by decide))
    (fun hConfirm => absurd hConfirm (hOther _ (by decide)))
    fun hPong => absurd hPong (hOther _ (by decide))

theorem Inv.step (h : Inv layout s) {event : NetworkEvent Index Other} {u : Network Index Other}
    (hStep : s.step layout event = some u) : Inv layout u := by
  cases event with
  | node i event payload => exact inv_node h hStep
  | restart i slots =>
      obtain rfl := Option.some.inj hStep
      exact h.setNode (MeshNode.inv_boot slots) nofun
  | receive i t behind => exact inv_receive h hStep
  | hear t behind rootTime => exact inv_hear h hStep
  | relay root slots packet => exact inv_relay h hStep

theorem inv_of_run {slots : Index → Nat → Contiki.EventData (AnyProcess Other)}
    (run : Reaches (Network.step layout) (fun _ _ => True) (Network.start slots) s) :
    Inv layout s :=
  run.invariant (fun state => Inv layout state) ⟨fun i => MeshNode.inv_boot (slots i),
    fun _ _ hMem => absurd hMem List.not_mem_nil, fun _ hMem => absurd hMem List.not_mem_nil,
    fun _ hMem => absurd hMem List.not_mem_nil⟩
    fun _ _ _ hInv _ hStep => hInv.step hStep

end Steps

/-- A button, and the coordinator that its DAG has as root. -/
def hallway : Layout Unit where
  addr := fun _ => Vector.replicate 16 1
  nodeClass := fun _ => classC
  roots := [Vector.replicate 16 7]
  apart := by decide

def joinTransmission : Transmission :=
  ⟨Vector.replicate 16 1, Vector.replicate 16 7, [1, 1, dataTypeJoin, 0, 0, 0, 0, 0, 0, 0xFF]⟩

def confirmation : Transmission :=
  ⟨Vector.replicate 16 7, Vector.replicate 16 1,
    (sendConfirmationPacket (Vector.replicate 16 1)).payload⟩

def clickTransmission : Transmission :=
  ⟨Vector.replicate 16 1, Vector.replicate 16 7,
    [1, 1, dataTypeSensorData, 1, 0xFF, 0x41, 1, 0xFF, 0xFF, 0xFF]⟩

/-- The button searches, is confirmed, and sends an event, for which it gets a pong. -/
def enters : List (NetworkEvent Unit Empty) :=
  let own (payload : List Byte) (event : NodeEvent Empty) : NetworkEvent Unit Empty :=
    .node () event payload
  (joins.take 34).map (own joinTransmission.payload) ++
    [.hear joinTransmission (fun _ => 0) ⟨0, 0, by decide, by decide⟩,
      .receive () confirmation (fun _ => 0)] ++
    (joins.drop 35).map (own clickTransmission.payload) ++
    [.hear clickTransmission (fun _ => 0) ⟨0, 0, by decide, by decide⟩]

abbrev hallwayStart : Network Unit Empty := Network.start fun _ _ => ⟨0, .null, none⟩

theorem enters_run : ∃ s, runAll (Network.step hallway) hallwayStart enters = some s ∧
    (s.nodes ()).vars.nodeMode = .normal ∧ clickTransmission ∈ s.air ∧
    ∃ t ∈ s.air, t.payload[2]? = some dataTypePong ∧ t.destination = hallway.addr () := by
  have hAny : (runAll (Network.step hallway) hallwayStart enters).any (fun s =>
      (s.nodes ()).vars.nodeMode = .normal ∧ clickTransmission ∈ s.air ∧
        ∃ t ∈ s.air, t.payload[2]? = some dataTypePong ∧ t.destination = hallway.addr ()) = true := by
    decide +kernel
  obtain ⟨s, hRun, hState⟩ := (Option.any_eq_true _ _).mp hAny
  exact ⟨s, hRun, of_decide_eq_true hState⟩

section Results

variable [DecidableEq Index] [DecidableEq Other] [Fintype Other]

/-- **A member has been announced.** Whatever gets lost, comes late or comes twice, and however
often nodes restart: a node that is a member has the address of a coordinator that has received
a join of it and has printed it for the router. -/
theorem member_announced {slots : Index → Nat → Contiki.EventData (AnyProcess Other)}
    (run : Reaches (Network.step layout) (fun _ _ => True) (Network.start slots) s) (i : Index)
    (hMember : (s.nodes i).vars.nodeMode.Member) :
    Announced layout s.heard (s.nodes i).vars.rootAddr (layout.addr i) := by
  have h := inv_of_run run
  have hJoined := (h.nodes i).joined
  obtain ⟨root, rest, hConfirmed⟩ := List.exists_cons_of_ne_nil (hJoined.member hMember)
  rw [hJoined.rootAddr, hConfirmed]
  apply h.confirmed i
  rw [hConfirmed]
  exact List.mem_cons_self

/-- **Only the announced report.** A node sends status reports, events and messages to no one but
a coordinator that has announced it, and a pong comes only from one that has received such a
report or event of the node. -/
theorem traffic_announced {slots : Index → Nat → Contiki.EventData (AnyProcess Other)}
    (run : Reaches (Network.step layout) (fun _ _ => True) (Network.start slots) s) (i : Index)
    {t : Transmission} (hMem : t ∈ s.air) :
    (t.source = layout.addr i → t.payload[2]? ≠ some dataTypeJoin →
      t.payload[2]? ≠ some dataTypeFirmwareCmd →
        Announced layout s.heard t.destination (layout.addr i)) ∧
    (t.destination = layout.addr i → t.payload[2]? = some dataTypePong →
      Reported layout s.heard t.source (layout.addr i) ∧
        Announced layout s.heard t.source (layout.addr i)) := by
  have h := inv_of_run run
  have hJustified := h.air t hMem
  constructor
  · intro hSource hJoin hRequest
    have hAdmitted := ((hJustified.admitted i hSource).resolve_left hJoin).resolve_left hRequest
    exact hSource ▸ hAdmitted
  · intro hDestination hPong
    have hReported := hJustified.pong hPong
    rw [hDestination] at hReported
    refine ⟨hReported, ?_⟩
    obtain ⟨-, hearing, hHeard, hRoot, hSender, hType⟩ := hReported
    have hAdmitted := h.heard hearing hHeard i hSender
    rw [hRoot, hSender] at hAdmitted
    rcases hAdmitted with hJoin | hRequest | hAnnounced
    · rw [hJoin] at hType
      exact absurd hType (by decide)
    · rw [hRequest] at hType
      exact absurd hType (by decide)
    · exact hAnnounced

end Results

theorem member_announced_hallway : ∃ s, runAll (Network.step hallway) hallwayStart enters = some s ∧
    Announced hallway s.heard (s.nodes ()).vars.rootAddr (hallway.addr ()) := by
  obtain ⟨s, hRun, hMode, -⟩ := enters_run
  exact ⟨s, hRun, member_announced (Reaches.of_runAll (fun _ _ _ => trivial) hRun) ()
    (Or.inl hMode)⟩

theorem traffic_announced_hallway : ∃ s, runAll (Network.step hallway) hallwayStart enters = some s ∧
    Announced hallway s.heard clickTransmission.destination (hallway.addr ()) ∧
    ∃ t ∈ s.air, Reported hallway s.heard t.source (hallway.addr ()) := by
  obtain ⟨s, hRun, -, hClick, t, hMem, hPong, hDestination⟩ := enters_run
  have hReached : Reaches (Network.step hallway) (fun _ _ => True) hallwayStart s :=
    Reaches.of_runAll (fun _ _ _ => trivial) hRun
  exact ⟨s, hRun, (traffic_announced hReached () hClick).1 rfl (by decide) (by decide), t, hMem,
    ((traffic_announced hReached () hMem).2 hDestination hPong).1⟩

end Smarthome.Mesh
