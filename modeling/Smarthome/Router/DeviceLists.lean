import Smarthome.Router.Survival
import Mathlib.Data.List.Nodup

/-! The two lists that the router makes of the status packets before it updates all devices.
A device that is listed is not looked at again, so its first status packet alone decides
whether it is updated. -/
namespace Smarthome.Router

open Semantics LuaPattern Coordinator

namespace RawPacket

/-- A status packet. -/
def ReportsStatus (packet : RawPacket) : Prop := packet.Of 0x06

/-- A status packet of a device that can be updated. -/
def ReportsActive (packet : RawPacket) : Prop := packet.ReportsStatus ∧ packet.byte 21 = 0x01

instance (packet : RawPacket) : Decidable packet.ReportsStatus :=
  inferInstanceAs (Decidable (packet.Of 0x06))

instance (packet : RawPacket) : Decidable packet.ReportsActive :=
  inferInstanceAs (Decidable (_ ∧ _))

end RawPacket

namespace RouterState

/-- A device is added to the list of all devices, and perhaps to that of the updates. -/
def list (state : RouterState) (packet : RawPacket) : RouterState :=
  { state with
    deviceList := state.deviceList ++ [packet.adress]
    updateDeviceList :=
      state.updateDeviceList ++ if packet.byte 21 = 0x01 then [packet.adress] else [] }

/-- What a packet does to the lists. -/
def see (state : RouterState) (packet : RawPacket) : RouterState :=
  if packet.ReportsStatus ∧ state.deviceList.contains packet.adress = false then state.list packet
  else state

section See

variable (state : RouterState) {packet : RawPacket}

theorem see_of_new (hReports : packet.ReportsStatus) (hNew : packet.adress ∉ state.deviceList) :
    state.see packet = state.list packet := if_pos ⟨hReports, by simpa using hNew⟩

theorem see_of_listed (hListed : packet.adress ∈ state.deviceList) : state.see packet = state :=
  if_neg fun h => by simp [hListed] at h

theorem see_of_other (hOther : ¬ packet.ReportsStatus) : state.see packet = state :=
  if_neg fun h => hOther h.1

end See

end RouterState

/-- The listing in the bytes of the packet. -/
theorem packetProcessingSeeAdresses_eq (state : RouterState) (packet : RawPacket) :
    packetProcessingSeeAdresses state packet.adress packet.table = .ok (state.see packet) := by
  obtain ⟨hProtocol, hDevice, hType⟩ := packet.table_head
  have hVersion (b : Byte) : upperHex02 b = versionV1 ↔ b = 0x01 := upperHex02_eq_iff (by decide)
  have hStatus : upperHex02 (packet.byte 2) = ['0', '6'] ↔ packet.byte 2 = 0x06 :=
    upperHex02_eq_iff (by decide)
  have hActive : upperHex02 (packet.byte 21) = ['0', '1'] ↔ packet.byte 21 = 0x01 :=
    upperHex02_eq_iff (by decide)
  unfold packetProcessingSeeAdresses
  rw [packet.hex2Dec_table_byte (by decide) (by decide),
    packet.hex2Dec_table_byte (by decide) (by decide), packet.table_byte (by decide) (by decide),
    hProtocol, hDevice, hType]
  simp only [hVersion, hStatus, hActive]
  by_cases hReports : packet.ReportsStatus
  · have hHead : (packet.byte 0 = 0x01 ∧ packet.byte 1 = 0x01) ∧ packet.byte 2 = 0x06 := hReports
    by_cases hListed : packet.adress ∈ state.deviceList
    · rw [state.see_of_listed hListed]
      simp only [if_pos hHead, if_pos hListed]
      rfl
    · rw [state.see_of_new hReports hListed]
      simp only [if_pos hHead, if_neg hListed]
      rfl
  · have hHead : ¬ ((packet.byte 0 = 0x01 ∧ packet.byte 1 = 0x01) ∧ packet.byte 2 = 0x06) := hReports
    rw [state.see_of_other hReports]
    simp only [if_neg hHead]
    rfl

/-- The lists are what the status packets say: no address twice, all devices in the one, and
in the other those that have reported OTA active. -/
structure ListsDevices (packets : List RawPacket) (state : RouterState) : Prop where
  nodup_deviceList : state.deviceList.Nodup
  nodup_updateDeviceList : state.updateDeviceList.Nodup
  mem_deviceList : ∀ adress, adress ∈ state.deviceList ↔
    ∃ packet ∈ packets, packet.ReportsStatus ∧ packet.adress = adress
  mem_updateDeviceList : ∀ adress, adress ∈ state.updateDeviceList ↔
    ∃ packet ∈ packets, packet.ReportsActive ∧ packet.adress = adress

/-- The first status packet of a device. -/
def firstStatus (packets : List RawPacket) (adress : Text) : Option RawPacket :=
  packets.find? fun packet => decide (packet.ReportsStatus ∧ packet.adress = adress)

/-- Every device that reports OTA active does so in its first status packet. -/
def ActiveFirst (packets : List RawPacket) : Prop :=
  ∀ packet ∈ packets, packet.ReportsActive →
    ∃ first ∈ firstStatus packets packet.adress, first.byte 21 = 0x01

/-- What the lists are in fact, after the packets so far. -/
structure ListsFirst (packets : List RawPacket) (state : RouterState) : Prop where
  nodup_deviceList : state.deviceList.Nodup
  nodup_updateDeviceList : state.updateDeviceList.Nodup
  mem_deviceList : ∀ adress, adress ∈ state.deviceList ↔ (firstStatus packets adress).isSome
  mem_updateDeviceList : ∀ adress, adress ∈ state.updateDeviceList ↔
    ∃ first ∈ firstStatus packets adress, first.byte 21 = 0x01

theorem isSome_firstStatus {packets : List RawPacket} {adress : Text} :
    (firstStatus packets adress).isSome ↔
      ∃ packet ∈ packets, packet.ReportsStatus ∧ packet.adress = adress := by
  simp [firstStatus, List.find?_isSome]

theorem mem_of_firstStatus {packets : List RawPacket} {adress : Text} {first : RawPacket}
    (h : first ∈ firstStatus packets adress) :
    first ∈ packets ∧ first.ReportsStatus ∧ first.adress = adress := by
  rw [firstStatus, Option.mem_def, List.find?_eq_some_iff_append] at h
  obtain ⟨hFits, before, after, rfl, -⟩ := h
  exact ⟨by simp, of_decide_eq_true hFits⟩

theorem firstStatus_append (packets : List RawPacket) (packet : RawPacket) (adress : Text) :
    firstStatus (packets ++ [packet]) adress = (firstStatus packets adress).or
      (if packet.ReportsStatus ∧ packet.adress = adress then some packet else none) := by
  rw [firstStatus, List.find?_append, ← firstStatus, List.find?_singleton]
  simp only [decide_eq_true_eq]

/-- A device that has been listed keeps its first status packet. -/
theorem firstStatus_append_of_isSome {packets : List RawPacket} {adress : Text}
    (h : (firstStatus packets adress).isSome) (packet : RawPacket) :
    firstStatus (packets ++ [packet]) adress = firstStatus packets adress := by
  rw [firstStatus_append, Option.or_of_isSome h]

/-- The first status packet of a device. -/
theorem ListsFirst.list {packets : List RawPacket} {state : RouterState}
    (h : ListsFirst packets state) {packet : RawPacket} (hReports : packet.ReportsStatus)
    (hUnlisted : packet.adress ∉ state.deviceList) :
    ListsFirst (packets ++ [packet]) (state.list packet) := by
  have hNone : firstStatus packets packet.adress = none := by
    rw [h.mem_deviceList] at hUnlisted
    exact Option.not_isSome_iff_eq_none.mp hUnlisted
  have hSelf : firstStatus (packets ++ [packet]) packet.adress = some packet := by
    rw [firstStatus_append, hNone, if_pos ⟨hReports, rfl⟩, Option.none_or]
  have hOther {adress : Text} (hNe : adress ≠ packet.adress) :
      firstStatus (packets ++ [packet]) adress = firstStatus packets adress := by
    rw [firstStatus_append, if_neg fun hSame => hNe hSame.2.symm, Option.or_none]
  have hNotUpdated : packet.adress ∉ state.updateDeviceList := by
    rw [h.mem_updateDeviceList, hNone]
    simp
  constructor
  · exact h.nodup_deviceList.append (List.nodup_singleton _) (by simpa using hUnlisted)
  · rw [RouterState.list]
    split_ifs
    · exact h.nodup_updateDeviceList.append (List.nodup_singleton _) (by simpa using hNotUpdated)
    · rw [List.append_nil]
      exact h.nodup_updateDeviceList
  · intro adress
    rw [RouterState.list, List.mem_append, List.mem_singleton]
    by_cases hSame : adress = packet.adress
    · rw [hSame, hSelf]
      simp
    · rw [hOther hSame, h.mem_deviceList]
      simp [hSame]
  · intro adress
    rw [RouterState.list, List.mem_append]
    by_cases hSame : adress = packet.adress
    · rw [hSame, hSelf]
      split_ifs with hActive
      · simp [hActive]
      · simp [hActive, hNotUpdated]
    · have hNotAdded : adress ∉ if packet.byte 21 = 0x01 then [packet.adress] else [] := by
        split_ifs
        · simpa using hSame
        · exact List.not_mem_nil
      rw [hOther hSame, h.mem_updateDeviceList]
      simp only [hNotAdded, or_false]

/-- Other packets are not the first status packet of a device. -/
theorem ListsFirst.leave {packets : List RawPacket} {state : RouterState}
    (h : ListsFirst packets state) {packet : RawPacket}
    (hListed : packet.ReportsStatus → packet.adress ∈ state.deviceList) :
    ListsFirst (packets ++ [packet]) state := by
  have hKept (adress : Text) :
      firstStatus (packets ++ [packet]) adress = firstStatus packets adress := by
    by_cases hReports : packet.ReportsStatus ∧ packet.adress = adress
    · obtain ⟨hStatus, rfl⟩ := hReports
      exact firstStatus_append_of_isSome ((h.mem_deviceList _).mp (hListed hStatus)) packet
    · rw [firstStatus_append, if_neg hReports, Option.or_none]
  constructor
  · exact h.nodup_deviceList
  · exact h.nodup_updateDeviceList
  · simpa only [hKept] using h.mem_deviceList
  · simpa only [hKept] using h.mem_updateDeviceList

/-- One more packet. -/
theorem ListsFirst.see {packets : List RawPacket} {state : RouterState}
    (h : ListsFirst packets state) (packet : RawPacket) :
    ListsFirst (packets ++ [packet]) (state.see packet) := by
  by_cases hReports : packet.ReportsStatus
  · by_cases hListed : packet.adress ∈ state.deviceList
    · rw [state.see_of_listed hListed]
      exact h.leave fun _ => hListed
    · rw [state.see_of_new hReports hListed]
      exact h.list hReports hListed
  · rw [state.see_of_other hReports]
    exact h.leave fun hIs => absurd hIs hReports

/-- All packets of a listing are survived, and the lists are made of the first status packet
of each device. -/
theorem foldlM_listsFirst {state : RouterState} {seen : List RawPacket} (h : ListsFirst seen state)
    (packets : List RawPacket) :
    ∃ after, packets.foldlM (fun state packet => packetParse true state packet.text) state =
        .ok after ∧ ListsFirst (seen ++ packets) after := by
  induction packets generalizing state seen with
  | nil => exact ⟨state, rfl, by rwa [List.append_nil]⟩
  | cons packet packets ih =>
      obtain ⟨after, hAfter, hLists⟩ := ih (h.see packet)
      rw [List.append_assoc, List.singleton_append] at hLists
      refine ⟨after, ?_, hLists⟩
      rw [List.foldlM_cons, packet.packetParse_text, if_pos rfl, packetProcessingSeeAdresses_eq]
      exact hAfter

/-- The lists are right exactly when the first status packets tell what the later ones do. -/
theorem ListsFirst.listsDevices_iff {packets : List RawPacket} {state : RouterState}
    (h : ListsFirst packets state) : ListsDevices packets state ↔ ActiveFirst packets := by
  constructor
  · intro hLists packet hPacket hActive
    exact (h.mem_updateDeviceList _).mp
      ((hLists.mem_updateDeviceList _).mpr ⟨packet, hPacket, hActive, rfl⟩)
  · intro hFirst
    refine ⟨h.nodup_deviceList, h.nodup_updateDeviceList, fun adress => ?_, fun adress => ?_⟩
    · rw [h.mem_deviceList, isSome_firstStatus]
    · rw [h.mem_updateDeviceList]
      constructor
      · rintro ⟨first, hFound, hActive⟩
        obtain ⟨hMem, hStatus, hAdress⟩ := mem_of_firstStatus hFound
        exact ⟨first, hMem, ⟨hStatus, hActive⟩, hAdress⟩
      · rintro ⟨packet, hPacket, hActive, rfl⟩
        exact hFirst packet hPacket hActive

theorem parseAll_listsFirst (packets : List RawPacket) :
    ∃ after, parseAll true initialState packets = .ok after ∧ ListsFirst packets after := by
  have hStart : ListsFirst [] { initialState with mainCyclePermit := true } :=
    ⟨List.nodup_nil, List.nodup_nil, fun _ => by simp [initialState, firstStatus],
      fun _ => by simp [initialState, firstStatus]⟩
  exact foldlM_listsFirst hStart packets

/-- Whatever packets come while the router waits for the devices, it makes its two lists. They
are right exactly when every device that reports OTA active does so at first. -/
theorem device_lists_iff (packets : List RawPacket) :
    ∃ after, parseAll true initialState packets = .ok after ∧
      (ListsDevices packets after ↔ ActiveFirst packets) := by
  obtain ⟨after, hAfter, hLists⟩ := parseAll_listsFirst packets
  exact ⟨after, hAfter, hLists.listsDevices_iff⟩

/-- A status packet, with what it says of OTA. -/
def statusPacket (otaFlag : Byte) : RawPacket where
  addr := #v[0xFD, 0, 0, 0, 0, 0, 0, 0, 0x02, 0x12, 0x4B, 0, 0x0C, 0x47, 0x3C, 0x87]
  data := [0x01, 0x01, 0x06, 0, 0, 0, 0, 0, 0, 0, 0, 0, 0, 0, 0, 0, 0, 0, 0, 0x01, 0x02, otaFlag, 0]
  length_data := Or.inr rfl

/-- A device that reports OTA active only in its second status packet is never updated. -/
theorem not_device_lists : ¬ ∀ packets, ∃ after,
    parseAll true initialState packets = .ok after ∧ ListsDevices packets after := by
  intro h
  let packets := [statusPacket 0x00, statusPacket 0x01]
  obtain ⟨after, hAfter, hRight⟩ := h packets
  obtain ⟨same, hSame, hLists⟩ := parseAll_listsFirst packets
  obtain rfl := Except.ok.inj (hSame.symm.trans hAfter)
  have hSecond : statusPacket 0x01 ∈ packets := by simp [packets]
  obtain ⟨first, hFirst, hActive⟩ :=
    hLists.listsDevices_iff.mp hRight (statusPacket 0x01) hSecond (by decide)
  have hFound : firstStatus packets (statusPacket 0x01).adress = some (statusPacket 0x00) := by
    rfl
  obtain rfl := Option.some.inj (hFound.symm.trans hFirst)
  exact absurd hActive (by decide)

end Smarthome.Router
