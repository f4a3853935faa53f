import Smarthome.Router.Survival

/-! What `status_data_processing` makes of a status packet, and what it prints of it. -/
namespace Smarthome.Router

open Semantics LuaPattern Coordinator

/-- `VOLTAGE_PRESCALER`. -/
def voltagePrescaler : Nat := 16

/-- The values that are printed. -/
structure StatusReport where
  ipv6Adress : Text
  nodeVersion : Nat × Nat
  otaActive : Bool
  ipv6AdressParentShort : Text
  uptime : Nat
  parentRssi : Int
  temp : Nat
  /-- In thousandths of a volt. -/
  voltage : Nat
  deriving DecidableEq

/-- The correction of a number of 16 bits that stands for a negative one. -/
def signed (value : Nat) : Int := if value > 32768 then value - 65536 else value

/-- `status_data_processing`, as far as the report is put together. -/
def statusReport (ipv6Adress : Text) (data : PacketData) : Except Stop StatusReport := do
  let ipv6AdressParentShort := data.byte 1 ++ data.byte 2 ++ [':'] ++ data.byte 3 ++ data.byte 4 ++
    [':'] ++ data.byte 5 ++ data.byte 6 ++ [':'] ++ data.byte 7 ++ data.byte 8
  let uptime ← hex2Dec (data.byte 12 ++ data.byte 11 ++ data.byte 10 ++ data.byte 9)
  let voltage ← hex2Dec (data.byte 16)
  let temp ← hex2Dec (data.byte 15)
  let parentRssi ← hex2Dec (data.byte 14 ++ data.byte 13)
  let major ← hex2Dec (data.byte 17)
  let minor ← hex2Dec (data.byte 18)
  return {
    ipv6Adress, ipv6AdressParentShort, uptime, temp
    nodeVersion := (major, minor)
    otaActive := decide (data.byte 19 = ['0', '1'])
    parentRssi := signed parentRssi
    voltage := voltage * voltagePrescaler }

/-- A status packet is reported unless the router waits for other packets. -/
theorem statusDataProcessing_report (state : RouterState) (ipv6Adress : Text) (data : PacketData)
    (hFlag : state.flagNonStatusJoinMessage = false) :
    statusDataProcessing state data = (fun _ => state) <$> statusReport ipv6Adress data := by
  have hNot : ¬ state.flagNonStatusJoinMessage = true := by simp [hFlag]
  rw [statusDataProcessing, if_neg hNot, statusReport]
  simp only [map_bind, map_pure]

/-- `fw_cmd_data_processing` after it has taken the number from the packet. -/
def answerChunk (state : RouterState) (ipv6Adress : Text) (chunkNumberCStyle : Nat) :
    Except Stop RouterState :=
  match state.otaImageTableSegments with
  | none => return state
  | some segments =>
      match fwCmdDataProcessing segments chunkNumberCStyle with
      | none => .error .osExit
      | some chunk => do
          let sent ← sendFirmwareChunkToNode ipv6Adress chunk
          return { state with written := state.written ++ [sent] }

theorem fwCmdPacketProcessing_answer (state : RouterState) (ipv6Adress : Text)
    (data : PacketData) : fwCmdPacketProcessing state ipv6Adress data =
      hex2Dec (data.byte 3 ++ data.byte 2) >>= answerChunk state ipv6Adress := rfl

namespace RawPacket

variable (packet : RawPacket)

/-- The report of a packet, in its bytes. -/
theorem statusReport_table : statusReport packet.adress packet.table = .ok {
    ipv6Adress := packet.adress
    ipv6AdressParentShort := packet.table.byte 1 ++ packet.table.byte 2 ++ [':'] ++
      packet.table.byte 3 ++ packet.table.byte 4 ++ [':'] ++ packet.table.byte 5 ++
      packet.table.byte 6 ++ [':'] ++ packet.table.byte 7 ++ packet.table.byte 8
    uptime := u32 (packet.byte 11) (packet.byte 12) (packet.byte 13) (packet.byte 14)
    temp := (packet.byte 17).toNat
    nodeVersion := ((packet.byte 19).toNat, (packet.byte 20).toNat)
    otaActive := decide (packet.table.byte 19 = ['0', '1'])
    parentRssi := signed (256 * (packet.byte 16).toNat + (packet.byte 15).toNat)
    voltage := (packet.byte 18).toNat * voltagePrescaler } := by
  unfold statusReport
  rw [packet.hex2Dec_table_four, packet.hex2Dec_table_byte (by decide) (by decide),
    packet.hex2Dec_table_byte (by decide) (by decide),
    packet.hex2Dec_table_two (by decide) (by decide),
    packet.hex2Dec_table_byte (by decide) (by decide),
    packet.hex2Dec_table_byte (by decide) (by decide)]
  rfl

/-- The address of the report is the one that the packet came from. -/
theorem fromhex_adress :
    (ipv6AdressParse packet.adress).bind fromhex = some packet.addr.toList := by
  rw [ipv6AdressParse_adress, Option.bind_some, Router.fromhex_flatMap prints_hex02]

/-- The short address of the parent is eight bytes of the packet. -/
theorem fromhex_parentShort : fromhex ((packet.table.byte 1 ++ packet.table.byte 2 ++ [':'] ++
    packet.table.byte 3 ++ packet.table.byte 4 ++ [':'] ++ packet.table.byte 5 ++
    packet.table.byte 6 ++ [':'] ++ packet.table.byte 7 ++ packet.table.byte 8).filter (· ≠ ':')) =
      some ((List.range 8).map fun i => packet.byte (3 + i)) := by
  have hByte (b : Byte) : (upperHex02 b).filter (· ≠ ':') = upperHex02 b :=
    List.filter_eq_self.mpr fun c hc =>
      decide_eq_true (forall_mem_upperHex02 (P := (· ≠ ':')) (by decide) b c hc)
  have hKept (i : Nat) (hFirst : 1 ≤ i) (hLast : i ≤ 20) :
      (packet.table.byte i).filter (· ≠ ':') = upperHex02 (packet.byte (i + 2)) := by
    rw [packet.table_byte hFirst hLast, hByte]
  have hGone : [':'].filter (· ≠ ':') = [] := rfl
  have hRange : (List.range 8).map (fun i => packet.byte (3 + i)) =
      [packet.byte 3, packet.byte 4, packet.byte 5, packet.byte 6, packet.byte 7, packet.byte 8,
        packet.byte 9, packet.byte 10] := rfl
  rw [hRange, ← Router.fromhex_flatMap prints_upperHex02]
  simp (disch := decide) only [List.filter_append, hKept, hGone, List.flatMap_cons,
    List.flatMap_nil, List.append_nil, List.nil_append, List.append_assoc]

end RawPacket

end Smarthome.Router
