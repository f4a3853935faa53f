import Smarthome.Router.LocalCommands
import Smarthome.Wire.Downlink

/-! The way of a local command from the router to the coordinator. It takes a table with all
of the four data bytes: one that is missing is not filled up, it ends the program. -/
namespace Smarthome.Wire

open Semantics Coordinator UartReceiver Router

/-- Sixteen bytes of which only the last one is not zero. -/
def localAdress : AdressText := ⟨(Vector.replicate 15 hexZero).push ⟨'F', 'F', by decide⟩⟩

theorem text_localAdress : localAdress.text = localCommandAdress := by decide

/-- The frame of a local command. -/
def localFrame (subcommand : Byte) (data : Vector Byte 4) : List Byte :=
  nodeFrame localAdress.value protocolVersionV1 deviceVersionV1 dataTypeLocalCmd
    (subcommand :: data.toList)

/-- `local_command` is called with this subcommand and these data. -/
def SeesLocalCommand (packet : UartPacket) (subcommand : Byte) (data : Vector Byte 4) : Prop :=
  ∃ effect, uartPacketProcessed packet = some effect ∧
    effect.localCommand = localCommand packet.uartData ∧
    packet.uartData 18 = dataTypeLocalCmd ∧ packet.uartData 19 = subcommand ∧
    ∀ i (h : i < 4), packet.uartData (20 + i) = data[i]

/-- A local frame is a local command, whatever the buffer held. -/
theorem seesLocalCommand_localFrame (buffer : Nat → Byte) (subcommand : Byte)
    (data : Vector Byte 4) :
    SeesLocalCommand (packetOf buffer (localFrame subcommand data)) subcommand data := by
  have hData : (packetOf buffer (localFrame subcommand data)).uartData =
      overlay buffer 0 (localFrame subcommand data) := rfl
  have hType : overlay buffer 0 (localFrame subcommand data) 18 = dataTypeLocalCmd :=
    (overlay_nodeFrame_header buffer _ _ _ _ _).2.2
  have hBody {i : Nat} (h : i < (subcommand :: data.toList).length) :
      overlay buffer 0 (localFrame subcommand data) (19 + i) = (subcommand :: data.toList)[i] :=
    overlay_nodeFrame_body buffer _ _ _ _ _ h
  have hOther : (packetOf buffer (localFrame subcommand data)).uartData 18 ≠ dataTypeFirmware := by
    rw [hData, hType]
    decide
  refine ⟨_, uartPacketProcessed_of_ne hOther, if_pos hType, hType, ?_, fun i hi => ?_⟩
  · exact hBody (show 0 < (subcommand :: data.toList).length by simp)
  · have hIndex : 20 + i = 19 + (i + 1) := by omega
    have hLength : i + 1 < (subcommand :: data.toList).length := by
      simp
      omega
    rw [hData, hIndex, hBody hLength]
    rfl

/-- The table with these bytes as texts, from the first on. -/
def byteTable (entries : Fin 4 → Option HexByte) : LuaTable := fun key =>
  if h : 1 ≤ key ∧ key ≤ 4 then (entries ⟨key - 1, by omega⟩).map HexByte.text else none

/-- The data that `local_command` has to see: the bytes of the table, the last one first, and
FF where one is missing. -/
def reversedBytes (table : Option (Fin 4 → Option HexByte)) : Vector Byte 4 :=
  Vector.ofFn fun i => ((table.bind fun entries => entries i.rev).map HexByte.value).getD 0xFF

/-- There is a table, and no entry of it is missing. -/
def AllPresent (table : Option (Fin 4 → Option HexByte)) : Prop :=
  ∃ bytes : Fin 4 → HexByte, table = some fun i => some (bytes i)

/-- The call raises no error and writes one frame that the receiver accepts, with which
`local_command` is called. -/
def LocalCommandArrives (s : UartReceiver) (subcommand : HexByte)
    (table : Option (Fin 4 → Option HexByte)) : Prop :=
  ∃ segments packet, sendLocalCommandTable subcommand.text (table.map byteTable) = .ok segments ∧
    receiver.emitted s segments.flatten = [packet] ∧
    SeesLocalCommand packet subcommand.value (reversedBytes table)

/-- Otherwise one of the four reads finds nothing. -/
theorem exists_missing {table : Option (Fin 4 → Option HexByte)} (h : ¬ AllPresent table) :
    ∃ key, (1 ≤ key ∧ key ≤ 4) ∧ ((table.map byteTable).bind fun entries => entries key) = none := by
  cases table with
  | none => exact ⟨4, by decide, rfl⟩
  | some entries =>
      obtain ⟨i, hMissing⟩ : ∃ i, entries i = none := by
        by_contra hAll
        push Not at hAll
        have hSome (i : Fin 4) := Option.ne_none_iff_exists'.mp (hAll i)
        choose bytes hBytes using hSome
        exact h ⟨bytes, congrArg some (funext hBytes)⟩
      have hKey : 1 ≤ i.val + 1 ∧ i.val + 1 ≤ 4 := by omega
      refine ⟨i.val + 1, hKey, ?_⟩
      rw [Option.map_some, Option.bind_some, byteTable, dif_pos hKey]
      exact congrArg (Option.map HexByte.text) hMissing

/-- The frame that is sent of a table with all entries. -/
theorem sendLocalCommandTable_frame (subcommand : HexByte) (bytes : Fin 4 → HexByte) :
    sendLocalCommandTable subcommand.text (some (byteTable fun i => some (bytes i))) =
      .ok (dataCut 25 (by decide) (v3Frame 0xFF (localFrame subcommand.value
        (reversedBytes (some fun i => some (bytes i)))))) := by
  have hType : fromhex dataTypeLocalCmdHex = some [dataTypeLocalCmd] := by decide
  have hSent := sendToAdress_frame localAdress hType
    [subcommand, bytes 3, bytes 2, bytes 1, bytes 0] (by simp)
  rw [text_localAdress] at hSent
  exact (sendLocalCommandTable_eq rfl rfl rfl rfl).trans hSent

/-- A local command arrives exactly when no byte of its table is missing. -/
theorem local_command_arrives_iff {s : UartReceiver} (hIdle : s.Idle) (subcommand : HexByte)
    (table : Option (Fin 4 → Option HexByte)) :
    LocalCommandArrives s subcommand table ↔ AllPresent table := by
  constructor
  · rintro ⟨segments, packet, hWritten, -⟩
    by_contra hMissing
    obtain ⟨key, hKey, hNone⟩ := exists_missing hMissing
    rw [sendLocalCommandTable_error hKey hNone] at hWritten
    cases hWritten
  · rintro ⟨bytes, rfl⟩
    refine ⟨_, _, sendLocalCommandTable_frame subcommand bytes, ?_,
      seesLocalCommand_localFrame s.uartData _ _⟩
    rw [dataCut_flatten]
    exact (receive_frame hIdle 0xFF _ (by simp [localFrame, nodeFrame_length])
      (by simp [localFrame, nodeFrame_length])).1

/-- The reboot of a coordinator after reset, with four bytes that it does not read. -/
theorem local_command_arrives_reboot :
    LocalCommandArrives UartReceiver.reset hexZero (some fun _ => some hexZero) :=
  (local_command_arrives_iff UartReceiver.idle_reset hexZero _).mpr ⟨fun _ => hexZero, rfl⟩

/-- Without a table, as `enter_bootloader` calls it, nothing arrives. -/
theorem not_local_command_arrives : ¬ ∀ (s : UartReceiver) (_ : s.Idle) (subcommand : HexByte)
    (table : Option (Fin 4 → Option HexByte)), LocalCommandArrives s subcommand table := by
  intro h
  obtain ⟨segments, packet, hWritten, -⟩ := h UartReceiver.reset UartReceiver.idle_reset hexZero none
  have hError : sendLocalCommandTable hexZero.text none = .error .luaError :=
    sendLocalCommandTable_error (show 1 ≤ 4 ∧ 4 ≤ 4 by decide) rfl
  rw [Option.map_none, hError] at hWritten
  cases hWritten

end Smarthome.Wire
