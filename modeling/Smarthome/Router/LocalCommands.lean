import Smarthome.Router.Commands

/-! The commands of `router.lua` to the coordinator itself, of which one sets its clock. The
time goes out as eight hexadecimal digits, in four pairs. -/
namespace Smarthome.Router

open Semantics Coordinator

def dataTypeLocalCmdHex : Text := ['0', 'F']
def localRootCommandRebootHex : Text := ['0', '0']
def localRootCommandBootloaderActivateHex : Text := ['0', '1']
def localRootCommandTimeSetHex : Text := ['0', '2']
def deviceAbilityNoneHex : Text := ['0', '0']

/-- The address of local commands. -/
def localCommandAdress : Text := "0000:0000:0000:0000:0000:0000:0000:00FF".toList

/-- The address that `enter_bootloader` gives for the nodes. -/
def allNodesAdress : Text := "0000:0000:0000:0000:0000:0000:0000:0000".toList

/-- An entry of a table. One that is missing has no `fromhex`. -/
def entry (table : List Text) (i : Nat) : Except Stop Text :=
  match table[i - 1]? with
  | some text => .ok text
  | none => .error .luaError

/-- `send_local_command`; the last of the four bytes goes first. -/
def sendLocalCommand (subcommandType : Text) (localCmdDataBin : List Text) :
    Except Stop (List (List Byte)) := do
  let fourth ← entry localCmdDataBin 4
  let third ← entry localCmdDataBin 3
  let second ← entry localCmdDataBin 2
  let first ← entry localCmdDataBin 1
  sendToAdress localCommandAdress [protocolVersionV1Hex, deviceVersionV1Hex, dataTypeLocalCmdHex,
    subcommandType, fourth, third, second, first]

/-- A table of texts. An entry that is not there is `nil`. -/
abbrev LuaTable := Nat → Option Text

/-- `local_cmd_data_bin[key]`, of which `fromhex` is called. `or` binds weaker than `..`, so
that the ones behind it do not help where the table or the entry is `nil`. -/
def tableEntry (table : Option LuaTable) (key : Nat) : Except Stop Text :=
  match table.bind fun entries => entries key with
  | some text => .ok text
  | none => .error .luaError

/-- `send_local_command` of any table, or of none. -/
def sendLocalCommandTable (subcommandType : Text) (localCmdDataBin : Option LuaTable) :
    Except Stop (List (List Byte)) := do
  let fourth ← tableEntry localCmdDataBin 4
  let third ← tableEntry localCmdDataBin 3
  let second ← tableEntry localCmdDataBin 2
  let first ← tableEntry localCmdDataBin 1
  sendToAdress localCommandAdress [protocolVersionV1Hex, deviceVersionV1Hex, dataTypeLocalCmdHex,
    subcommandType, fourth, third, second, first]

/-- A table that is a list has its entries from the first on. -/
theorem sendLocalCommandTable_list (subcommandType : Text) (localCmdDataBin : List Text) :
    sendLocalCommandTable subcommandType (some fun key => localCmdDataBin[key - 1]?) =
      sendLocalCommand subcommandType localCmdDataBin := rfl

theorem sendLocalCommandTable_eq {subcommandType first second third fourth : Text}
    {entries : LuaTable} (hFirst : entries 1 = some first) (hSecond : entries 2 = some second)
    (hThird : entries 3 = some third) (hFourth : entries 4 = some fourth) :
    sendLocalCommandTable subcommandType (some entries) =
      sendToAdress localCommandAdress [protocolVersionV1Hex, deviceVersionV1Hex,
        dataTypeLocalCmdHex, subcommandType, fourth, third, second, first] := by
  simp only [sendLocalCommandTable, tableEntry, Option.bind_some, hFirst, hSecond, hThird, hFourth]
  rfl

theorem tableEntry_cases (table : Option LuaTable) (key : Nat) :
    tableEntry table key = .error .luaError ∨ ∃ text, tableEntry table key = .ok text := by
  unfold tableEntry
  cases table.bind fun entries => entries key with
  | none => exact Or.inl rfl
  | some text => exact Or.inr ⟨text, rfl⟩

theorem sendToAdress_cases (ipv6Adress : Text) (fields : List Text) :
    sendToAdress ipv6Adress fields = .error .luaError ∨
      ∃ segments, sendToAdress ipv6Adress fields = .ok segments := by
  unfold sendToAdress sendTexts
  split
  · exact Or.inl rfl
  · split
    · exact Or.inl rfl
    · exact Or.inr ⟨_, rfl⟩

/-- What comes before an error does not stop it. -/
theorem bind_luaError {First Next : Type} {first : Except Stop First} {next : First → Except Stop Next}
    (hFirst : first = .error .luaError ∨ ∃ value, first = .ok value)
    (hNext : ∀ value, next value = .error .luaError) : (first >>= next) = .error .luaError := by
  rcases hFirst with rfl | ⟨value, rfl⟩
  · rfl
  · exact hNext value

/-- Every entry that is missing ends the program. -/
theorem sendLocalCommandTable_error {subcommandType : Text} {localCmdDataBin : Option LuaTable}
    {key : Nat} (hKey : 1 ≤ key ∧ key ≤ 4)
    (hMissing : (localCmdDataBin.bind fun entries => entries key) = none) :
    sendLocalCommandTable subcommandType localCmdDataBin = .error .luaError := by
  have hEntry : tableEntry localCmdDataBin key = .error .luaError := by rw [tableEntry, hMissing]
  have hKeys : key = 4 ∨ key = 3 ∨ key = 2 ∨ key = 1 := by omega
  have hBefore := tableEntry_cases localCmdDataBin
  rcases hKeys with rfl | rfl | rfl | rfl
  · rw [sendLocalCommandTable, hEntry]
    rfl
  · refine bind_luaError (hBefore 4) fun _ => ?_
    rw [hEntry]
    rfl
  · refine bind_luaError (hBefore 4) fun _ => bind_luaError (hBefore 3) fun _ => ?_
    rw [hEntry]
    rfl
  · refine bind_luaError (hBefore 4) fun _ => bind_luaError (hBefore 3) fun _ =>
      bind_luaError (hBefore 2) fun _ => ?_
    rw [hEntry]
    rfl

/-- `enter_bootloader`: two commands to nodes, and then the same to the coordinator. -/
def enterBootloader : Except Stop (List (List (List Byte))) := do
  let activateNodes ← sendCommandToAbility allNodesAdress deviceAbilityNoneHex deviceAbilityNoneHex
    localRootCommandBootloaderActivateHex
  let rebootNodes ← sendCommandToAbility allNodesAdress deviceAbilityNoneHex deviceAbilityNoneHex
    localRootCommandRebootHex
  let activate ← sendLocalCommandTable localRootCommandBootloaderActivateHex none
  let reboot ← sendLocalCommandTable localRootCommandRebootHex none
  return [activateNodes, rebootNodes, activate, reboot]

/-- The bootloader of the coordinator is never asked for: the program ends before. -/
theorem enterBootloader_error : enterBootloader = .error .luaError := by
  have hLocal : sendLocalCommandTable localRootCommandBootloaderActivateHex none = .error .luaError :=
    sendLocalCommandTable_error (show 1 ≤ 4 ∧ 4 ≤ 4 by decide) rfl
  refine bind_luaError (sendToAdress_cases ..) fun _ => bind_luaError (sendToAdress_cases ..) fun _ => ?_
  rw [hLocal]
  rfl

/-- The loop of `root_time_sync`. -/
def padEpochHex (nowEpochHex : Text) : Text :=
  if nowEpochHex.length < 32 / 8 * 2 then padEpochHex ('0' :: nowEpochHex) else nowEpochHex
  termination_by 8 - nowEpochHex.length
  decreasing_by
    simp only [List.length_cons]
    omega

/-- `root_time_sync`, at one value of `os.time`. -/
def rootTimeSync (nowEpoch : Nat) : Except Stop (List (List Byte)) :=
  let nowEpochHex := padEpochHex (dec2Hex nowEpoch)
  let epochHexBytes := [pair nowEpochHex 0, pair nowEpochHex 1, pair nowEpochHex 2,
    pair nowEpochHex 3]
  sendLocalCommand localRootCommandTimeSetHex epochHexBytes

theorem padEpochHex_eq (nowEpochHex : Text) :
    padEpochHex nowEpochHex = List.replicate (8 - nowEpochHex.length) '0' ++ nowEpochHex := by
  fun_induction padEpochHex nowEpochHex with
  | case1 nowEpochHex hShort ih =>
      obtain ⟨n, hLength⟩ : ∃ n, 8 - nowEpochHex.length = n + 1 :=
        ⟨7 - nowEpochHex.length, by omega⟩
      have hRest : 8 - ('0' :: nowEpochHex).length = n := by
        rw [List.length_cons]
        omega
      rw [ih, hRest, hLength, List.replicate_succ', List.append_assoc, List.singleton_append]
  | case2 nowEpochHex hLong =>
      have hNone : 8 - nowEpochHex.length = 0 := by omega
      rw [hNone, List.replicate_zero, List.nil_append]

/-- Two digits that stand for a byte. -/
def hexOfByte (n : Nat) : HexByte where
  high := (n / 16 % 16).digitChar
  low := (n % 16).digitChar
  isHex := by
    rw [hexDigit_digitChar (Nat.mod_lt _ (by decide)), hexDigit_digitChar (Nat.mod_lt _ (by decide))]
    exact ⟨rfl, rfl⟩

theorem value_hexOfByte (n : Nat) : (hexOfByte n).value = UInt8.ofNat n := by
  rw [HexByte.value, hexOfByte, hexDigit_digitChar (Nat.mod_lt _ (by decide)),
    hexDigit_digitChar (Nat.mod_lt _ (by decide)), Option.getD_some, Option.getD_some,
    ← UInt8.toNat_inj, UInt8.toNat_ofNat', UInt8.toNat_ofNat']
  omega

/-- The four pairs of a field of eight digits are the bytes of the number, the highest first. -/
theorem pairs_fixedDigits (n : Nat) :
    pair (fixedDigits 8 n) 0 = (hexOfByte (n / 256 ^ 3)).text ∧
      pair (fixedDigits 8 n) 1 = (hexOfByte (n / 256 ^ 2)).text ∧
      pair (fixedDigits 8 n) 2 = (hexOfByte (n / 256 ^ 1)).text ∧
      pair (fixedDigits 8 n) 3 = (hexOfByte (n / 256 ^ 0)).text := by
  simp [fixedDigits, pair, hexOfByte, HexByte.text, Nat.div_div_eq_div_mul]

/-- The time of a whole epoch is sent with its bytes in the order of the memory. -/
theorem rootTimeSync_eq {nowEpoch : Nat} (h : nowEpoch < 0x100000000) :
    rootTimeSync nowEpoch = sendToAdress localCommandAdress
      ([protocolVersionV1Hex, deviceVersionV1Hex, dataTypeLocalCmdHex] ++
        [hexOfByte 0x02, hexOfByte (nowEpoch / 256 ^ 0), hexOfByte (nowEpoch / 256 ^ 1),
          hexOfByte (nowEpoch / 256 ^ 2), hexOfByte (nowEpoch / 256 ^ 3)].map HexByte.text) := by
  obtain ⟨hFirst, hSecond, hThird, hFourth⟩ := pairs_fixedDigits nowEpoch
  have hPadded : padEpochHex (dec2Hex nowEpoch) = fixedDigits 8 nowEpoch := by
    rw [padEpochHex_eq]
    exact padded_dec2Hex 7 h
  unfold rootTimeSync
  dsimp only
  rw [hPadded, hFirst, hSecond, hThird, hFourth]
  rfl

end Smarthome.Router
