import Smarthome.Flash.Image
import Smarthome.Flash.OtaSlots
import Smarthome.Semantics.CrashLogic

/-! The bootloader: `main` and the functions of `ota-bootloader.c` and `ota-common.c`
that it calls, as routines which a power loss can cut between any two operations. -/
namespace Smarthome

open Semantics

abbrev fwFlagNonUpdate : Byte := 0x30
abbrev fwFlagNewImgExt : Byte := 0x31
abbrev fwFlagNewImgIntRst : Byte := 0x32
abbrev fwFlagNewImgInt : Byte := 0x33
abbrev fwFlagPingOk : Byte := 0x34
abbrev fwFlagErrorGiLoaded : Byte := 0x35

/-- The values `write_fw_flag` accepts and `read_fw_flag` returns as they are. -/
def IsFwFlag (value : Byte) : Prop :=
  value = fwFlagNonUpdate ∨ value = fwFlagNewImgExt ∨ value = fwFlagNewImgInt ∨
    value = fwFlagErrorGiLoaded ∨ value = fwFlagNewImgIntRst ∨ value = fwFlagPingOk

instance (value : Byte) : Decidable (IsFwFlag value) :=
  inferInstanceAs (Decidable (_ ∨ _ ∨ _ ∨ _ ∨ _ ∨ _))

/-- `START_USER_FLASH`. -/
@[simp] def startUserFlash : Nat := 0x1C000

/-- `USER_FLASH_LENGTH`. -/
@[simp] def userFlashLength : Nat := 100

/-- `OTA_STATUS_FLAG`, an offset in the user flash. -/
@[simp] def otaStatusFlag : Nat := 5

/-- `CURRENT_FIRMWARE << 12`, where the internal image starts. -/
@[simp] def currentFirmware : Nat := 0x2000

/-- The two flash memories and the outcomes of the exchanges with the external one.
`copyUnfinished` is read by no code: an image sector has been erased and the last
one has not been programmed since. -/
structure Board where
  internal : Nat → Byte
  external : Nat → Byte
  outcomes : List Bool
  copyUnfinished : Bool

/-- The operations of the bootloader between which power can fail. -/
inductive FlashOp where
  | sectorErase (address : Nat)
  | program (address : Nat) (data : List Byte)
  | exchange

/-- The last of the 25 sectors of the internal image. -/
@[simp] def lastImageSector : Nat := 0x1A000

instance : Effect Board FlashOp where
  apply
    | .sectorErase address, board =>
        { board with
          internal := NorFlash.erase flashPageSize address board.internal
          copyUnfinished :=
            decide (currentFirmware ≤ address ∧ address ≤ lastImageSector) || board.copyUnfinished }
    | .program address data, board =>
        { board with
          internal := NorFlash.program address data board.internal
          copyUnfinished := !decide (address = lastImageSector) && board.copyUnfinished }
    | .exchange, board => { board with outcomes := board.outcomes.tail }

@[simp] theorem apply_sectorErase_internal (address : Nat) (board : Board) :
    (Effect.apply (FlashOp.sectorErase address) board).internal =
      NorFlash.erase flashPageSize address board.internal := rfl

@[simp] theorem apply_program_internal (address : Nat) (data : List Byte) (board : Board) :
    (Effect.apply (FlashOp.program address data) board).internal =
      NorFlash.program address data board.internal := rfl

namespace Bootloader

open Routine

abbrev Boot := Routine Board FlashOp

/-- One exchange with the external flash: `ext_flash_open` or one read. -/
def exchange : Boot Bool := do
  let outcome ← get fun board => board.outcomes.headD true
  perform .exchange
  return outcome

def userFlashReadByte (offset : Nat) : Boot Byte :=
  get fun board => board.internal (startUserFlash + offset)

def userFlashUpdateByte (offset : Nat) (data : Byte) : Boot Unit := do
  let buffer ← get fun board => NorFlash.slice board.internal startUserFlash userFlashLength
  perform (.sectorErase startUserFlash)
  perform (.program startUserFlash (buffer.set offset data))

/-- `write_fw_flag`; the result says whether the flag reads back. -/
def writeFwFlag (value : Byte) : Boot Bool :=
  if IsFwFlag value then do
    userFlashUpdateByte otaStatusFlag value
    let newValue ← userFlashReadByte otaStatusFlag
    return newValue == value
  else return false

/-- `read_fw_flag`: any other value is taken for no update, and overwritten. -/
def readFwFlag : Boot Byte := do
  let flagValue ← userFlashReadByte otaStatusFlag
  if IsFwFlag flagValue then return flagValue
  else do
    let _ ← writeFwFlag fwFlagNonUpdate
    return fwFlagNonUpdate

def getCurrentMetadata : Boot OtaMetadata :=
  get fun board => metadataAt board.internal currentFirmware

inductive Verdict where
  | correctCrc
  | nonCorrectCrc
  | nonReadFlash
  deriving DecidableEq

/-- `verify_current_firmware`: the CRC of the internal image is written over the
`crc_shadow` in flash, which can only clear bits there. -/
def verifyCurrentFirmware (metadata : OtaMetadata) : Boot Verdict := do
  let crc ← get fun board =>
    imageCrc board.internal (currentFirmware + otaMetadataSpace) metadata.size
  perform (.program currentFirmware (metadata.setCrcShadow crc).bytes.toList)
  return if (metadata.setCrcShadow crc).crcShadow = metadata.crc then .correctCrc else .nonCorrectCrc

def getOtaSlotMetadata (slot : OtaSlot) : Boot (Option OtaMetadata) := do
  if ← exchange then
    if ← exchange then
      let metadata ← get fun board => metadataAt board.external (otaImagePage slot * flashPageSize)
      return some metadata
    else return none
  else return none

/-- The loop over the words of a slot, one exchange for each. -/
def readSlotWords : Nat → Nat → Nat → UInt16 → Boot (Option UInt16)
  | 0, _, _, imageCrc => return some imageCrc
  | fuel + 1, address, endAddress, imageCrc =>
      if address < endAddress then do
        if ← exchange then
          let next ← get fun board =>
            crcWord board.external (ExtFlash.address24 address) imageCrc
          readSlotWords fuel (address + 4) endAddress next
        else return none
      else return some imageCrc

/-- `verify_ota_slot`, which compares with `crc_shadow`. -/
def verifyOtaSlot (slot : OtaSlot) : Boot Verdict := do
  let metadata ← withState fun board =>
    untilSome (getOtaSlotMetadata slot) (board.outcomes.length + 1)
  let start := otaImagePage slot * flashPageSize + otaMetadataSpace
  let endAddress := (start + metadata.size) % 0x100000000
  if ← exchange then
    match ← readSlotWords endAddress start endAddress 0 with
    | some crc =>
        return if metadata.crcShadow ≠ (crc16 (crc16 crc 0) 0).toNat then .nonCorrectCrc
          else .correctCrc
    | none => return .nonReadFlash
  else return .nonReadFlash

/-- `update_firmware_page`: the sector is erased before anything is read. -/
def updateFirmwarePage (sourcePage destinationPage : Nat) : Boot (Option Unit) := do
  perform (.sectorErase destinationPage)
  if ← exchange then
    if ← exchange then
      let pageData ← get fun board =>
        NorFlash.slice board.external (ExtFlash.address24 sourcePage) flashPageSize
      perform (.program destinationPage pageData)
      return some ()
    else return none
  else return none

/-- `update_firmware`. The announced check of the new image is only a comment. -/
def updateFirmware (slot : OtaSlot) : Boot Unit :=
  forRange (fun sectorNum => withState fun board =>
    untilSome (updateFirmwarePage ((otaImagePage slot + sectorNum) * flashPageSize)
      (currentFirmware + sectorNum * flashPageSize)) (board.outcomes.length + 1)) 25

/-- How an execution of `main` ends. -/
inductive BootEnd where
  | jumpToImage
  | systemReset
  | returned
  deriving DecidableEq

/-- The part of `main` that reads the flag and prints the verdicts on the images. -/
def readFlagAndVerify : Boot Byte := do
  let fwFlag ← readFwFlag
  let currentFirmware ← getCurrentMetadata
  let _ ← verifyCurrentFirmware currentFirmware
  let _ ← verifyOtaSlot downloadSlot
  let _ ← verifyOtaSlot goldenSlot
  return fwFlag

/-- The branches of `main` on the flag. -/
def dispatchFlag (fwFlag : Byte) : Boot BootEnd :=
  if fwFlag = fwFlagPingOk then do
    let _ ← writeFwFlag fwFlagNonUpdate
    return .systemReset
  else if fwFlag = fwFlagNonUpdate then return .jumpToImage
  else if fwFlag = fwFlagErrorGiLoaded then return .jumpToImage
  else if fwFlag = fwFlagNewImgIntRst then do
    let _ ← writeFwFlag fwFlagNewImgInt
    return .jumpToImage
  else if fwFlag = fwFlagNewImgInt then do
    updateFirmware goldenSlot
    let _ ← writeFwFlag fwFlagErrorGiLoaded
    return .systemReset
  else if fwFlag = fwFlagNewImgExt then do
    updateFirmware downloadSlot
    let _ ← writeFwFlag fwFlagNewImgIntRst
    return .systemReset
  else return .returned

/-- `main`: without the external flash nothing is read, checked or copied. -/
def main : Boot BootEnd := do
  if ← exchange then
    let fwFlag ← readFlagAndVerify
    dispatchFlag fwFlag
  else return .jumpToImage

end Bootloader
end Smarthome
