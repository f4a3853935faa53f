import Mathlib.Algebra.Group.Nat.Defs

/-! The part of the inter-device binary protocol that the modelled code uses:
the constants of `ud_binary_protocol.h` and the datagrams built from them. -/
namespace Smarthome

abbrev Byte := UInt8

/-- A 16-byte IPv6 address, in the order in which the frames carry it. -/
abbrev Ipv6Address := Vector Byte 16

/-- A datagram handed to `simple_udp_sendto`. -/
structure Datagram where
  destination : Ipv6Address
  payload : List Byte
  deriving DecidableEq

abbrev protocolVersionV1 : Byte := 0x01
abbrev protocolVersionV2 : Byte := 0x02
abbrev deviceVersionV1 : Byte := 0x01
abbrev currentDeviceVersion : Byte := 0x01

abbrev dataTypeJoin : Byte := 0x01
abbrev dataTypeSensorData : Byte := 0x02
abbrev dataTypeJoinConfirm : Byte := 0x03
abbrev dataTypePong : Byte := 0x04
abbrev dataTypeCommand : Byte := 0x05
abbrev dataTypeStatus : Byte := 0x06
abbrev dataTypeSettings : Byte := 0x08
abbrev dataTypeMessage : Byte := 0x09
abbrev dataTypeSetTime : Byte := 0x0A
abbrev dataTypeSetSchedule : Byte := 0x0B
abbrev dataTypeFirmware : Byte := 0x0C
abbrev dataTypeUart : Byte := 0x0D
abbrev dataTypeFirmwareCmd : Byte := 0x0E
abbrev dataTypeLocalCmd : Byte := 0x0F

abbrev dataReserved : Byte := 0xFF

abbrev dataTypeFirmwareCommandNewFw : Byte := 0x01
abbrev dataTypeFirmwareCommandChankReq : Byte := 0x02
abbrev dataTypeFirmwareCommandReboot : Byte := 0x03
/-- The header gives cleaning and flashing the golden image one code. -/
abbrev dataTypeFirmwareCommandCleanGi : Byte := 0x04
abbrev dataTypeFirmwareCommandFlashGi : Byte := 0x04

abbrev dataTypeSetTimeCommandSync : Byte := 0x01
abbrev dataTypeSetTimeRequest : Byte := 0x03
abbrev dataTypeSetTimeResponse : Byte := 0x04

abbrev localRootCommandReboot : Byte := 0x00
abbrev localRootCommandBootloaderActivate : Byte := 0x01
abbrev localRootCommandTimeSet : Byte := 0x02

abbrev uartProtocolVersionV3 : Byte := 0x03

/-- `FIRMWARE_PAYLOAD_LENGTH`, the size of one chunk of an image. -/
@[simp] def firmwarePayloadLength : Nat := 600
/-- `FIRMWARE_PAYLOAD_OFFSET`, the packet header in front of a chunk. -/
@[simp] def firmwarePayloadOffset : Nat := 7

@[simp] def maxUartDataLength : Nat := 1500
@[simp] def magicSequenceLength : Nat := 6
@[simp] def packetHeaderLength : Nat := 10

/-- `MAGIC_SEQUENCE`, as `uart_magic_sequence` is initialised with it. -/
def uartMagicSequence : List Byte := [0x01, 0x16, 0x16, 0x16, 0x16, 0x10]

/-- A 16-bit value read from two bytes, the low one first. -/
def u16 (low high : Byte) : Nat := low.toNat + 256 * high.toNat

/-- A 32-bit value read from four bytes, the lowest one first. -/
def u32 (b0 b1 b2 b3 : Byte) : Nat := u16 b0 b1 + 65536 * u16 b2 b3

theorem u16_lt (low high : Byte) : u16 low high < 65536 := by
  have hLow := low.toNat_lt
  have hHigh := high.toNat_lt
  unfold u16
  omega

theorem u32_lt (b0 b1 b2 b3 : Byte) : u32 b0 b1 b2 b3 < 0x100000000 := by
  have hLow := u16_lt b0 b1
  have hHigh := u16_lt b2 b3
  unfold u32
  omega

theorem u16_eq_zero_iff (low high : Byte) : u16 low high = 0 ↔ low = 0 ∧ high = 0 := by
  rw [← UInt8.toNat_inj, ← UInt8.toNat_inj]
  simp only [u16, UInt8.toNat_zero]
  omega

namespace Node

/-- `chunk_num.u8` and the like: the bytes of a number in memory, the lowest first. -/
def memoryByte (value i : Nat) : Byte := UInt8.ofNat (value / 256 ^ i)

/-- Two bytes of memory make the number again. -/
theorem u16_memoryByte {value : Nat} (h : value < 65536) :
    u16 (memoryByte value 0) (memoryByte value 1) = value := by
  simp only [u16, memoryByte, UInt8.toNat_ofNat']
  omega

theorem u32_memoryByte {value : Nat} (h : value < 4294967296) :
    u32 (memoryByte value 0) (memoryByte value 1) (memoryByte value 2) (memoryByte value 3) =
      value := by
  simp only [u32, u16, memoryByte, UInt8.toNat_ofNat']
  omega

end Node

end Smarthome
