import Smarthome.Protocol
import Smarthome.Semantics.Reads
import Mathlib.Algebra.Group.Nat.Defs
import Mathlib.Tactic.Common

/-! `time_data_t` and its bytes, which the datagrams of the time synchronisation
carry with the low byte first. -/
namespace Smarthome.Time

open Semantics

/-- `time_data_t`. -/
structure TimeData where
  seconds : Nat
  milliseconds : Nat
  seconds_lt : seconds < 0x100000000
  milliseconds_lt : milliseconds < 0x10000
  deriving DecidableEq

namespace TimeData

def secondsU8 (time : TimeData) (i : Nat) : Byte := UInt8.ofNat (time.seconds / 256 ^ i)

def millisecondsU8 (time : TimeData) (i : Nat) : Byte := UInt8.ofNat (time.milliseconds / 256 ^ i)

/-- The six bytes as a datagram has them. -/
def bytes (time : TimeData) : List Byte :=
  [time.secondsU8 0, time.secondsU8 1, time.secondsU8 2, time.secondsU8 3,
    time.millisecondsU8 0, time.millisecondsU8 1]

/-- The time that six bytes of a datagram make. -/
def ofBytes (b0 b1 b2 b3 b4 b5 : Byte) : TimeData where
  seconds := u32 b0 b1 b2 b3
  milliseconds := u16 b4 b5
  seconds_lt := u32_lt b0 b1 b2 b3
  milliseconds_lt := u16_lt b4 b5

/-- The loops of `time_data_handler` that take a time out of a datagram. -/
def read (first : Nat) : Reads Byte TimeData := do
  let seconds ← Reads.readVector first 4
  let milliseconds ← Reads.readVector (first + 4) 2
  return ofBytes seconds[0] seconds[1] seconds[2] seconds[3] milliseconds[0] milliseconds[1]

theorem ofBytes_bytes (time : TimeData) :
    ofBytes (time.secondsU8 0) (time.secondsU8 1) (time.secondsU8 2) (time.secondsU8 3)
      (time.millisecondsU8 0) (time.millisecondsU8 1) = time := by
  have hSeconds := time.seconds_lt
  have hMilliseconds := time.milliseconds_lt
  cases time with
  | mk seconds milliseconds =>
      simp only [ofBytes, secondsU8, millisecondsU8, u32, u16, UInt8.toNat_ofNat', mk.injEq]
      omega

theorem inBounds_read (data : Nat → Byte) (bound first : Nat) :
    (read first).InBounds data bound ↔ first + 6 ≤ bound := by
  simp [read]
  omega

theorem value_read (data : Nat → Byte) (first : Nat) :
    (read first).value data = ofBytes (data first) (data (first + 1)) (data (first + 2))
      (data (first + 3)) (data (first + 4)) (data (first + 5)) := by
  simp [read]

end TimeData
end Smarthome.Time
