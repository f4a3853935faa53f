import Smarthome.Semantics.Lines
import Smarthome.Semantics.RingQueue
import Smarthome.Semantics.Runs

/-! `serial-line.c`: the interrupt handler of the UART fills a ring of bytes while
`serial_line_process` empties it, puts lines together and posts them to all processes. The
handler runs at any time, also between two accesses to the ring by the process. -/
namespace Smarthome.Shell

open Semantics

def bufsize : Nat := 128

/-- `IGNORE_CHAR`. -/
def ignoreChar (c : UInt8) : Bool := c == 0x0D

/-- `END`. -/
abbrev lineEnd : UInt8 := 0x0A

/-- `struct ringbuf`, whose size is a power of two, so that `& mask` leaves the remainder. -/
structure Ringbuf (size : Nat) where
  data : Nat → UInt8
  putPtr : Nat
  getPtr : Nat
  putPtr_lt : putPtr < size
  getPtr_lt : getPtr < size

namespace Ringbuf

variable {size : Nat}

/-- `(put_ptr - get_ptr) & mask`. -/
def used (r : Ringbuf size) : Nat := (r.putPtr + size - r.getPtr) % size

/-- `ringbuf_put`; there is no result if the ring is full. -/
def put (c : UInt8) (r : Ringbuf size) : Option (Ringbuf size) :=
  if r.used = size - 1 then none
  else some { r with
    data := Function.update r.data r.putPtr c
    putPtr := (r.putPtr + 1) % size
    putPtr_lt := Nat.mod_lt _ (Nat.zero_lt_of_lt r.putPtr_lt) }

/-- The last access of `ringbuf_get`. -/
def advance (r : Ringbuf size) : Ringbuf size :=
  { r with
    getPtr := (r.getPtr + 1) % size
    getPtr_lt := Nat.mod_lt _ (Nat.zero_lt_of_lt r.getPtr_lt) }

theorem used_lt (r : Ringbuf size) : r.used < size := Nat.mod_lt _ (Nat.zero_lt_of_lt r.putPtr_lt)

/-- The ring as a queue of which one slot is never used. -/
def queue (r : Ringbuf size) : RingQueue UInt8 size where
  slots := r.data
  first := r.getPtr
  count := r.used
  first_lt := r.getPtr_lt
  count_le := Nat.le_of_lt r.used_lt

/-- The bytes in the ring, oldest first. -/
def contents (r : Ringbuf size) : List UInt8 := r.queue.contents

theorem used_eq (r : Ringbuf size) : r.used =
    if r.getPtr ≤ r.putPtr then r.putPtr - r.getPtr else r.putPtr + size - r.getPtr := by
  have hPut := r.putPtr_lt
  have hGet := r.getPtr_lt
  unfold used
  split_ifs with hOrder
  · rw [show r.putPtr + size - r.getPtr = r.putPtr - r.getPtr + size by omega, Nat.add_mod_right,
      Nat.mod_eq_of_lt (by omega)]
  · exact Nat.mod_eq_of_lt (by omega)

/-- The index after one. -/
theorem succ_mod {i : Nat} (h : i < size) : (i + 1) % size = if i + 1 = size then 0 else i + 1 := by
  split_ifs with hLast
  · rw [hLast, Nat.mod_self]
  · exact Nat.mod_eq_of_lt (by omega)

theorem put_index (r : Ringbuf size) : (r.getPtr + r.used) % size = r.putPtr := by
  have hPut := r.putPtr_lt
  have hGet := r.getPtr_lt
  rw [used_eq]
  split_ifs
  · exact Nat.mod_eq_of_lt (by omega) |>.trans (by omega)
  · rw [show r.getPtr + (r.putPtr + size - r.getPtr) = r.putPtr + size by omega,
      Nat.add_mod_right, Nat.mod_eq_of_lt hPut]

theorem used_put {r next : Ringbuf size} {c : UInt8} (h : r.put c = some next) :
    next.used = r.used + 1 := by
  have hPut := r.putPtr_lt
  have hGet := r.getPtr_lt
  unfold put at h
  split_ifs at h with hFull
  obtain rfl := Option.some.inj h
  rw [used_eq] at hFull
  rw [used_eq, used_eq]
  simp only [succ_mod hPut]
  split_ifs at hFull ⊢ <;> omega

theorem used_advance {r : Ringbuf size} (h : r.used ≠ 0) : r.advance.used = r.used - 1 := by
  have hPut := r.putPtr_lt
  have hGet := r.getPtr_lt
  rw [used_eq] at h ⊢
  rw [used_eq]
  simp only [advance, succ_mod hGet]
  split_ifs at h ⊢ <;> omega

/-- What is put is the newest byte. -/
theorem contents_put {r next : Ringbuf size} {c : UInt8} (h : r.put c = some next) :
    next.contents = r.contents ++ [c] := by
  have hUsed := used_put h
  apply RingQueue.contents_post
  rw [RingQueue.post, dif_neg (show r.queue.count ≠ size from Nat.ne_of_lt r.used_lt)]
  unfold put at h
  split_ifs at h with hFull
  obtain rfl := Option.some.inj h
  simp only [queue, hUsed, put_index]

/-- `ringbuf_get` takes the oldest byte, also if bytes are put between its accesses. -/
theorem contents_advance {r : Ringbuf size} (h : r.used ≠ 0) :
    r.contents = r.data r.getPtr :: r.advance.contents := by
  have hUsed := used_advance h
  apply RingQueue.contents_take
  rw [RingQueue.take, if_neg (show r.queue.count ≠ 0 from h)]
  simp only [queue, hUsed]
  rfl

@[simp] theorem contents_length (r : Ringbuf size) : r.contents.length = r.used :=
  RingQueue.contents_length _

end Ringbuf

/-- Where `serial_line_process` is. -/
inductive SerialPoint where
  /-- Before the test of `ringbuf_get`. -/
  | get
  /-- The ring is not empty. -/
  | load
  /-- The byte has been read. -/
  | advance (c : UInt8)
  /-- `ringbuf_get` has returned. -/
  | store (c : UInt8)
  /-- The line has been posted. -/
  | postContinue
  | waitPoll
  | waitContinue
  deriving DecidableEq

/-- Events in the queue of the kernel: a line for all processes, with the bytes that were in the
buffer when it was posted, and CONTINUE for the process. -/
inductive SerialEvent where
  | line (bytes : List UInt8)
  | continue
  deriving DecidableEq

/-- The variables of `serial-line.c`, the events of it in the queue, and the line that is being
delivered. No code reads `received`, the bytes that have come, `kept`, those that found room,
`taken`, those that the process is done with, `lines`, what has been posted, and `handled`, what
the handlers of each line have found in the buffer. -/
structure SerialLine where
  rxbuf : Ringbuf bufsize
  overflow : Bool
  needspoll : Bool
  buf : Nat → UInt8
  ptr : Nat
  point : SerialPoint
  queue : List SerialEvent
  delivering : Option (List UInt8)
  received : List UInt8
  kept : List UInt8
  taken : List UInt8
  lines : List (List UInt8)
  handled : List (List UInt8 × List UInt8)

inductive SerialStep where
  /-- The interrupt handler calls `serial_line_input_byte`. -/
  | inputByte (c : UInt8)
  /-- The process goes on, and a post of it finds room or not. -/
  | thread (room : Bool)
  /-- The kernel passes a poll on. -/
  | poll
  /-- The kernel takes an event of `queue`. -/
  | take
  /-- Another event is passed to the process. -/
  | other
  /-- A process handles the line. -/
  | handle
  /-- All have handled it. -/
  | handledAll

namespace SerialLine

/-- The string in the buffer, to its zero. -/
def text (buf : Nat → UInt8) : List UInt8 := ((List.range bufsize).map buf).takeWhile (· ≠ 0)

/-- The bytes of the line so far. -/
def bytes (s : SerialLine) : List UInt8 := (List.range s.ptr).map s.buf

/-- After `serial_line_init`, which makes the interrupt handler known before the ring has a size:
it finds no room for what comes early. -/
def init (data : Nat → UInt8) (early : List UInt8) : SerialLine where
  rxbuf := ⟨data, 0, 0, by decide, by decide⟩
  overflow := (early.filter (!ignoreChar ·)) ≠ []
  needspoll := false
  buf := fun _ => 0
  ptr := 0
  point := .get
  queue := []
  delivering := none
  received := early.filter (!ignoreChar ·)
  kept := []
  taken := []
  lines := []
  handled := []

/-- The thread of the process is not running. -/
def Waits (s : SerialLine) : Prop := s.point = .waitPoll ∨ s.point = .waitContinue

instance (s : SerialLine) : Decidable s.Waits := inferInstanceAs (Decidable (_ ∨ _))

/-- A byte that found room. -/
def keep (c : UInt8) (rxbuf : Ringbuf bufsize) (s : SerialLine) : SerialLine :=
  { s with rxbuf, overflow := false, kept := s.kept ++ [c] }

def serialLineInputByte (c : UInt8) (s : SerialLine) : SerialLine :=
  if ignoreChar c = true then s
  else
    let s := { s with received := s.received ++ [c], needspoll := true }
    if s.overflow = false then
      match s.rxbuf.put c with
      | none => { s with overflow := true }
      | some rxbuf => s.keep c rxbuf
    else if c = lineEnd then
      match s.rxbuf.put c with
      | none => s
      | some rxbuf => s.keep c rxbuf
    else s

/-- The thread goes on with a byte or a post. -/
def thread (room : Bool) (s : SerialLine) : Option SerialLine :=
  match s.point with
  | .get => some { s with point := if s.rxbuf.used > 0 then .load else .waitPoll }
  | .load => some { s with point := .advance (s.rxbuf.data s.rxbuf.getPtr) }
  | .advance c => some { s with rxbuf := s.rxbuf.advance, point := .store c }
  | .store c =>
      if c ≠ lineEnd then
        some { s with
          buf := if s.ptr < bufsize - 1 then Function.update s.buf s.ptr c else s.buf
          ptr := if s.ptr < bufsize - 1 then s.ptr + 1 else s.ptr
          point := .get
          taken := s.taken ++ [c] }
      else
        some { s with
          buf := Function.update s.buf s.ptr 0
          ptr := s.ptr + 1
          point := .postContinue
          queue := if room = true then s.queue ++ [.line s.bytes] else s.queue
          taken := s.taken ++ [c]
          lines := if room = true then s.lines ++ [s.bytes] else s.lines }
  | .postContinue =>
      if room = true then
        some { s with queue := s.queue ++ [.continue], point := .waitContinue }
      else some { s with ptr := 0, point := .get }
  | .waitPoll | .waitContinue => none

/-- An event but CONTINUE is passed to the process. -/
def resume (s : SerialLine) : SerialLine :=
  if s.point = .waitPoll then { s with point := .get } else s

/-- CONTINUE is passed to it. -/
def continues (s : SerialLine) : SerialLine :=
  if s.point = .waitContinue then { s with ptr := 0, point := .get } else s.resume

def step (s : SerialLine) : SerialStep → Option SerialLine
  | .inputByte c => some (s.serialLineInputByte c)
  | .thread room => s.thread room
  | .poll =>
      if s.Waits ∧ s.needspoll = true then some { s with needspoll := false }.resume else none
  | .take =>
      if s.Waits ∧ s.delivering = none then
        match s.queue with
        | .line bytes :: queue => some { s with queue, delivering := some bytes }
        | .continue :: queue => some { s with queue }.continues
        | [] => none
      else none
  | .other => if s.Waits then some s.resume else none
  | .handle =>
      if s.Waits then
        s.delivering.map fun bytes => { s with handled := s.handled ++ [(bytes, text s.buf)] }
      else none
  | .handledAll =>
      if s.Waits ∧ s.delivering ≠ none then some { s with delivering := none } else none

end SerialLine

end Smarthome.Shell
