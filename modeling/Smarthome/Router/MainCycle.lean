import Smarthome.Router.Survival
import Smarthome.Semantics.Window

/-! `main_cycle` of `router.lua`, byte by byte: a window over the last bytes is searched
for a raw packet and for a message after each of them. -/
namespace Smarthome.Router

open Semantics LuaPattern Window

/-- What `main_cycle` does with the contents of the window. -/
inductive Action where
  | packetParse (packet : Text)
  | rootTimeSync
  | print (message : Text)
  deriving DecidableEq

/-- The variables of a `main_cycle` that runs. -/
structure MainCycle where
  state : RouterState
  buffer : Text

def rawStart : Text := ['D', 'A', 'G', 'R', 'O', 'O', 'T', 'R', 'A', 'W', '1']
def rawEnd : Text := ['R', 'A', 'W', 'E', 'N', 'D']
def udmStart : Text := ['U', 'D', 'M', ':']
def timeSyncNeeded : Text := "UDM: Time sync needed\n".toList

/-- The pattern of a packet in `main_cycle`. -/
def packetPattern : List Item := frame rawStart rawEnd 78

/-- The pattern of a message, which goes on to the last newline of the window. -/
def messagePattern : List Item := lineUpTo udmStart '\n'

/-- `add_byte_to_buffer`: bytes in front are removed while there are more than 95. -/
def addByteToBuffer (buffer : Text) (byte : Char) : Text := (buffer ++ [byte]).rtake 95

/-- `clean_buffer`, which adds as many zeros as there are bytes. -/
def cleanBuffer (buffer : Text) : Text := buffer ++ List.replicate buffer.length '0'

/-- What is done with a message. -/
def messageAction (message : Text) : Action :=
  if message = timeSyncNeeded then .rootTimeSync else .print message

/-- The test of the loop. -/
def nextTurn (state : RouterState) (buffer : Text) : Option MainCycle :=
  if state.mainCyclePermit = true then some ⟨state, buffer⟩ else none

/-- The second search of a turn. -/
def searchMessage (state : RouterState) (buffer : Text) : List Action × Option MainCycle :=
  match find messagePattern buffer with
  | none => ([], nextTurn state buffer)
  | some message => ([messageAction message], nextTurn state (cleanBuffer buffer))

/-- One turn of the loop with the byte that has been read. An error leaves the loop. -/
def readByte (packetProcessingAlt : Bool) (cycle : MainCycle) (byte : Char) :
    List Action × Option MainCycle :=
  let buffer := addByteToBuffer cycle.buffer byte
  match find packetPattern buffer with
  | none => searchMessage cycle.state buffer
  | some packet =>
      match packetParse packetProcessingAlt cycle.state packet with
      | .error _ => ([.packetParse packet], none)
      | .ok state => (.packetParse packet :: (searchMessage state buffer).1,
          (searchMessage state buffer).2)

/-- `main_cycle` without a time limit, with the actions at each byte. A loop that has
ended reads no more. -/
def mainCycle (packetProcessingAlt : Bool) :
    Transducer (Option MainCycle) Char (List Action) where
  step
    | none, _ => (none, some [])
    | some cycle, byte => ((readByte packetProcessingAlt cycle byte).2,
        some (readByte packetProcessingAlt cycle byte).1)

/-- The start of `main_cycle`. -/
def startCycle (state : RouterState) : Option MainCycle :=
  some ⟨{ state with mainCyclePermit := true }, []⟩

/-- A message of the coordinator that fits the window. -/
structure UdmMessage where
  body : Text
  newline_not_mem : '\n' ∉ body
  length_body : body.length ≤ 89

def UdmMessage.text (message : UdmMessage) : Text :=
  udmStart ++ (' ' :: message.body) ++ ['\n']

/-- A line that the coordinator prints. -/
inductive Line where
  | raw (packet : RawPacket)
  | udm (message : UdmMessage)

namespace Line

def text : Line → Text
  | raw packet => packet.line
  | udm message => message.text

/-- What should be done at each byte of a line: a packet is parsed when it is complete,
before its three blanks and its newline, and a message is handled at its newline. -/
def recognized : Line → List (List Action)
  | raw packet => List.replicate 94 [] ++ [[.packetParse packet.text]] ++ List.replicate 4 []
  | udm message => List.replicate (message.text.length - 1) [] ++ [[messageAction message.text]]

end Line

/-- A window in which neither search finds anything. -/
def Quiet (window : Text) : Prop :=
  find packetPattern window = none ∧ find messagePattern window = none

variable {alt : Bool} {state : RouterState} {buffer : Text}

theorem searchMessage_none (h : find messagePattern buffer = none) :
    searchMessage state buffer = ([], nextTurn state buffer) := by
  rw [searchMessage, h]

theorem searchMessage_some {message : Text} (h : find messagePattern buffer = some message) :
    searchMessage state buffer = ([messageAction message], nextTurn state (cleanBuffer buffer)) := by
  rw [searchMessage, h]

/-- A byte without an action leaves the window behind. -/
theorem readByte_quiet (hPermit : state.mainCyclePermit = true) {byte : Char}
    (h : Quiet (addByteToBuffer buffer byte)) :
    readByte alt ⟨state, buffer⟩ byte = ([], some ⟨state, addByteToBuffer buffer byte⟩) := by
  dsimp only [readByte]
  rw [h.1]
  dsimp only
  rw [searchMessage_none h.2, nextTurn, if_pos hPermit]

theorem readByte_not_quiet {byte : Char} (h : ¬ Quiet (addByteToBuffer buffer byte)) :
    (readByte alt ⟨state, buffer⟩ byte).1 ≠ [] := by
  dsimp only [readByte]
  cases hPacket : find packetPattern (addByteToBuffer buffer byte) with
  | some packet =>
      dsimp only
      cases packetParse alt state packet with
      | error stop => exact List.cons_ne_nil _ _
      | ok next => exact List.cons_ne_nil _ _
  | none =>
      dsimp only
      cases hMessage : find messagePattern (addByteToBuffer buffer byte) with
      | none => exact absurd ⟨hPacket, hMessage⟩ h
      | some message =>
          rw [searchMessage_some hMessage]
          exact List.cons_ne_nil _ _

theorem messageAction_injective : Function.Injective messageAction := by
  intro m m' h
  unfold messageAction at h
  split_ifs at h with hFirst hSecond
  · exact hFirst.trans hSecond.symm
  · exact Action.print.inj h

theorem packetParse_ne_messageAction (packet message : Text) :
    Action.packetParse packet ≠ messageAction message := by
  unfold messageAction
  split_ifs
  · exact Action.noConfusion
  · exact Action.noConfusion

/-- A turn that does nothing but handle a message. -/
theorem readByte_message (hPermit : state.mainCyclePermit = true) {byte : Char} {message : Text}
    (hPacket : find packetPattern (addByteToBuffer buffer byte) = none)
    (hMessage : find messagePattern (addByteToBuffer buffer byte) = some message) :
    readByte alt ⟨state, buffer⟩ byte = ([messageAction message],
      some ⟨state, cleanBuffer (addByteToBuffer buffer byte)⟩) := by
  dsimp only [readByte]
  rw [hPacket]
  dsimp only
  rw [searchMessage_some hMessage, nextTurn, if_pos hPermit]

theorem readByte_message_iff {byte : Char} {message : Text} :
    (readByte alt ⟨state, buffer⟩ byte).1 = [messageAction message] ↔
      find packetPattern (addByteToBuffer buffer byte) = none ∧
      find messagePattern (addByteToBuffer buffer byte) = some message := by
  dsimp only [readByte]
  cases find packetPattern (addByteToBuffer buffer byte) with
  | some packet =>
      dsimp only
      have hHead {actions : List Action} :
          Action.packetParse packet :: actions ≠ [messageAction message] :=
        fun h => packetParse_ne_messageAction packet message (List.cons.inj h).1
      cases packetParse alt state packet with
      | error stop => exact ⟨fun h => absurd h hHead, fun h => absurd h.1 (Option.some_ne_none _)⟩
      | ok next => exact ⟨fun h => absurd h hHead, fun h => absurd h.1 (Option.some_ne_none _)⟩
  | none =>
      dsimp only [searchMessage]
      cases find messagePattern (addByteToBuffer buffer byte) with
      | none => exact ⟨fun h => absurd h.symm (List.cons_ne_nil _ _),
          fun h => absurd h.2.symm (Option.some_ne_none _)⟩
      | some found =>
          constructor
          · intro h
            exact ⟨rfl, congrArg some (messageAction_injective (List.cons.inj h).1)⟩
          · rintro ⟨-, h⟩
            exact congrArg (fun m => [messageAction m]) (Option.some.inj h)

theorem step_some (cycle : MainCycle) (byte : Char) : (mainCycle alt).step (some cycle) byte =
    ((readByte alt cycle byte).2, some (readByte alt cycle byte).1) := rfl

theorem emitted_some_cons (cycle : MainCycle) (byte : Char) (bytes : Text) :
    (mainCycle alt).emitted (some cycle) (byte :: bytes) =
      (readByte alt cycle byte).1 :: (mainCycle alt).emitted (readByte alt cycle byte).2 bytes := by
  rw [Transducer.emitted_cons, step_some]
  rfl

theorem after_some_cons (cycle : MainCycle) (byte : Char) (bytes : Text) :
    (mainCycle alt).after (some cycle) (byte :: bytes) =
      (mainCycle alt).after (readByte alt cycle byte).2 bytes := by
  rw [Transducer.after_cons, step_some]

theorem emitted_none (bytes : Text) :
    (mainCycle alt).emitted none bytes = List.replicate bytes.length [] := by
  induction bytes with
  | nil => rfl
  | cons byte bytes ih =>
      rw [Transducer.emitted_cons, List.length_cons, List.replicate_succ, ← ih]
      rfl

theorem after_none (bytes : Text) : (mainCycle alt).after none bytes = none := by
  induction bytes with
  | nil => rfl
  | cons byte bytes ih =>
      rw [Transducer.after_cons]
      exact ih

/-- There is one list of actions for each byte. -/
theorem length_emitted (cycle : Option MainCycle) (bytes : Text) :
    ((mainCycle alt).emitted cycle bytes).length = bytes.length := by
  induction bytes generalizing cycle with
  | nil => rfl
  | cons byte bytes ih =>
      cases cycle with
      | none => rw [emitted_none, List.length_replicate]
      | some cycle => rw [emitted_some_cons, List.length_cons, List.length_cons, ih]

/-- The window as it is after more bytes have been read. -/
theorem rtake_addByteToBuffer (buffer bytes : Text) (byte : Char) :
    (addByteToBuffer buffer byte ++ bytes).rtake 95 = (buffer ++ byte :: bytes).rtake 95 := by
  rw [addByteToBuffer, rtake_rtake_append _ _ (Nat.le_add_right _ _), List.append_assoc]
  rfl

/-- No action at all is taken if and only if every window on the way is quiet. -/
theorem emitted_eq_replicate_iff (hPermit : state.mainCyclePermit = true) (bytes : Text) :
    (mainCycle alt).emitted (some ⟨state, buffer⟩) bytes = List.replicate bytes.length [] ↔
      ∀ p, p <+: bytes → p ≠ [] → Quiet ((buffer ++ p).rtake 95) := by
  induction bytes generalizing buffer with
  | nil =>
      constructor
      · intro _ p hp hNil
        exact absurd (List.prefix_nil.mp hp) hNil
      · intro _
        rfl
  | cons byte bytes ih =>
      rw [emitted_some_cons, List.length_cons, List.replicate_succ, List.cons.injEq]
      constructor
      · rintro ⟨hFirst, hRest⟩ p hp hNil
        have hQuiet : Quiet (addByteToBuffer buffer byte) := by
          by_contra hNot
          exact readByte_not_quiet hNot hFirst
        rw [readByte_quiet hPermit hQuiet, ih] at hRest
        rcases List.prefix_cons_iff.mp hp with rfl | ⟨q, rfl, hq⟩
        · exact absurd rfl hNil
        · by_cases hEnd : q = []
          · rw [hEnd]
            exact hQuiet
          · rw [← rtake_addByteToBuffer]
            exact hRest q hq hEnd
      · intro h
        have hQuiet : Quiet (addByteToBuffer buffer byte) :=
          h [byte] (List.prefix_append [byte] bytes) (List.cons_ne_nil _ _)
        rw [readByte_quiet hPermit hQuiet]
        refine ⟨rfl, (ih).mpr ?_⟩
        intro q hq hNil
        rw [rtake_addByteToBuffer]
        exact h (byte :: q) (List.cons_prefix_cons.mpr ⟨rfl, hq⟩) (List.cons_ne_nil _ _)

theorem after_of_quiet (hPermit : state.mainCyclePermit = true) {bytes : Text}
    (h : ∀ p, p <+: bytes → p ≠ [] → Quiet ((buffer ++ p).rtake 95)) (hNil : bytes ≠ []) :
    (mainCycle alt).after (some ⟨state, buffer⟩) bytes =
      some ⟨state, (buffer ++ bytes).rtake 95⟩ := by
  induction bytes generalizing buffer with
  | nil => exact absurd rfl hNil
  | cons byte bytes ih =>
      have hQuiet : Quiet (addByteToBuffer buffer byte) :=
        h [byte] (List.prefix_append [byte] bytes) (List.cons_ne_nil _ _)
      rw [after_some_cons, readByte_quiet hPermit hQuiet]
      by_cases hEnd : bytes = []
      · rw [hEnd]
        rfl
      · rw [← rtake_addByteToBuffer]
        apply ih _ hEnd
        intro q hq hq'
        rw [rtake_addByteToBuffer]
        exact h (byte :: q) (List.cons_prefix_cons.mpr ⟨rfl, hq⟩) (List.cons_ne_nil _ _)

end Smarthome.Router
