import Smarthome.Router.Recognition

/-! The loop of `fw` and `bulk_update` over the devices: each is given one `main_cycle`
with a time limit, and what that returns is reported as the result of the device. -/
namespace Smarthome.Router

open Semantics Window

/-- One turn of `main_cycle`: the packet that is complete with the byte that is read, if
there is one, and whether the time limit has passed at the end of the turn. -/
structure Turn where
  packet : Option RawPacket
  limitPassed : Bool

/-- The end of a `main_cycle` with the value that it returns. The packets that it has
received are kept to compare the result with them. -/
structure CycleEnd where
  mainCycleLimitReached : Bool
  state : RouterState
  received : List RawPacket
  turns : List Turn

/-- The turn in which something is done for a line. -/
def Line.turn : Line → Turn
  | .raw packet => ⟨some packet, false⟩
  | .udm _ => ⟨none, false⟩

def Line.packets : Line → List RawPacket
  | .raw packet => [packet]
  | .udm _ => []

/-- What a turn does with its packet. -/
def turnState (state : RouterState) (turn : Turn) : Except Stop RouterState :=
  match turn.packet with
  | none => .ok state
  | some packet => packetParse false state packet.text

/-- `main_cycle` with a limit. There is no end if the turns are used up before, or if the
program ends. -/
def limitedCycle (state : RouterState) (received : List RawPacket) : List Turn → Option CycleEnd
  | [] => none
  | turn :: turns =>
      match turnState state turn with
      | .error _ => none
      | .ok next =>
          if turn.limitPassed = true then
            some ⟨true, next, received ++ turn.packet.toList, turns⟩
          else if next.mainCyclePermit = true then
            limitedCycle next (received ++ turn.packet.toList) turns
          else some ⟨false, next, received ++ turn.packet.toList, turns⟩

/-- The line that is printed for a device, with the packets received while it was updated. -/
structure Report where
  device : Text
  success : Bool
  received : List RawPacket

/-- `firmware_update` and the beginning of `main_cycle`. -/
def startUpdate (imageFileBinData : Option (List Byte)) (state : RouterState) : RouterState :=
  { firmwareUpdate imageFileBinData state with mainCyclePermit := true }

/-- The loop over the devices, and what it reports until the turns are used up. -/
def updateReports (imageFileBinData : Option (List Byte)) (state : RouterState) :
    List Text → List Turn → List Report
  | [], _ => []
  | device :: devices, turns =>
      match limitedCycle (startUpdate imageFileBinData state) [] turns with
      | none => []
      | some cycle => ⟨device, !cycle.mainCycleLimitReached, cycle.received⟩ ::
          updateReports imageFileBinData cycle.state devices cycle.turns

/-- The packet comes from the device to which `send_firmware_new_fw_cmd_to_node` sends. -/
def SentBy (device : Text) (packet : RawPacket) : Prop :=
  (ipv6AdressParse device).bind fromhex = some packet.addr.toList

/-- A reported success is one that the device itself has reported. -/
def Attributed (reports : List Report) : Prop :=
  ∀ report ∈ reports, report.success = true →
    ∃ packet ∈ report.received, packet.UpdateSuccess ∧ SentBy report.device packet

def Turn.Harmless (turn : Turn) (table : Option (List (List Byte))) : Prop :=
  ∀ packet ∈ turn.packet, packet.Harmless table

def Turn.Success (turn : Turn) : Prop := ∃ packet ∈ turn.packet, packet.UpdateSuccess

/-- In the update of each device the first message of a success, if one comes before the
limit, is its own. A packet that is not harmless ends the program. -/
def OwnSuccesses (table : Option (List (List Byte))) : List Text → List Turn → Prop
  | [], _ => True
  | _ :: _, [] => True
  | device :: devices, turn :: turns => turn.Harmless table →
      (turn.limitPassed = true → OwnSuccesses table devices turns) ∧
      (turn.limitPassed = false → ¬ turn.Success →
        OwnSuccesses table (device :: devices) turns) ∧
      (turn.limitPassed = false → turn.Success →
        (∀ packet ∈ turn.packet, SentBy device packet) ∧ OwnSuccesses table devices turns)

/-- The device whose address a packet was printed with has sent it. -/
theorem sentBy_adress (packet other : RawPacket) :
    SentBy other.adress packet ↔ packet.addr = other.addr := by
  rw [SentBy, other.ipv6AdressParse_adress, Option.bind_some, fromhex_flatMap prints_hex02,
    Option.some_inj, Vector.toList_inj, eq_comm]

variable {image : Option (List Byte)} {state : RouterState} {table : Option (List (List Byte))}
  {turn : Turn}

theorem turnState_of_harmless (hPermit : state.mainCyclePermit = true)
    (h : turn.Harmless state.otaImageTableSegments) : ∃ next, turnState state turn = .ok next ∧
      next.otaImageTableSegments = state.otaImageTableSegments ∧
      (next.mainCyclePermit = true ↔ ¬ turn.Success) := by
  obtain ⟨packet, limit⟩ := turn
  cases packet with
  | none => exact ⟨state, rfl, rfl, by simp [Turn.Success, hPermit]⟩
  | some packet =>
      obtain ⟨next, hNext, hTable, hKept⟩ :=
        RawPacket.packetProcessing_of_harmless state (h packet rfl)
      refine ⟨next, ?_, hTable, ?_⟩
      · show packetParse false state packet.text = .ok next
        rw [packet.packetParse_text]
        exact hNext
      · rw [hKept]
        simp [Turn.Success, hPermit]

theorem turnState_of_not_harmless (h : ¬ turn.Harmless state.otaImageTableSegments) :
    ∃ stop, turnState state turn = .error stop := by
  obtain ⟨packet, limit⟩ := turn
  cases packet with
  | none => exact absurd (fun packet hMem => by cases hMem) h
  | some packet =>
      have hPacket : ¬ packet.Harmless state.otaImageTableSegments := by
        intro hHarmless
        apply h
        intro other hOther
        cases hOther
        exact hHarmless
      obtain ⟨stop, hStop⟩ := RawPacket.packetProcessing_of_not_harmless state hPacket
      refine ⟨stop, ?_⟩
      show packetParse false state packet.text = .error stop
      rw [packet.packetParse_text]
      exact hStop

/-- The reports from the middle of the cycle of a device on. -/
def reportsFrom (image : Option (List Byte)) (state : RouterState) (received : List RawPacket)
    (device : Text) (devices : List Text) (turns : List Turn) : List Report :=
  match limitedCycle state received turns with
  | none => []
  | some cycle => ⟨device, !cycle.mainCycleLimitReached, cycle.received⟩ ::
      updateReports image cycle.state devices cycle.turns

theorem updateReports_cons (device : Text) (devices : List Text) (turns : List Turn) :
    updateReports image state (device :: devices) turns =
      reportsFrom image (startUpdate image state) [] device devices turns := rfl

theorem attributed_nil : Attributed [] :=
  fun _ h => absurd h List.not_mem_nil

theorem attributed_cons {report : Report} {reports : List Report} :
    Attributed (report :: reports) ↔ (report.success = true →
      ∃ packet ∈ report.received, packet.UpdateSuccess ∧ SentBy report.device packet) ∧
      Attributed reports :=
  List.forall_mem_cons

section Turns

variable {received : List RawPacket} {device : Text} {devices : List Text} {turns : List Turn}
  {next : RouterState}

theorem limitedCycle_cons (h : turnState state turn = .ok next) :
    limitedCycle state received (turn :: turns) =
      if turn.limitPassed = true then some ⟨true, next, received ++ turn.packet.toList, turns⟩
      else if next.mainCyclePermit = true then
        limitedCycle next (received ++ turn.packet.toList) turns
      else some ⟨false, next, received ++ turn.packet.toList, turns⟩ := by
  rw [limitedCycle, h]

theorem limitedCycle_next (h : turnState state turn = .ok next) (hLimit : turn.limitPassed = false)
    (hPermit : next.mainCyclePermit = true) :
    limitedCycle state received (turn :: turns) =
      limitedCycle next (received ++ turn.packet.toList) turns := by
  rw [limitedCycle_cons h, if_neg (by rw [hLimit]; decide), if_pos hPermit]

theorem reportsFrom_error {stop : Stop} (h : turnState state turn = .error stop) :
    reportsFrom image state received device devices (turn :: turns) = [] := by
  rw [reportsFrom, limitedCycle, h]

theorem reportsFrom_limit (h : turnState state turn = .ok next) (hLimit : turn.limitPassed = true) :
    reportsFrom image state received device devices (turn :: turns) =
      ⟨device, false, received ++ turn.packet.toList⟩ ::
        updateReports image next devices turns := by
  rw [reportsFrom, limitedCycle_cons h, if_pos hLimit]
  rfl

theorem reportsFrom_next (h : turnState state turn = .ok next) (hLimit : turn.limitPassed = false)
    (hPermit : next.mainCyclePermit = true) :
    reportsFrom image state received device devices (turn :: turns) =
      reportsFrom image next (received ++ turn.packet.toList) device devices turns := by
  rw [reportsFrom, limitedCycle_next h hLimit hPermit]
  rfl

theorem reportsFrom_success (h : turnState state turn = .ok next)
    (hLimit : turn.limitPassed = false) (hPermit : ¬ next.mainCyclePermit = true) :
    reportsFrom image state received device devices (turn :: turns) =
      ⟨device, true, received ++ turn.packet.toList⟩ ::
        updateReports image next devices turns := by
  rw [reportsFrom, limitedCycle_cons h, if_neg (by rw [hLimit]; decide), if_neg hPermit]
  rfl

/-- The first success that comes in a cycle decides whether it is the device's own. -/
theorem own_success_iff (hReceived : ∀ packet ∈ received, ¬ packet.UpdateSuccess)
    (hSuccess : turn.Success) :
    (∃ packet ∈ received ++ turn.packet.toList, packet.UpdateSuccess ∧ SentBy device packet) ↔
      ∀ packet ∈ turn.packet, SentBy device packet := by
  obtain ⟨packet, hPacket, hUpdate⟩ := hSuccess
  constructor
  · rintro ⟨other, hMem, hOther, hSent⟩ packet' hPacket'
    rw [List.mem_append, Option.mem_toList] at hMem
    rcases hMem with hMem | hMem
    · exact absurd hOther (hReceived other hMem)
    · obtain rfl := Option.mem_unique hMem hPacket'
      exact hSent
  · intro h
    refine ⟨packet, ?_, hUpdate, h packet hPacket⟩
    exact List.mem_append_right _ (Option.mem_toList.mpr hPacket)

/-- From the middle of a cycle without a success so far. -/
theorem attributed_reportsFrom_iff (hStable : (image.map otaImageTableSegments).or table = table)
    (hPermit : state.mainCyclePermit = true) (hTable : state.otaImageTableSegments = table)
    (hReceived : ∀ packet ∈ received, ¬ packet.UpdateSuccess) :
    Attributed (reportsFrom image state received device devices turns) ↔
      OwnSuccesses table (device :: devices) turns := by
  induction turns generalizing state received device devices with
  | nil => exact ⟨fun _ => trivial, fun _ => attributed_nil⟩
  | cons turn turns ih =>
      subst hTable
      -- the devices behind this one start with the turns that it leaves
      have hDevices {next : RouterState}
          (hNext : next.otaImageTableSegments = state.otaImageTableSegments) :
          Attributed (updateReports image next devices turns) ↔
            OwnSuccesses state.otaImageTableSegments devices turns := by
        cases devices with
        | nil =>
            rw [updateReports, OwnSuccesses]
            exact ⟨fun _ => trivial, fun _ => attributed_nil⟩
        | cons device devices =>
            rw [updateReports_cons]
            refine ih rfl ?_ fun _ h => absurd h List.not_mem_nil
            show (image.map otaImageTableSegments).or next.otaImageTableSegments = _
            rw [hNext, hStable]
      rw [OwnSuccesses]
      by_cases hHarmless : turn.Harmless state.otaImageTableSegments
      · obtain ⟨next, hNext, hTable, hKept⟩ := turnState_of_harmless hPermit hHarmless
        cases hLimit : turn.limitPassed with
        | true =>
            rw [reportsFrom_limit hNext hLimit, attributed_cons, hDevices hTable]
            simp [hHarmless]
        | false =>
            by_cases hSuccess : turn.Success
            · rw [reportsFrom_success hNext hLimit fun h => hKept.mp h hSuccess, attributed_cons,
                hDevices hTable, own_success_iff hReceived hSuccess]
              simp [hHarmless, hSuccess]
            · have hMore : ∀ packet ∈ received ++ turn.packet.toList, ¬ packet.UpdateSuccess := by
                intro packet hMem
                rw [List.mem_append, Option.mem_toList] at hMem
                rcases hMem with hMem | hMem
                · exact hReceived packet hMem
                · exact fun hUpdate => hSuccess ⟨packet, hMem, hUpdate⟩
              rw [reportsFrom_next hNext hLimit (hKept.mpr hSuccess),
                ih (hKept.mpr hSuccess) hTable hMore]
              simp [hHarmless, hSuccess]
      · obtain ⟨stop, hStop⟩ := turnState_of_not_harmless hHarmless
        rw [reportsFrom_error hStop]
        exact ⟨fun _ h => absurd h hHarmless, fun _ => attributed_nil⟩

end Turns

/-- The loop over turns does with the packets what the loop over bytes does with the lines
that hold them, as long as that one goes on. -/
theorem limitedCycle_lines {buffer : Text} {cycle : MainCycle} (lines : List Line)
    (hPermit : state.mainCyclePermit = true) (hSettled : Settled buffer)
    (hFull : 94 ≤ buffer.length) (received : List RawPacket) (turns : List Turn)
    (h : (mainCycle false).after (some ⟨state, buffer⟩) (lines.flatMap Line.text) = some cycle) :
    limitedCycle state received (lines.map Line.turn ++ turns) =
      limitedCycle cycle.state (received ++ lines.flatMap Line.packets) turns := by
  induction lines generalizing state buffer received with
  | nil =>
      obtain rfl := Option.some.inj h
      rw [List.flatMap_nil, List.append_nil]
      rfl
  | cons line lines ih =>
      rw [List.flatMap_cons, Transducer.after_append] at h
      rw [List.map_cons, List.cons_append, List.flatMap_cons, ← List.append_assoc]
      cases line with
      | raw packet =>
          have hAfter := (@read_raw false state buffer hPermit packet fun q hq hNil hText =>
            quiet_of_raw hSettled hq hNil hText).2
          rw [Line.text, hAfter] at h
          cases hNext : goesOn false state packet with
          | none =>
              rw [hNext, Option.map_none, after_none] at h
              cases h
          | some next =>
              obtain ⟨hParsed, hPermitNext⟩ := goesOn_eq_some hNext
              have hTurn : turnState state (Line.raw packet).turn = .ok next := hParsed
              rw [hNext, Option.map_some] at h
              rw [limitedCycle_next hTurn rfl hPermitNext]
              exact ih hPermitNext (settled_line packet) (full_line packet) _ h
      | udm message =>
          have hAfter := (@read_udm false state buffer message hPermit
            (shows_of_settled hSettled message)).2
          have hTurn : turnState state (Line.udm message).turn = .ok state := rfl
          have hText := message.length_text
          obtain ⟨hNext, hNextFull⟩ := settled_of_message message
            (show 95 ≤ buffer.length + message.text.length by omega)
          rw [Line.text, hAfter] at h
          rw [limitedCycle_next hTurn rfl hPermit]
          exact ih hPermit hNext hNextFull _ h

/-- **Per-device results.** For all devices and turns, each reported success is the
device's own if and only if no other device's success comes first in its update. -/
theorem attributed_iff (image : Option (List Byte)) (state : RouterState) (devices : List Text)
    (turns : List Turn) : Attributed (updateReports image state devices turns) ↔
      OwnSuccesses ((image.map otaImageTableSegments).or state.otaImageTableSegments)
        devices turns := by
  have hStable : (image.map otaImageTableSegments).or
      ((image.map otaImageTableSegments).or state.otaImageTableSegments) =
        (image.map otaImageTableSegments).or state.otaImageTableSegments := by
    cases image with
    | none => rfl
    | some data => rfl
  cases devices with
  | nil =>
      rw [updateReports, OwnSuccesses]
      exact ⟨fun _ => trivial, fun _ => attributed_nil⟩
  | cons device devices =>
      rw [updateReports_cons]
      exact attributed_reportsFrom_iff hStable rfl rfl fun _ h => absurd h List.not_mem_nil

/-- A node that reports the success of its update. -/
def latePacket : RawPacket where
  addr := #v[0xFD, 0, 0, 0, 0, 0, 0, 0, 0x02, 0x12, 0x4B, 0, 0x0C, 0x47, 0x4A, 0x85]
  data := [0x01, 0x01, 0x09, 0x0C, 0xFF, 0xFF, 0xFF, 0xFF, 0xFF, 0xFF]
  length_data := Or.inl rfl

/-- The address of another node. -/
def neighbour : Text := "fd00:0000:0000:0000:0212:4b00:0c47:3e00".toList

theorem not_sentBy_neighbour : ¬ SentBy neighbour latePacket := by
  unfold SentBy
  decide +kernel

/-- The first device is given up on, and its late message makes a success of the second. -/
theorem attributed_fails :
    ((updateReports (some [0x00]) initialState [latePacket.adress, neighbour]
        [⟨none, true⟩, ⟨some latePacket, false⟩]).map fun report =>
          (report.device, report.success)) = [(latePacket.adress, false), (neighbour, true)] ∧
    ¬ Attributed (updateReports (some [0x00]) initialState [latePacket.adress, neighbour]
        [⟨none, true⟩, ⟨some latePacket, false⟩]) := by
  constructor
  · decide +kernel
  · intro h
    rw [updateReports_cons, attributed_reportsFrom_iff rfl rfl rfl fun _ h =>
      absurd h List.not_mem_nil] at h
    have hNothing : (⟨none, true⟩ : Turn).Harmless
        (startUpdate (some [0x00]) initialState).otaImageTableSegments := by
      intro packet hMem
      cases hMem
    have hLate : (⟨some latePacket, false⟩ : Turn).Harmless
        (startUpdate (some [0x00]) initialState).otaImageTableSegments := by
      intro packet hMem
      cases hMem
      exact ⟨fun hType => absurd hType (by decide), fun hType => absurd hType (by decide)⟩
    have hSuccess : (⟨some latePacket, false⟩ : Turn).Success :=
      ⟨latePacket, rfl, by decide, by decide⟩
    have hSecond := (h hNothing).1 rfl
    exact not_sentBy_neighbour (((hSecond hLate).2.2 rfl hSuccess).1 latePacket rfl)

end Smarthome.Router
