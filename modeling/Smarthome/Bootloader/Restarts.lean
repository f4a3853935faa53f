import Smarthome.Bootloader.Execution
import Smarthome.Semantics.Restarts

/-! `update_firmware` again and again: a loss of power may leave a sector erased in part or
programmed in part, and the next start begins with the first sector. -/
namespace Smarthome.Bootloader

open Semantics Routine

/-- The cells of the internal flash that an operation changes. -/
def Touches (op : FlashOp) (a : Nat) : Prop :=
  match op with
  | .sectorErase address => a / flashPageSize = address / flashPageSize
  | .program address data => address ≤ a ∧ a < address + data.length
  | .exchange => False

/-- A torn operation can leave anything in its cells, and nothing else is changed. -/
instance : Tearing Board FlashOp where
  torn op board other :=
    other.external = board.external ∧ ∀ a, ¬ Touches op a → other.internal a = board.internal a

/-- A reset keeps both flash memories; the exchanges to come may go differently. -/
def PowerUp (board other : Board) : Prop := ∃ outcomes, other = { board with outcomes }

/-- Nothing outside the internal image has changed. -/
structure OutsideKept (start board : Board) : Prop where
  external : board.external = start.external
  outside : ∀ a, ¬ InImage a → board.internal a = start.internal a

variable {start board : Board} {slot : OtaSlot}

section Emits

theorem exchange_emits {P : FlashOp → Prop} (h : P .exchange) : Emits P exchange :=
  Emits.get_bind fun _ => Emits.bind (Emits.perform h) fun _ => Emits.pure _

/-- `update_firmware` touches the 25 sectors of the image only. -/
theorem updateFirmware_emits (slot : OtaSlot) :
    Emits (fun op => ∀ a, Touches op a → InImage a) (updateFirmware slot) := by
  have hExchange : Emits (fun op => ∀ a, Touches op a → InImage a) exchange :=
    exchange_emits fun _ hTouches => hTouches.elim
  refine Emits.forRange fun sector hSector => Emits.withState fun _ => Emits.untilSome ?_ _
  refine Emits.bind (Emits.perform fun a hTouches => ?_) fun _ => ?_
  · simp only [Touches, flashPageSize, currentFirmware] at hTouches
    unfold InImage
    omega
  refine Emits.bind hExchange fun opened => ?_
  cases opened with
  | false => exact Emits.pure none
  | true =>
      refine Emits.bind hExchange fun isRead => ?_
      cases isRead with
      | false => exact Emits.pure none
      | true =>
          refine Emits.get_bind fun b => Emits.bind (Emits.perform fun a hTouches => ?_)
            fun _ => Emits.pure _
          simp only [Touches, NorFlash.slice_length, flashPageSize, currentFirmware] at hTouches
          unfold InImage
          omega

end Emits

section Restarts

/-- From any content of the internal flash the whole slot is copied, and every cut keeps what
is outside the image. -/
theorem updateFirmware_keeps (start : Board) (slot : OtaSlot) :
    Triple (OutsideKept start) (updateFirmware slot) (OutsideKept start)
      fun _ board => Copying start slot 25 board := by
  apply Triple.of_forall
  intro s hs
  have hRun := (updateFirmware_triple s slot).of_mem (s := s) ⟨rfl, rfl, rfl⟩
  refine hRun.mono (fun _ h => h) (fun b h => ?_) fun _ b h => ?_
  · exact ⟨h.1.external.trans hs.external, fun a ha => (h.1.outside a ha).trans (hs.outside a ha)⟩
  · refine ⟨h.1.external.trans hs.external,
      fun a ha => (h.1.outside a ha).trans (hs.outside a ha), fun j hj => ?_⟩
    rw [h.1.copied j hj, hs.external]

/-- Power losses keep both memories outside the image, torn operations included. -/
theorem outsideKept_of_restarted (h : Restarted (updateFirmware slot) PowerUp start board) :
    OutsideKept start board := by
  refine ((updateFirmware_keeps start slot).mono (fun _ h => h) (fun _ h => h)
    fun _ _ h => h).of_restarted (updateFirmware_emits slot) ?_ ?_ h ⟨rfl, fun _ _ => rfl⟩
  · rintro op s t hInside hs ⟨hExternal, hCells⟩
    refine ⟨hExternal.trans hs.external, fun a ha => ?_⟩
    rw [hCells a fun hTouches => ha (hInside a hTouches), hs.outside a ha]
  · rintro s t hs ⟨outcomes, rfl⟩
    exact ⟨hs.external, hs.outside⟩

end Restarts

/-- **The copy of a slot is restartable.** After any number of power losses at any points, and
with any failures of the external flash before and after them, a call of `update_firmware` that
is left to run returns with the 25 pages of the slot in the internal flash. Nothing else in the
internal flash and nothing in the external one has changed. -/
theorem updateFirmware_restartable (slot : OtaSlot) (start board : Board) (outcomes : List Bool)
    (h : Restarted (updateFirmware slot) PowerUp start board) :
    (updateFirmware slot { board with outcomes }).1 = some () ∧
      Copying start slot 25
        (applyAll (updateFirmware slot { board with outcomes }).2 { board with outcomes }) := by
  have hKept := outsideKept_of_restarted h
  obtain ⟨-, result, hResult, hCopied⟩ :=
    updateFirmware_keeps start slot { board with outcomes } ⟨hKept.external, hKept.outside⟩
  exact ⟨hResult, hCopied⟩

/-- An erased board, and what a power loss after seven operations of a copy leaves of it. -/
def erasedBoard : Board := ⟨fun _ => 0xFF, fun _ => 0x55, [], false⟩

def cutBoard : Board := applyAll ((updateFirmware downloadSlot erasedBoard).2.take 7) erasedBoard

theorem updateFirmware_restartable_cut :
    (updateFirmware downloadSlot { cutBoard with outcomes := [false, true, false] }).1 = some () ∧
      Copying erasedBoard downloadSlot 25
        (applyAll (updateFirmware downloadSlot { cutBoard with outcomes := [false, true, false] }).2
          { cutBoard with outcomes := [false, true, false] }) :=
  updateFirmware_restartable downloadSlot erasedBoard cutBoard [false, true, false]
    (Relation.ReflTransGen.single ⟨erasedBoard, ⟨[], rfl⟩, 7, Or.inl rfl⟩)

end Smarthome.Bootloader
