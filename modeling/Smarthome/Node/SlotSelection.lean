import Smarthome.Node.SlotVerification
import Smarthome.Semantics.RunningExtremes

/-! The searches of `ota-main.c` for the oldest, the newest and an empty download slot.
Version 0 stands for "none found yet", but images can have it as well. -/
namespace Smarthome

def OtaMetadata.version (metadata : OtaMetadata) : Nat := u16 metadata.bytes[12] metadata.bytes[13]

namespace Node

open Semantics Routine Bootloader

/-- `validate_ota_metadata`: not erased, and the two CRC fields agree. -/
def validateOtaMetadata (metadata : OtaMetadata) : Bool :=
  let erased := metadata.bytes.toList.all (· == 0xFF)
  if erased then false else metadata.crc == metadata.crcShadow

/-- `while (get_ota_slot_metadata(slot, &ota_slot_metadata));`. -/
def metadataUntilRead (slot : OtaSlot) : Boot OtaMetadata :=
  withState fun board => untilSome (getOtaSlotMetadata slot) (board.outcomes.length + 1)

/-- `oldest_ota_slot` and `oldest_firmware_version`, or the same for the newest. -/
structure Selection where
  slot : OtaSlot
  firmwareVersion : Nat
  deriving DecidableEq

/-- The body of the loop of `find_oldest_ota_image`. -/
def oldestPass (best : Selection) (slot : OtaSlot) (metadata : OtaMetadata) : Selection :=
  if validateOtaMetadata metadata = false then best
  else if best.firmwareVersion ≠ 0 then
    if metadata.version < best.firmwareVersion then ⟨slot, metadata.version⟩ else best
  else ⟨slot, metadata.version⟩

/-- The body of the loop of `find_newest_ota_image`. -/
def newestPass (best : Selection) (slot : OtaSlot) (metadata : OtaMetadata) : Selection :=
  if validateOtaMetadata metadata = false then best
  else if metadata.version > best.firmwareVersion then ⟨slot, metadata.version⟩ else best

/-- The loop over the slots, each with its metadata. -/
def overSlots (pass : Selection → OtaSlot → OtaMetadata → Selection) :
    List OtaSlot → Selection → Boot Selection
  | [], best => return best
  | slot :: slots, best => do
      let metadata ← metadataUntilRead slot
      overSlots pass slots (pass best slot metadata)

def findOldestOtaImage : Boot OtaSlot := do
  let oldest ← overSlots oldestPass downloadSlots ⟨goldenSlot, 0⟩
  return oldest.slot

def findNewestOtaImage : Boot OtaSlot := do
  let newest ← overSlots newestPass downloadSlots ⟨goldenSlot, 0⟩
  return newest.slot

/-- The loop of `find_empty_ota_slot`, which returns the first invalid slot. -/
def firstInvalid : List OtaSlot → Boot (Option OtaSlot)
  | [] => return none
  | slot :: slots => do
      let metadata ← metadataUntilRead slot
      if validateOtaMetadata metadata = false then return some slot else firstInvalid slots

def findEmptyOtaSlot : Boot OtaSlot := do
  match ← firstInvalid downloadSlots with
  | some slot => return slot
  | none => findOldestOtaImage

/-! What the searches are for, in terms of the content of the external flash. -/

section Content

variable (external : Nat → Byte)

/-- The slot is populated and valid. -/
def ValidSlot (slot : OtaSlot) : Prop :=
  validateOtaMetadata (metadataAt external (slotAddress slot)) = true

instance (slot : OtaSlot) : Decidable (ValidSlot external slot) := inferInstanceAs (Decidable (_ = _))

def slotVersion (slot : OtaSlot) : Nat := (metadataAt external (slotAddress slot)).version

/-- A download slot that is valid. -/
def ValidDownload (slot : OtaSlot) : Prop := slot ∈ downloadSlots ∧ ValidSlot external slot

/-- A valid slot with the lowest version of the valid slots, or 0 when there is none. -/
def IsOldest (found : OtaSlot) : Prop :=
  (ValidDownload external found ∧
      ∀ slot, ValidDownload external slot → slotVersion external found ≤ slotVersion external slot) ∨
    (found = goldenSlot ∧ ∀ slot, ¬ ValidDownload external slot)

/-- A valid slot with the highest version of the valid slots, or 0 when there is none. -/
def IsNewest (found : OtaSlot) : Prop :=
  (ValidDownload external found ∧
      ∀ slot, ValidDownload external slot → slotVersion external slot ≤ slotVersion external found) ∨
    (found = goldenSlot ∧ ∀ slot, ¬ ValidDownload external slot)

/-- No valid slot has version 0, or the last valid slot has. -/
def ZeroOnlyLast : Prop :=
  (∀ slot, ValidDownload external slot → slotVersion external slot ≠ 0) ∨
    ∃ last, ValidDownload external last ∧ slotVersion external last = 0 ∧
      ∀ later, ValidDownload external later → later ≤ last

/-- Not all valid slots have version 0, if there are any. -/
def SomeVersion : Prop :=
  (∃ slot, ValidDownload external slot ∧ slotVersion external slot ≠ 0) ∨
    ∀ slot, ¬ ValidDownload external slot

/-- The download slots that are valid, in their order. -/
def validDownloads : List OtaSlot := downloadSlots.filter fun slot => decide (ValidSlot external slot)

end Content

/-! The loops read the metadata of every slot, however often a read fails first, and so
they are folds over the content. -/

section Loops

variable {external : Nat → Byte}

theorem metadataUntilRead_triple (slot : OtaSlot) :
    Triple (fun b => b.external = external) (metadataUntilRead slot) (fun b => b.external = external)
      fun metadata b => b.external = external ∧
        metadata = metadataAt external (slotAddress slot) := by
  have hIgnores : IgnoresOutcomes fun b => b.external = external := fun _ _ h => h
  apply Triple.withState
  intro s hs
  refine (Triple.untilSome (fun b => b.external = external) (fun b => b.outcomes.length)
    (fun n => ?_) _).of_mem ⟨hs, Nat.lt_succ_self _⟩
  apply twoExchanges_triple hIgnores (fun _ h => h) n
  have hGet : Triple (fun b => b.external = external)
      (get fun board => metadataAt board.external (slotAddress slot) : Boot OtaMetadata)
      (fun b => b.external = external) fun metadata b => b.external = external ∧
        metadata = metadataAt external (slotAddress slot) :=
    Triple.get fun b h => ⟨h, h, by rw [h]⟩
  exact Triple.bind hGet fun metadata => Triple.pure fun b h => ⟨h.1, h⟩

theorem overSlots_triple (pass : Selection → OtaSlot → OtaMetadata → Selection)
    (slots : List OtaSlot) (best : Selection) :
    Triple (fun b => b.external = external) (overSlots pass slots best)
      (fun b => b.external = external) fun r b => b.external = external ∧
        r = slots.foldl (fun best slot => pass best slot (metadataAt external (slotAddress slot)))
          best := by
  induction slots generalizing best with
  | nil => exact Triple.pure fun b h => ⟨h, h, rfl⟩
  | cons slot slots ih =>
      apply Triple.bind (metadataUntilRead_triple slot)
      intro metadata
      apply Triple.of_forall
      rintro s ⟨hs, rfl⟩
      exact (ih _).of_mem hs

theorem firstInvalid_triple (slots : List OtaSlot) :
    Triple (fun b => b.external = external) (firstInvalid slots) (fun b => b.external = external)
      fun r b => b.external = external ∧
        r = slots.find? fun slot => !decide (ValidSlot external slot) := by
  induction slots with
  | nil => exact Triple.pure fun b h => ⟨h, h, rfl⟩
  | cons slot slots ih =>
      apply Triple.bind (metadataUntilRead_triple slot)
      intro metadata
      apply Triple.of_forall
      rintro s ⟨hs, rfl⟩
      rw [List.find?_cons]
      by_cases hValid : ValidSlot external slot
      · have hGoOn : validateOtaMetadata (metadataAt external (slotAddress slot)) ≠ false := by
          rw [hValid]
          exact Bool.noConfusion
        rw [if_neg hGoOn, decide_eq_true hValid]
        exact ih.of_mem hs
      · rw [if_pos (Bool.eq_false_iff.mpr hValid), decide_eq_false hValid]
        exact (Triple.pure fun b h => ⟨h, h, rfl⟩).of_mem hs

/-- A pair of a slot and its version, as the code keeps it in two variables. -/
def Selection.ofPair (best : OtaSlot × Nat) : Selection := ⟨best.1, best.2⟩

/-- A loop that passes over the invalid slots, as a fold over the others. -/
theorem foldl_pass {pass : Selection → OtaSlot → OtaMetadata → Selection}
    {search : OtaSlot × Nat → OtaSlot → OtaSlot × Nat}
    (hSkip : ∀ best slot metadata, validateOtaMetadata metadata = false →
      pass best slot metadata = best)
    (hTake : ∀ best slot, ValidSlot external slot →
      pass (.ofPair best) slot (metadataAt external (slotAddress slot)) =
        .ofPair (search best slot))
    (slots : List OtaSlot) (best : OtaSlot × Nat) :
    slots.foldl (fun best slot => pass best slot (metadataAt external (slotAddress slot)))
        (.ofPair best) =
      .ofPair ((slots.filter fun slot => decide (ValidSlot external slot)).foldl search best) := by
  induction slots generalizing best with
  | nil => rfl
  | cons slot slots ih =>
      rw [List.foldl_cons, List.filter_cons]
      by_cases hValid : ValidSlot external slot
      · rw [if_pos (decide_eq_true hValid), List.foldl_cons, hTake best slot hValid]
        exact ih _
      · rw [if_neg (by simpa using hValid), hSkip _ _ _ (Bool.eq_false_iff.mpr hValid)]
        exact ih _

theorem oldestPass_of_invalid {best : Selection} {slot : OtaSlot} {metadata : OtaMetadata}
    (hInvalid : validateOtaMetadata metadata = false) : oldestPass best slot metadata = best := by
  rw [oldestPass, if_pos hInvalid]

theorem oldestPass_of_valid {best : OtaSlot × Nat} {slot : OtaSlot} {metadata : OtaMetadata}
    {version : OtaSlot → Nat} (hValid : validateOtaMetadata metadata = true)
    (hVersion : version slot = metadata.version) :
    oldestPass (.ofPair best) slot metadata = .ofPair (lowest version best slot) := by
  simp only [oldestPass, hValid, lowest, Selection.ofPair, hVersion, bot_eq_zero]
  by_cases hStart : best.2 = 0
  · simp [hStart]
  · by_cases hLess : metadata.version < best.2 <;> simp [hStart, hLess]

theorem newestPass_of_invalid {best : Selection} {slot : OtaSlot} {metadata : OtaMetadata}
    (hInvalid : validateOtaMetadata metadata = false) : newestPass best slot metadata = best := by
  rw [newestPass, if_pos hInvalid]

theorem newestPass_of_valid {best : OtaSlot × Nat} {slot : OtaSlot} {metadata : OtaMetadata}
    {version : OtaSlot → Nat} (hValid : validateOtaMetadata metadata = true)
    (hVersion : version slot = metadata.version) :
    newestPass (.ofPair best) slot metadata = .ofPair (highest version best slot) := by
  simp only [newestPass, hValid, highest, Selection.ofPair, hVersion]
  by_cases hMore : best.2 < metadata.version <;> simp [hMore]

/-- The valid slots in the order of the loops. -/
theorem mem_validDownloads {slot : OtaSlot} :
    slot ∈ validDownloads external ↔ ValidDownload external slot := by
  simp [validDownloads, ValidDownload]

variable (external) in
theorem validDownloads_sorted : (validDownloads external).Pairwise (· < ·) :=
  List.Pairwise.filter _ (by decide : downloadSlots.Pairwise (· < ·))

/-- The last valid slot is the greatest. -/
theorem le_of_getLast? {last slot : OtaSlot} (hLast : (validDownloads external).getLast? = some last)
    (hSlot : slot ∈ validDownloads external) : slot ≤ last := by
  obtain ⟨before, hList⟩ := List.getLast?_eq_some_iff.mp hLast
  have hSorted := validDownloads_sorted external
  rw [hList] at hSorted hSlot
  rw [List.mem_append, List.mem_singleton] at hSlot
  rcases hSlot with hBefore | rfl
  · exact ((List.pairwise_append.mp hSorted).2.2 slot hBefore last List.mem_cons_self).le
  · exact le_rfl

theorem zeroOnlyLast_iff :
    ZeroOnlyLast external ↔ (∀ slot ∈ validDownloads external, slotVersion external slot ≠ 0) ∨
      ∀ last ∈ (validDownloads external).getLast?, slotVersion external last = 0 := by
  have hKeys : (∀ slot, ValidDownload external slot → slotVersion external slot ≠ 0) ↔
      ∀ slot ∈ validDownloads external, slotVersion external slot ≠ 0 :=
    forall_congr' fun slot => by rw [mem_validDownloads]
  rw [ZeroOnlyLast, hKeys]
  refine or_congr_right' fun hSome => ⟨?_, fun hLast => ?_⟩
  · rintro ⟨last, hValid, hZero, hLater⟩ slot hSlot
    have hSlot := Option.mem_def.mp hSlot
    have hMem := List.mem_of_getLast? hSlot
    obtain rfl := le_antisymm (hLater slot (mem_validDownloads.mp hMem))
      (le_of_getLast? hSlot (mem_validDownloads.mpr hValid))
    exact hZero
  · have hNonempty : validDownloads external ≠ [] := by
      intro hEmpty
      exact hSome (by simp [hEmpty])
    have hGet := List.getLast?_eq_some_getLast hNonempty
    refine ⟨(validDownloads external).getLast hNonempty, ?_, hLast _ hGet, fun later hValid => ?_⟩
    · exact mem_validDownloads.mp (List.getLast_mem hNonempty)
    · exact le_of_getLast? hGet (mem_validDownloads.mpr hValid)

end Loops

/-! The two searches give what their names say exactly when version 0 does not get in the
way. -/

section Searches

variable {external : Nat → Byte}

/-- A search gives the fold over the valid slots, whatever reads fail on the way. -/
theorem search_triple (pass : Selection → OtaSlot → OtaMetadata → Selection)
    (search : OtaSlot × Nat → OtaSlot → OtaSlot × Nat)
    (hSkip : ∀ best slot metadata, validateOtaMetadata metadata = false →
      pass best slot metadata = best)
    (hTake : ∀ best slot, ValidSlot external slot →
      pass (.ofPair best) slot (metadataAt external (slotAddress slot)) =
        .ofPair (search best slot)) (slots : List OtaSlot) (best : OtaSlot × Nat) :
    Triple (fun b => b.external = external)
      (overSlots pass slots (.ofPair best) >>= fun best => return best.slot)
      (fun b => b.external = external) fun r _ =>
        r = ((slots.filter fun slot => decide (ValidSlot external slot)).foldl search best).1 := by
  have hFold := foldl_pass hSkip hTake slots best
  apply Triple.bind (overSlots_triple pass slots (.ofPair best))
  intro found
  refine Triple.pure fun b h => ⟨h.1, ?_⟩
  rw [h.2, hFold, Selection.ofPair]

theorem findOldestOtaImage_triple :
    Triple (fun b => b.external = external) findOldestOtaImage (fun b => b.external = external)
      fun r _ => r = ((validDownloads external).foldl (lowest (slotVersion external))
        (goldenSlot, ⊥)).1 := by
  have hSearch := search_triple oldestPass (lowest (slotVersion external))
    (fun _ _ _ => oldestPass_of_invalid) (fun _ _ hValid => oldestPass_of_valid hValid rfl)
    downloadSlots (goldenSlot, 0)
  rw [findOldestOtaImage, validDownloads]
  exact hSearch

theorem findOldestOtaImage_result (board : Board) :
    (findOldestOtaImage board).1 = some ((validDownloads board.external).foldl
      (lowest (slotVersion board.external)) (goldenSlot, ⊥)).1 := by
  obtain ⟨-, r, hResult, hFold⟩ := findOldestOtaImage_triple board rfl
  rw [hResult, hFold]

theorem findNewestOtaImage_triple :
    Triple (fun b => b.external = external) findNewestOtaImage (fun b => b.external = external)
      fun r _ => r = ((validDownloads external).foldl (highest (slotVersion external))
        (goldenSlot, ⊥)).1 := by
  have hSearch := search_triple newestPass (highest (slotVersion external))
    (fun _ _ _ => newestPass_of_invalid) (fun _ _ hValid => newestPass_of_valid hValid rfl)
    downloadSlots (goldenSlot, 0)
  rw [findNewestOtaImage, validDownloads]
  exact hSearch

theorem findNewestOtaImage_result (board : Board) :
    (findNewestOtaImage board).1 = some ((validDownloads board.external).foldl
      (highest (slotVersion board.external)) (goldenSlot, ⊥)).1 := by
  obtain ⟨-, r, hResult, hFold⟩ := findNewestOtaImage_triple board rfl
  rw [hResult, hFold]

variable {board : Board}

/-- What the search for the oldest gives is a valid slot, if there is one. -/
theorem validDownload_foldl_lowest (hSome : validDownloads external ≠ []) :
    ValidDownload external ((validDownloads external).foldl (lowest (slotVersion external))
      (goldenSlot, ⊥)).1 :=
  mem_validDownloads.mp (foldl_lowest_mem (slotVersion external) goldenSlot _ hSome).1

/-- Without valid slots both searches give 0. -/
theorem forall_not_validDownload :
    (∀ slot, ¬ ValidDownload external slot) ↔ validDownloads external = [] := by
  rw [List.eq_nil_iff_forall_not_mem]
  exact forall_congr' fun slot => by rw [mem_validDownloads]

/-- The search for the oldest slot is right exactly when no valid slot has version 0, or
the last valid one has. -/
theorem isOldest_iff {found : OtaSlot} (hFound : (findOldestOtaImage board).1 = some found) :
    IsOldest board.external found ↔ ZeroOnlyLast board.external := by
  have hResult := hFound
  rw [findOldestOtaImage_result, Option.some.injEq] at hResult
  by_cases hNone : validDownloads board.external = []
  · have hGolden : found = goldenSlot := by rw [← hResult, hNone]; rfl
    have hNot := forall_not_validDownload.mpr hNone
    exact ⟨fun _ => Or.inl fun slot h => absurd h (hNot slot), fun _ => Or.inr ⟨hGolden, hNot⟩⟩
  · have hValid := validDownload_foldl_lowest hNone
    rw [hResult] at hValid
    have hKey := (foldl_lowest_mem (slotVersion board.external) goldenSlot _ hNone).2
    rw [zeroOnlyLast_iff]
    refine Iff.trans ?_ (foldl_lowest_le_iff (slotVersion board.external) goldenSlot _)
    rw [hKey, hResult]
    constructor
    · rintro (⟨-, hLow⟩ | ⟨-, hNot⟩)
      · exact fun slot hSlot => hLow slot (mem_validDownloads.mp hSlot)
      · exact absurd hValid (hNot found)
    · exact fun hLow => Or.inl ⟨hValid, fun slot hSlot => hLow slot (mem_validDownloads.mpr hSlot)⟩

/-- The search for the newest slot is right exactly when some valid slot has a version
above 0, or none is valid. -/
theorem isNewest_iff {found : OtaSlot} (hFound : (findNewestOtaImage board).1 = some found) :
    IsNewest board.external found ↔ SomeVersion board.external := by
  have hResult := hFound
  rw [findNewestOtaImage_result, Option.some.injEq] at hResult
  have hHigh := le_foldl_highest (slotVersion board.external) (validDownloads board.external)
    (goldenSlot, ⊥)
  rcases foldl_highest_cases (slotVersion board.external) goldenSlot
    (validDownloads board.external) with ⟨hMem, hPos, hKey⟩ | hStart
  · rw [hKey, hResult] at hHigh hPos
    rw [hResult] at hMem
    have hValid := mem_validDownloads.mp hMem
    have hRight : IsNewest board.external found :=
      Or.inl ⟨hValid, fun slot hSlot => hHigh slot (mem_validDownloads.mpr hSlot)⟩
    exact iff_of_true hRight (Or.inl ⟨found, hValid, hPos.ne'⟩)
  · rw [hStart] at hHigh hResult
    have hGolden : ¬ ValidDownload board.external found := by
      rw [← hResult]
      exact fun h => absurd h.1 (by decide)
    refine or_congr (iff_of_false (fun h => hGolden h.1) ?_) (and_iff_right hResult.symm)
    rintro ⟨slot, hSlot, hPos⟩
    exact hPos (le_bot_iff.mp (hHigh slot (mem_validDownloads.mpr hSlot)))

/-- Both searches end, whatever the slots hold and however often they cannot be read. Each
gives what its name says except where version 0 is taken for no version. -/
theorem findOtaImages_right_iff (board : Board) :
    ∃ oldest newest, (findOldestOtaImage board).1 = some oldest ∧
      (findNewestOtaImage board).1 = some newest ∧
      (IsOldest board.external oldest ↔ ZeroOnlyLast board.external) ∧
      (IsNewest board.external newest ↔ SomeVersion board.external) :=
  have hOldest := findOldestOtaImage_result board
  have hNewest := findNewestOtaImage_result board
  ⟨_, _, hOldest, hNewest, isOldest_iff hOldest, isNewest_iff hNewest⟩

/-- Three valid images, the first two with version 0 and the third with version 7. -/
def zeroThenSeven : Board where
  internal _ := 0
  external a := if a = slotAddress (Fin.last 3) + 12 then 7 else 0
  outcomes := []
  copyUnfinished := false

/-- The newest of the three is taken for the oldest. -/
theorem findOtaImages_not_always_right : ¬ ∀ board : Board, ∃ oldest newest,
    (findOldestOtaImage board).1 = some oldest ∧ (findNewestOtaImage board).1 = some newest ∧
      IsOldest board.external oldest ∧ IsNewest board.external newest := by
  intro h
  obtain ⟨oldest, -, hOldest, -, hRight, -⟩ := h zeroThenSeven
  have hThird : (findOldestOtaImage zeroThenSeven).1 = some 3 := by decide
  obtain rfl := Option.some.inj (hThird.symm.trans hOldest)
  have hFirst : ValidDownload zeroThenSeven.external 1 := ⟨by decide, by decide⟩
  rcases hRight with ⟨-, hLow⟩ | ⟨hGolden, -⟩
  · exact absurd (hLow 1 hFirst) (by decide)
  · exact absurd hGolden (by decide)

/-- The search for an empty slot ends with a download slot, never with the golden image: it
falls back on the oldest slot only when all are valid. -/
theorem findEmptyOtaSlot_download (board : Board) :
    ∃ slot, (findEmptyOtaSlot board).1 = some slot ∧ slot ∈ downloadSlots := by
  have hFirst : Triple (fun b => b.external = board.external) (firstInvalid downloadSlots)
      (fun b => b.external = board.external) fun r b => b.external = board.external ∧
        (∀ slot, r = some slot → slot ∈ downloadSlots) ∧
        (r = none → ValidDownload board.external downloadSlot) := by
    refine (firstInvalid_triple downloadSlots).mono (fun _ h => h) (fun _ h => h) ?_
    intro r b hFind
    rw [hFind.2]
    refine ⟨hFind.1, fun slot hFound => List.mem_of_find?_eq_some hFound, fun hNone => ?_⟩
    have hDownload : downloadSlot ∈ downloadSlots := by decide
    exact ⟨hDownload, by simpa using List.find?_eq_none.mp hNone downloadSlot hDownload⟩
  have hOldest (hValid : ValidDownload board.external downloadSlot) :
      Triple (fun b => b.external = board.external) findOldestOtaImage
        (fun b => b.external = board.external) fun slot _ => slot ∈ downloadSlots := by
    refine findOldestOtaImage_triple.mono (fun _ h => h) (fun _ h => h) ?_
    intro r b hFold
    rw [hFold]
    exact (validDownload_foldl_lowest (List.ne_nil_of_mem (mem_validDownloads.mpr hValid))).1
  have hRun : Triple (fun b => b.external = board.external) findEmptyOtaSlot
      (fun b => b.external = board.external) fun slot _ => slot ∈ downloadSlots := by
    apply Triple.bind hFirst
    intro empty
    cases empty with
    | some slot => exact Triple.pure fun b h => ⟨h.1, h.2.1 slot rfl⟩
    | none =>
        apply Triple.of_forall
        intro s hs
        exact (hOldest (hs.2.2 rfl)).of_mem hs.1
  obtain ⟨-, slot, hResult, hMem⟩ := hRun board rfl
  exact ⟨slot, hResult, hMem⟩

end Searches

end Node
end Smarthome
