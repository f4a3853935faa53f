import Mathlib.Data.List.Induction
import Mathlib.Data.List.GetD
import Mathlib.Tactic.Common

/-! The shift register that computes a cyclic redundancy check: bits come in at the lowest
place, and a polynomial is added whenever a one falls out at the highest. The register is
linear over bits, which is why it finds errors by their positions alone. -/
namespace Semantics.ShiftRegister

variable {w : Nat} (poly : BitVec w)

def step (state : BitVec w) (bit : Bool) : BitVec w :=
  (state <<< 1 ||| (BitVec.ofBool bit).setWidth w) ^^^ if state.getLsbD (w - 1) then poly else 0#w

def run (state : BitVec w) (bits : List Bool) : BitVec w := bits.foldl (step poly) state

variable (state other : BitVec w) (bit bit' : Bool) (bits : List Bool)

@[simp] theorem run_nil : run poly state [] = state := rfl

@[simp] theorem run_cons : run poly state (bit :: bits) = run poly (step poly state bit) bits := rfl

theorem run_append (first second : List Bool) :
    run poly state (first ++ second) = run poly (run poly state first) second :=
  List.foldl_append

/-- Every place gets the one below it, and the polynomial if a one falls out. -/
theorem getLsbD_step {i : Nat} (hi : i < w) : (step poly state bit).getLsbD i =
    ((if i = 0 then bit else state.getLsbD (i - 1)) ^^
      (state.getLsbD (w - 1) && poly.getLsbD i)) := by
  have hPoly : (if state.getLsbD (w - 1) then poly else 0#w).getLsbD i =
      (state.getLsbD (w - 1) && poly.getLsbD i) := by
    cases state.getLsbD (w - 1) with
    | false => simp
    | true => simp
  rw [step, BitVec.getLsbD_xor, hPoly]
  congr 1
  rcases Nat.eq_zero_or_pos i with rfl | hPos
  · simp [hi]
  · have hNe : i ≠ 0 := Nat.ne_of_gt hPos
    have hBelow : i - 1 < w := by omega
    simp [hi, hNe, BitVec.getLsbD_ofBool, BitVec.getLsbD_eq_getElem hBelow]

section Linear

theorem step_xor : step poly (state ^^^ other) (bit ^^ bit') =
    step poly state bit ^^^ step poly other bit' := by
  refine BitVec.eq_of_getLsbD_eq fun i hi => ?_
  have hIn : (if i = 0 then (bit ^^ bit') else (state ^^^ other).getLsbD (i - 1)) =
      ((if i = 0 then bit else state.getLsbD (i - 1)) ^^
        (if i = 0 then bit' else other.getLsbD (i - 1))) := by
    split_ifs with hZero
    · rfl
    · exact BitVec.getLsbD_xor
  rw [BitVec.getLsbD_xor, getLsbD_step poly _ _ hi, getLsbD_step poly _ _ hi,
    getLsbD_step poly _ _ hi, hIn, BitVec.getLsbD_xor, Bool.and_xor_distrib_right]
  simp only [Bool.xor_assoc, Bool.xor_left_comm]

/-- The difference of two runs is the run of the difference. -/
theorem run_xor {first second : List Bool} (h : first.length = second.length) :
    run poly (state ^^^ other) (List.zipWith xor first second) =
      run poly state first ^^^ run poly other second := by
  induction first generalizing second state other with
  | nil =>
      obtain rfl := List.eq_nil_of_length_eq_zero h.symm
      rfl
  | cons bit first ih =>
      obtain ⟨bit', second, rfl⟩ := List.exists_cons_of_length_eq_add_one h.symm
      rw [List.zipWith_cons_cons, run_cons, run_cons, run_cons, step_xor]
      exact ih _ _ (Nat.succ.inj h)

theorem step_zero : step poly 0#w false = 0#w := by
  refine BitVec.eq_of_getLsbD_eq fun i hi => ?_
  rw [getLsbD_step poly _ _ hi]
  simp

theorem run_zero (n : Nat) : run poly 0#w (List.replicate n false) = 0#w := by
  induction n with
  | zero => rfl
  | succ n ih => rw [List.replicate_succ, run_cons, step_zero, ih]

end Linear

section Injective

variable {poly}

/-- With a constant term in the polynomial, the state before can be told from the next one. -/
theorem step_injective (hPoly : poly.getLsbD 0 = true) (bit : Bool) :
    Function.Injective (step poly · bit) := by
  intro state other h
  have hPos : 0 < w := by
    rcases Nat.eq_zero_or_pos w with rfl | hPos
    · simp at hPoly
    · exact hPos
  have hNext {i : Nat} (hi : i < w) :
      (step poly state bit).getLsbD i = (step poly other bit).getLsbD i :=
    congrArg (fun s => s.getLsbD i) h
  have hTop : state.getLsbD (w - 1) = other.getLsbD (w - 1) := by
    have hBit := hNext hPos
    rw [getLsbD_step poly _ _ hPos, getLsbD_step poly _ _ hPos, hPoly] at hBit
    simpa using hBit
  refine BitVec.eq_of_getLsbD_eq fun i hi => ?_
  rcases Nat.lt_or_eq_of_le (Nat.le_sub_one_of_lt hi) with hLow | rfl
  · have hHigher : i + 1 < w := by omega
    have hBit := hNext hHigher
    rw [getLsbD_step poly _ _ hHigher, getLsbD_step poly _ _ hHigher, hTop] at hBit
    simpa using hBit
  · exact hTop

theorem run_injective (hPoly : poly.getLsbD 0 = true) (bits : List Bool) :
    Function.Injective (run poly · bits) := by
  induction bits with
  | nil => exact fun _ _ h => h
  | cons bit bits ih => exact fun _ _ h => step_injective hPoly bit (ih h)

end Injective

section Bursts

/-- Bits that fit into the register are what it holds, the last one lowest. -/
theorem getLsbD_run_zero {bits : List Bool} (hLength : bits.length ≤ w) {i : Nat} (hi : i < w) :
    (run poly 0#w bits).getLsbD i = bits.reverse.getD i false := by
  induction bits using List.reverseRecOn generalizing i with
  | nil => simp
  | append_singleton bits bit ih =>
      rw [List.length_append, List.length_singleton] at hLength
      have hNone : (run poly 0#w bits).getLsbD (w - 1) = false := by
        rw [ih (by omega) (by omega)]
        exact List.getD_eq_default _ _ (by rw [List.length_reverse]; omega)
      rw [run_append, run_cons, run_nil, getLsbD_step poly _ _ hi, hNone, List.reverse_append,
        List.reverse_singleton, List.singleton_append, Bool.false_and, Bool.xor_false]
      cases i with
      | zero => simp
      | succ i => simpa using ih (by omega) (by omega)

/-- Different bits that fit into the register can be told apart afterwards. -/
theorem run_bits_injective {first second : List Bool} (hLength : first.length = second.length)
    (hFits : first.length ≤ w) (h : run poly state first = run poly state second) :
    first = second := by
  have hXor := run_xor poly state state hLength
  rw [h, BitVec.xor_self, BitVec.xor_self] at hXor
  have hFlips : (List.zipWith xor first second).length = first.length := by simp [hLength]
  refine List.ext_getElem hLength fun i hi hi' => ?_
  have hBit := getLsbD_run_zero poly (hFlips.symm ▸ hFits)
    (by omega : first.length - 1 - i < w)
  have hPlace : first.length - 1 - (first.length - 1 - i) = i := by omega
  rw [hXor, BitVec.getLsbD_zero, List.getD_eq_getElem _ _ (by simp [hLength]; omega),
    List.getElem_reverse, List.getElem_zipWith] at hBit
  simp only [hFlips, hPlace] at hBit
  simpa using hBit.symm

/-- A one with the bits of the polynomial behind it leaves nothing, and no other bits do. -/
theorem run_one_eq_zero_iff {bits : List Bool} (hLength : bits.length = w) :
    run poly 0#w (true :: bits) = 0#w ↔ ∀ i < w, bits.reverse.getD i false = poly.getLsbD i := by
  rcases Nat.eq_zero_or_pos w with rfl | hPos
  · exact iff_of_true (BitVec.eq_of_zero_length rfl) fun i hi => absurd hi (Nat.not_lt_zero i)
  have hFull : run poly 0#w (true :: List.replicate w false) = poly := by
    obtain ⟨n, rfl⟩ : ∃ n, w = n + 1 := ⟨w - 1, by omega⟩
    have hRest (i : Nat) (hi : i < n + 1) :
        (run poly 0#(n + 1) (true :: List.replicate n false)).getLsbD i = decide (i = n) := by
      rw [getLsbD_run_zero poly (by simp) hi]
      rcases Nat.lt_or_eq_of_le (Nat.le_of_lt_succ hi) with hLow | rfl
      · simp [List.getD, List.getElem?_append, hLow, Nat.ne_of_lt hLow]
      · simp [List.getD]
    rw [List.replicate_succ', ← List.cons_append, run_append, run_cons, run_nil]
    refine BitVec.eq_of_getLsbD_eq fun i hi => ?_
    rw [getLsbD_step poly _ _ hi, Nat.add_sub_cancel, hRest n (Nat.lt_succ_self n)]
    rcases Nat.eq_zero_or_pos i with rfl | hi'
    · simp
    · have hNe : i ≠ 0 := Nat.ne_of_gt hi'
      have hLow : i - 1 ≠ n := by omega
      rw [if_neg hNe, hRest (i - 1) (by omega), decide_eq_false hLow]
      simp
  have hZip : List.zipWith xor (true :: List.replicate w false) (false :: bits) = true :: bits := by
    rw [List.zipWith_cons_cons, ← hLength]
    congr 1
    refine List.ext_getElem (by simp) fun i hi hi' => ?_
    simp
  have hSplit : run poly 0#w (true :: bits) = poly ^^^ run poly 0#w bits := by
    have hSame : (true :: List.replicate w false).length = (false :: bits).length := by
      simp [hLength]
    have hRun := run_xor poly 0#w 0#w hSame
    rwa [BitVec.xor_self, hZip, hFull, run_cons poly _ false, step_zero] at hRun
  rw [hSplit, BitVec.xor_eq_zero_iff]
  constructor
  · intro h i hi
    rw [← getLsbD_run_zero poly (Nat.le_of_eq hLength) hi, ← h]
  · intro h
    refine BitVec.eq_of_getLsbD_eq fun i hi => ?_
    rw [getLsbD_run_zero poly (Nat.le_of_eq hLength) hi, h i hi]

variable {poly}

/-- Bits without a one outside a window, with the window cut out. -/
theorem eq_window {bits : List Bool} {first width : Nat} (hEnd : first + width ≤ bits.length)
    (hBurst : ∀ p, bits.getD p false = true → first ≤ p ∧ p < first + width) :
    bits = List.replicate first false ++ ((bits.drop first).take width ++
      List.replicate (bits.length - (first + width)) false) := by
  have hOther {p : Nat} (h : ¬ (first ≤ p ∧ p < first + width)) (hp : p < bits.length) :
      bits[p] = false := by
    by_contra hTrue
    refine h (hBurst p ?_)
    rw [List.getD_eq_getElem _ _ hp]
    exact Bool.of_not_eq_false hTrue
  have hFront : bits.take first = List.replicate first false := by
    refine List.ext_getElem (by simp; omega) fun p hp hp' => ?_
    rw [List.length_replicate] at hp'
    rw [List.getElem_take, List.getElem_replicate, hOther (by omega)]
  have hBack : (bits.drop first).drop width =
      List.replicate (bits.length - (first + width)) false := by
    rw [List.drop_drop]
    refine List.ext_getElem (by simp) fun p hp hp' => ?_
    rw [List.getElem_drop, List.getElem_replicate, hOther (by omega)]
  rw [← hBack, List.take_append_drop, ← hFront, List.take_append_drop]

/-- **Bursts.** Flipped bits that are at most the width of the register apart leave no trace
exactly if they are where the polynomial has its ones. -/
theorem run_eq_zero_iff_of_burst (hPoly : poly.getLsbD 0 = true) {bits : List Bool} {first : Nat}
    (hEnd : first + w < bits.length) (hFirst : bits.getD first false = true)
    (hBurst : ∀ p, bits.getD p false = true → first ≤ p ∧ p ≤ first + w) :
    run poly 0#w bits = 0#w ↔
      ∀ i < w, bits.getD (first + w - i) false = poly.getLsbD i := by
  let rest := (bits.drop (first + 1)).take w
  let zeros := List.replicate (bits.length - (first + (w + 1))) false
  have hHead : bits[first] = true := by rwa [List.getD_eq_getElem _ _ (by omega)] at hFirst
  have hWindow : (bits.drop first).take (w + 1) = true :: rest := by
    rw [← List.getElem_cons_drop (by omega : first < bits.length), hHead, List.take_succ_cons]
  have hSplit : bits = List.replicate first false ++ ((true :: rest) ++ zeros) := by
    have hInside (p : Nat) (hp : bits.getD p false = true) : first ≤ p ∧ p < first + (w + 1) :=
      ⟨(hBurst p hp).1, Nat.lt_succ_of_le (hBurst p hp).2⟩
    have hCut := eq_window hEnd hInside
    rwa [hWindow] at hCut
  have hRest : rest.length = w := by
    rw [List.length_take, List.length_drop]
    omega
  have hRun : run poly 0#w bits = run poly (run poly 0#w (true :: rest)) zeros := by
    refine (congrArg (run poly 0#w) hSplit).trans ?_
    rw [run_append, run_zero, run_append]
  have hZeros := (run_injective hPoly zeros).eq_iff (a := run poly 0#w (true :: rest)) (b := 0#w)
  rw [run_zero] at hZeros
  rw [hRun, hZeros, run_one_eq_zero_iff poly hRest]
  refine forall₂_congr fun i hi => ?_
  have hPlace : first + 1 + (w - 1 - i) = first + w - i := by omega
  have hReverse : rest.reverse.getD i false = bits.getD (first + w - i) false := by
    rw [List.getD_eq_getElem _ _ (by rwa [List.length_reverse, hRest]), List.getElem_reverse,
      List.getElem_take, List.getElem_drop, List.getD_eq_getElem _ _ (by omega)]
    simp only [hRest, hPlace]
  rw [hReverse]

end Bursts

end Semantics.ShiftRegister
