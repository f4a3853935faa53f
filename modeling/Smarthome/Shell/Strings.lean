import Smarthome.Semantics.Words

/-! The functions of the C library that the shell takes its arguments apart with, on strings
as lists of their characters, without the zero at the end. -/
namespace Smarthome.Shell

open Semantics

abbrev Text := List Char

/-- `isspace`. -/
def isspace (c : Char) : Bool := c == ' ' || ('\t' ≤ c && c ≤ '\r')

/-- `strtok` with a blank, for the string that is given or left: a word and what is left. -/
def strtok (s : Text) : Option (Text × Text) := nextWord (· == ' ') s

/-- `!strncmp(s, start, strlen(start))`. -/
def startsWith (start s : Text) : Bool := start.isPrefixOf s

/-- What a letter or a figure counts as a digit. -/
def digitValue (c : Char) : Option Nat :=
  if '0' ≤ c ∧ c ≤ '9' then some (c.toNat - '0'.toNat)
  else if 'a' ≤ c ∧ c ≤ 'z' then some (c.toNat - 'a'.toNat + 10)
  else if 'A' ≤ c ∧ c ≤ 'Z' then some (c.toNat - 'A'.toNat + 10)
  else none

def isDigit (base : Nat) (c : Char) : Bool := (digitValue c).any (· < base)

/-- The number that digits stand for. -/
def number (base : Nat) (digits : Text) : Nat :=
  digits.foldl (fun n c => base * n + (digitValue c).getD 0) 0

/-- `LONG_MAX`; a `long` has 32 bits. -/
def longMax : Int := 0x7FFFFFFF

def longMin : Int := -0x80000000

/-- What `strtol` returns, whether it sets `errno` to `ERANGE`, and `*endptr`. -/
structure Strtol where
  value : Int
  erange : Bool
  endptr : Text
  deriving DecidableEq

/-- A sign is read, and whether it is a minus. -/
def splitSign : Text → Bool × Text
  | '-' :: s => (true, s)
  | '+' :: s => (false, s)
  | s => (false, s)

/-- In base 16 the digits may be announced by `0x`. -/
def skipPrefix (base : Nat) : Text → Text
  | '0' :: x :: c :: s =>
      if base = 16 ∧ (x = 'x' ∨ x = 'X') ∧ isDigit base c then c :: s else '0' :: x :: c :: s
  | s => s

/-- A value that does not fit is replaced by the nearest one. -/
def clampLong (value : Int) (endptr : Text) : Strtol :=
  if longMax < value then ⟨longMax, true, endptr⟩
  else if value < longMin then ⟨longMin, true, endptr⟩
  else ⟨value, false, endptr⟩

/-- `strtol`: blanks, a sign, perhaps `0x`, and as many digits as there are. -/
def strtol (s : Text) (base : Nat) : Strtol :=
  let (isNegative, unsigned) := splitSign (s.dropWhile isspace)
  let digits := skipPrefix base unsigned
  let subject := digits.takeWhile (isDigit base)
  if subject = [] then ⟨0, false, s⟩
  else
    clampLong (if isNegative then -(number base subject : Int) else number base subject)
      (digits.dropWhile (isDigit base))

@[simp] theorem clampLong_endptr (value : Int) (endptr : Text) :
    (clampLong value endptr).endptr = endptr := by
  unfold clampLong
  split_ifs <;> rfl

/-- Signs of numerals. -/
inductive IsSign : Text → Bool → Prop where
  | none : IsSign [] false
  | plus : IsSign ['+'] false
  | minus : IsSign ['-'] true

/-- What may announce the digits of a numeral. -/
inductive IsPrefix (base : Nat) : Text → Prop where
  | none : IsPrefix base []
  | lower (h : base = 16) : IsPrefix base ['0', 'x']
  | upper (h : base = 16) : IsPrefix base ['0', 'X']

/-- A numeral of an integer: digits, with a sign or without one. -/
def IsNumeral (base : Nat) (s : Text) (n : Int) : Prop :=
  ∃ sign isNegative announced digits, s = sign ++ (announced ++ digits) ∧ IsSign sign isNegative ∧
    IsPrefix base announced ∧ digits ≠ [] ∧ (∀ c ∈ digits, isDigit base c = true) ∧
    n = if isNegative then -(number base digits : Int) else number base digits

section Characters

variable {base : Nat} {c : Char}

theorem toNat_le_of_le {a b : Char} (h : a ≤ b) : a.toNat ≤ b.toNat := h

/-- Digits come after all blanks and signs. -/
theorem toNat_of_isDigit (h : isDigit base c = true) : 48 ≤ c.toNat := by
  unfold isDigit digitValue at h
  split_ifs at h with hFigure hLower hUpper
  · exact toNat_le_of_le hFigure.1
  · exact le_trans (by decide) (toNat_le_of_le hLower.1)
  · exact le_trans (by decide) (toNat_le_of_le hUpper.1)
  · exact absurd h Bool.false_ne_true

theorem toNat_of_isspace (h : isspace c = true) : c.toNat ≤ 32 := by
  rw [isspace, Bool.or_eq_true, Bool.and_eq_true] at h
  rcases h with hBlank | hControl
  · rw [beq_iff_eq.mp hBlank]
    decide
  · exact le_trans (toNat_le_of_le (of_decide_eq_true hControl.2)) (by decide)

/-- The sign of the base is no digit of it. -/
theorem ne_x_of_isDigit (hBase : base ≤ 16) (h : isDigit base c = true) : ¬ (c = 'x' ∨ c = 'X') := by
  have hValue {x : Char} (hx : digitValue x = some 33) (hc : c = x) : False := by
    rw [hc, isDigit, hx] at h
    have hSmall := of_decide_eq_true h
    omega
  rintro (hc | hc)
  · exact hValue (by decide) hc
  · exact hValue (by decide) hc

end Characters

theorem splitSign_append {sign : Text} {isNegative : Bool} (hSign : IsSign sign isNegative)
    {c : Char} (hPlus : c ≠ '+') (hMinus : c ≠ '-') (s : Text) :
    splitSign (sign ++ c :: s) = (isNegative, c :: s) := by
  cases hSign with
  | none =>
      rw [List.nil_append]
      unfold splitSign
      split
      · rename_i hCons
        exact absurd (List.cons.inj hCons).1 hMinus
      · rename_i hCons
        exact absurd (List.cons.inj hCons).1 hPlus
      · rfl
  | plus => rfl
  | minus => rfl

theorem splitSign_spec (s : Text) :
    ∃ sign, IsSign sign (splitSign s).1 ∧ s = sign ++ (splitSign s).2 := by
  unfold splitSign
  split
  · exact ⟨['-'], .minus, rfl⟩
  · exact ⟨['+'], .plus, rfl⟩
  · exact ⟨[], .none, rfl⟩

section Digits

variable {base : Nat}

theorem skipPrefix_append {announced digits : Text} (hBase : base ≤ 16)
    (hPrefix : IsPrefix base announced) (hSome : digits ≠ [])
    (hDigits : ∀ c ∈ digits, isDigit base c = true) :
    skipPrefix base (announced ++ digits) = digits := by
  obtain ⟨c, later, rfl⟩ := List.exists_cons_of_ne_nil hSome
  have hFirst := hDigits c List.mem_cons_self
  cases hPrefix with
  | none =>
      rw [List.nil_append]
      unfold skipPrefix
      split
      · rename_i x d rest hCons
        have hx : isDigit base x = true := hDigits x (by rw [hCons]; simp)
        rw [if_neg fun h => ne_x_of_isDigit hBase hx h.2.1, hCons]
      · rfl
  | lower h => exact if_pos ⟨h, Or.inl rfl, hFirst⟩
  | upper h => exact if_pos ⟨h, Or.inr rfl, hFirst⟩

variable (base) in
theorem skipPrefix_spec (s : Text) :
    ∃ announced, IsPrefix base announced ∧ s = announced ++ skipPrefix base s := by
  unfold skipPrefix
  split
  · split_ifs with h
    · obtain ⟨hBase, rfl | rfl, -⟩ := h
      · exact ⟨['0', 'x'], .lower hBase, rfl⟩
      · exact ⟨['0', 'X'], .upper hBase, rfl⟩
    · exact ⟨[], .none, rfl⟩
  · exact ⟨[], .none, rfl⟩

/-- The first character after the sign is a figure or a letter. -/
theorem exists_cons_of_isPrefix {announced digits : Text} (hPrefix : IsPrefix base announced)
    (hSome : digits ≠ []) (hDigits : ∀ c ∈ digits, isDigit base c = true) :
    ∃ c later, announced ++ digits = c :: later ∧ 48 ≤ c.toNat := by
  cases hPrefix with
  | none =>
      obtain ⟨c, later, rfl⟩ := List.exists_cons_of_ne_nil hSome
      exact ⟨c, later, rfl, toNat_of_isDigit (hDigits c List.mem_cons_self)⟩
  | lower h => exact ⟨'0', 'x' :: digits, rfl, by decide⟩
  | upper h => exact ⟨'0', 'X' :: digits, rfl, by decide⟩

theorem isspace_of_le {c : Char} (h : 48 ≤ c.toNat) : isspace c = false := by
  cases hSpace : isspace c with
  | false => rfl
  | true =>
      have hLow := toNat_of_isspace hSpace
      omega

/-- No numeral is empty or starts with a blank. -/
theorem IsNumeral.head {s : Text} {n : Int} (h : IsNumeral base s n) :
    ∃ c later, s = c :: later ∧ isspace c = false := by
  obtain ⟨sign, isNegative, announced, digits, rfl, hSign, hPrefix, hSome, hDigits, -⟩ := h
  obtain ⟨c, later, hCons, hFigure⟩ := exists_cons_of_isPrefix hPrefix hSome hDigits
  rw [hCons]
  cases hSign with
  | none => exact ⟨c, later, rfl, isspace_of_le hFigure⟩
  | plus => exact ⟨'+', c :: later, rfl, by decide⟩
  | minus => exact ⟨'-', c :: later, rfl, by decide⟩

/-- A numeral is read to its end. -/
theorem strtol_of_isNumeral (hBase : base ≤ 16) {s : Text} {n : Int} (h : IsNumeral base s n) :
    strtol s base = clampLong n [] := by
  obtain ⟨first, rest, hFirst, hNoSpace⟩ := h.head
  have hBlanks : s.dropWhile isspace = s := by
    rw [hFirst, List.dropWhile_cons_of_neg (by simp [hNoSpace])]
  obtain ⟨sign, isNegative, announced, digits, hText, hSign, hPrefix, hSome, hDigits, rfl⟩ := h
  obtain ⟨c, later, hCons, hFigure⟩ := exists_cons_of_isPrefix hPrefix hSome hDigits
  have hPlus : c ≠ '+' := by
    rintro rfl
    exact absurd hFigure (by decide)
  have hMinus : c ≠ '-' := by
    rintro rfl
    exact absurd hFigure (by decide)
  have hSplit : splitSign s = (isNegative, announced ++ digits) := by
    rw [hText, hCons]
    exact splitSign_append hSign hPlus hMinus later
  have hTake : digits.takeWhile (isDigit base) = digits := List.takeWhile_eq_self_iff.mpr hDigits
  have hDrop : digits.dropWhile (isDigit base) = [] := List.dropWhile_eq_nil_iff.mpr hDigits
  unfold strtol
  rw [hBlanks, hSplit]
  dsimp only
  rw [skipPrefix_append hBase hPrefix hSome hDigits, hTake, hDrop, if_neg hSome]

/-- What is read to its end is a numeral. -/
theorem exists_isNumeral_of_strtol {c : Char} {later : Text} (hNoSpace : isspace c = false)
    (hEnd : (strtol (c :: later) base).endptr = []) :
    ∃ n, IsNumeral base (c :: later) n ∧ strtol (c :: later) base = clampLong n [] := by
  have hBlanks : (c :: later).dropWhile isspace = c :: later :=
    List.dropWhile_cons_of_neg (by simp [hNoSpace])
  obtain ⟨sign, hSign, hText⟩ := splitSign_spec (c :: later)
  obtain ⟨announced, hPrefix, hRest⟩ := skipPrefix_spec base (splitSign (c :: later)).2
  unfold strtol at hEnd ⊢
  rw [hBlanks] at hEnd ⊢
  dsimp only at hEnd ⊢
  generalize skipPrefix base (splitSign (c :: later)).2 = digits at hRest hEnd ⊢
  by_cases hNone : digits.takeWhile (isDigit base) = []
  · rw [if_pos hNone] at hEnd
    cases hEnd
  · rw [if_neg hNone, clampLong_endptr] at hEnd
    rw [if_neg hNone]
    have hDigits := List.dropWhile_eq_nil_iff.mp hEnd
    have hTake : digits.takeWhile (isDigit base) = digits := List.takeWhile_eq_self_iff.mpr hDigits
    rw [hTake] at hNone ⊢
    rw [hEnd]
    refine ⟨_, ⟨sign, _, announced, digits, ?_, hSign, hPrefix, hNone, hDigits, rfl⟩, rfl⟩
    rw [← hRest]
    exact hText

end Digits

end Smarthome.Shell
