import Smarthome.Shell.Strings
import Mathlib.Logic.Function.Basic

/-! The commands of `shell-unwired.c` for the channel and the PAN id of the radio, and the
one that tests the reading of numbers. -/
namespace Smarthome.Shell

open Semantics

/-- What is in an array of pointers to the arguments. -/
inductive ArgPointer where
  | unset
  | null
  | to (s : Text)
  deriving DecidableEq

abbrev ArgArray := Nat → ArgPointer

/-- A pointer that leads to no string has been followed. -/
inductive PointerFault where
  | unset
  | null
  deriving DecidableEq

def deref : ArgPointer → Except PointerFault Text
  | .unset => .error .unset
  | .null => .error .null
  | .to s => .ok s

/-- What `strtok` returns, and what it goes on with. -/
def strtokArg (s : Text) : ArgPointer × Text :=
  match strtok s with
  | none => (.null, [])
  | some (word, rest) => (.to word, rest)

/-- The loop of `parse_args`, `more` passes before `i` is `max_args`. -/
def parseArgsLoop : Nat → Nat → Text → ArgArray → Nat × ArgArray
  | 0, i, _, args => (i, args)
  | more + 1, i, rest, args =>
      if args i = .null then (i, args)
      else
        parseArgsLoop more (i + 1) (strtokArg rest).2
          (Function.update args (i + 1) (strtokArg rest).1)

def parseArgs (argsString : Text) (args : ArgArray) (maxArgs : Nat) : Nat × ArgArray :=
  parseArgsLoop maxArgs 0 (strtokArg argsString).2
    (Function.update args 0 (strtokArg argsString).1)

/-- `str2int_errno_t`. -/
inductive Str2intErrno where
  | success
  | overflow
  | underflow
  | inconvertible
  deriving DecidableEq

/-- The three functions that read a number, with what they leave in `out`. -/
def str2uint (base limit out : Nat) (s : Text) : Str2intErrno × Nat :=
  if s.head?.all isspace then (.inconvertible, out)
  else
    let l := strtol s base
    if l.value > limit ∨ (l.erange = true ∧ l.value = longMax) then (.overflow, out)
    else if l.value < 0 ∨ (l.erange = true ∧ l.value = longMin) then (.underflow, out)
    else if l.endptr ≠ [] then (.inconvertible, out)
    else (.success, l.value.toNat)

def hexStr2uint16 : Nat → Text → Str2intErrno × Nat := str2uint 16 0xFFFF
def decStr2uint8 : Nat → Text → Str2intErrno × Nat := str2uint 10 255

/-- `ChipFamily_t`. -/
inductive ChipFamily where
  | unknown
  | cc26xx
  | cc13xx
  | cc26xxLiz
  | cc26xxAga
  | cc26xxR2
  deriving DecidableEq

/-- `RADIO_PARAM_CHANNEL` and `RADIO_PARAM_PAN_ID` of the radio, and `mac_pan_id`. -/
structure RadioSettings where
  channel : Nat
  panId : Nat
  macPanId : Nat
  deriving DecidableEq

/-- The branch `set` of `unwired_shell_channel_process`, with the second argument. -/
def channelSet (chip : ChipFamily) (second : Text) (settings : RadioSettings) : RadioSettings :=
  let (status, channel) := decStr2uint8 0 second
  if status ≠ .success then settings
  else if chip = .cc26xx then
    if channel > 26 ∨ channel < 11 then settings else { settings with channel }
  else if chip = .cc13xx then
    if channel > 33 ∨ channel < 0 then settings
    else if channel = 30 ∨ channel = 29 then { settings with channel }
    else settings
  else settings

/-- `unwired_shell_channel_process`. What it prints is left out, and with it `get`. -/
def unwiredShellChannel (chip : ChipFamily) (data : Text) (settings : RadioSettings) :
    Except PointerFault RadioSettings :=
  let (argc, args) := parseArgs data (fun _ => .unset) 2
  if argc < 1 then return settings
  else do
    let first ← deref (args 0)
    if startsWith ['s', 'e', 't'] first then
      let second ← deref (args 1)
      return channelSet chip second settings
    else return settings

/-- The branch `set` of `unwired_shell_panid_process`, which may leave the process. -/
def panidSet (chip : ChipFamily) (first : Text) (settings : RadioSettings) : Option RadioSettings :=
  if chip = .cc26xx then
    let (status, panid) := hexStr2uint16 0 first
    if status ≠ .success then none else some { settings with panId := panid }
  else some { settings with macPanId := 0xAAA }

/-- What `unwired_shell_panid_process` does with its first argument; it reads the number there. -/
def panidChange (chip : ChipFamily) (first : Text) (settings : RadioSettings) : RadioSettings :=
  match if startsWith ['s', 'e', 't'] first then panidSet chip first settings else some settings with
  | none => settings
  | some settings =>
      if startsWith ['a', 'a', 'a'] first then { settings with macPanId := 0xAAA } else settings

def unwiredShellPanid (chip : ChipFamily) (data : Text) (settings : RadioSettings) :
    Except PointerFault RadioSettings :=
  let (argc, args) := parseArgs data (fun _ => .unset) 2
  if argc < 1 then return settings
  else do
    let first ← deref (args 0)
    return panidChange chip first settings

/-- `unwired_shell_test_process`, with the status and the value that it prints. -/
def unwiredShellTest (data : Text) : Except PointerFault (Str2intErrno × Nat) :=
  let (_, args) := parseArgs data (fun _ => .unset) 1
  do
    let first ← deref (args 0)
    return hexStr2uint16 0 first

/-! The arguments are the words of the string, as far as there is room for them. -/

/-- The words between the blanks. -/
def argWords (data : Text) : List Text := words (· == ' ') data

/-- A pointer to a word, or `NULL` behind the last one. -/
def pointerTo : Option Text → ArgPointer
  | some word => .to word
  | none => .null

/-- The array is filled up to `i`, and `strtok` goes on with the rest. -/
structure Parsed (list : List Text) (before : ArgArray) (i : Nat) (rest : Text)
    (args : ArgArray) : Prop where
  filled : ∀ j ≤ i, args j = pointerTo list[j]?
  kept : ∀ j, i < j → args j = before j
  le_length : i ≤ list.length
  rest_words : argWords rest = list.drop (i + 1)

section ParseArgs

variable {list : List Text} {before args : ArgArray} {i : Nat} {rest : Text}

theorem strtokArg_spec {s : Text} :
    (strtokArg s).1 = pointerTo (argWords s).head? ∧ argWords (strtokArg s).2 = (argWords s).tail := by
  unfold strtokArg
  cases hNext : strtok s with
  | none =>
      have hWords : argWords s = [] := nextWord_eq_none.mp hNext
      rw [hWords]
      exact ⟨rfl, rfl⟩
  | some next =>
      have hWords : argWords s = next.1 :: argWords next.2 := words_of_nextWord hNext
      rw [hWords]
      exact ⟨rfl, rfl⟩

/-- One more word. -/
theorem Parsed.next (h : Parsed list before i rest args) (hMore : i < list.length) :
    Parsed list before (i + 1) (strtokArg rest).2
      (Function.update args (i + 1) (strtokArg rest).1) := by
  obtain ⟨hPointer, hRest⟩ := strtokArg_spec (s := rest)
  rw [h.rest_words] at hPointer hRest
  constructor
  · intro j hj
    rcases Nat.lt_or_eq_of_le hj with hBefore | rfl
    · rw [Function.update_of_ne hBefore.ne]
      exact h.filled j (Nat.le_of_lt_succ hBefore)
    · rw [Function.update_self, hPointer, List.head?_drop]
  · intro j hj
    rw [Function.update_of_ne hj.ne']
    exact h.kept j (Nat.lt_of_succ_lt hj)
  · exact hMore
  · rw [hRest, List.tail_drop]

theorem parseArgsLoop_spec (more : Nat) (h : Parsed list before i rest args) :
    (parseArgsLoop more i rest args).1 = min (i + more) list.length ∧
      ∃ rest', Parsed list before (min (i + more) list.length) rest'
        (parseArgsLoop more i rest args).2 := by
  induction more generalizing i rest args with
  | zero =>
      rw [Nat.add_zero, Nat.min_eq_left h.le_length]
      exact ⟨rfl, rest, h⟩
  | succ more ih =>
      rw [parseArgsLoop]
      have hPointer := h.filled i le_rfl
      by_cases hMore : i < list.length
      · have hSome : args i ≠ .null := by
          rw [hPointer, List.getElem?_eq_getElem hMore]
          exact ArgPointer.noConfusion
        have hSum : i + (more + 1) = i + 1 + more := by omega
        rw [if_neg hSome, hSum]
        exact ih (h.next hMore)
      · have hNull : args i = .null := by
          rw [hPointer, List.getElem?_eq_none (Nat.not_lt.mp hMore)]
          rfl
        have hEnd : min (i + (more + 1)) list.length = i := by
          have hLe := h.le_length
          omega
        rw [if_pos hNull, hEnd]
        exact ⟨rfl, rest, h⟩

/-- `parse_args` counts the words up to `max_args`, and writes a pointer to each of them and
to the one behind them. -/
theorem parseArgs_spec (argsString : Text) (args : ArgArray) (maxArgs : Nat) :
    (parseArgs argsString args maxArgs).1 = min maxArgs (argWords argsString).length ∧
      (∀ j ≤ min maxArgs (argWords argsString).length,
        (parseArgs argsString args maxArgs).2 j = pointerTo (argWords argsString)[j]?) ∧
      ∀ j, min maxArgs (argWords argsString).length < j →
        (parseArgs argsString args maxArgs).2 j = args j := by
  obtain ⟨hPointer, hRest⟩ := strtokArg_spec (s := argsString)
  have hFirst : Parsed (argWords argsString) args 0 (strtokArg argsString).2
      (Function.update args 0 (strtokArg argsString).1) := by
    refine ⟨fun j hj => ?_, fun j hj => Function.update_of_ne hj.ne' _ _, Nat.zero_le _, ?_⟩
    · obtain rfl := Nat.le_zero.mp hj
      rw [Function.update_self, hPointer, List.head?_eq_getElem?]
    · rw [hRest, List.drop_one]
  obtain ⟨hCount, rest, hParsed⟩ := parseArgsLoop_spec maxArgs hFirst
  rw [Nat.zero_add] at hCount hParsed
  exact ⟨hCount, hParsed.filled, hParsed.kept⟩

/-- Nothing is written behind the last place of the array. -/
theorem parseArgs_kept (argsString : Text) (args : ArgArray) {maxArgs j : Nat} (h : maxArgs < j) :
    (parseArgs argsString args maxArgs).2 j = args j :=
  (parseArgs_spec argsString args maxArgs).2.2 j (Nat.lt_of_le_of_lt (Nat.min_le_left ..) h)

/-- Without words there are no arguments. -/
theorem parseArgs_nil {argsString : Text} (h : argWords argsString = []) (args : ArgArray)
    (maxArgs : Nat) : (parseArgs argsString args maxArgs).1 = 0 ∧
      (parseArgs argsString args maxArgs).2 0 = .null := by
  obtain ⟨hCount, hFilled, -⟩ := parseArgs_spec argsString args maxArgs
  rw [h] at hCount hFilled
  exact ⟨by simpa using hCount, hFilled 0 (Nat.zero_le _)⟩

/-- The first argument is the first word. -/
theorem parseArgs_first {argsString first : Text} {later : List Text}
    (h : argWords argsString = first :: later) (args : ArgArray) {maxArgs : Nat}
    (hMax : 1 ≤ maxArgs) : ¬ (parseArgs argsString args maxArgs).1 < 1 ∧
      (parseArgs argsString args maxArgs).2 0 = .to first := by
  obtain ⟨hCount, hFilled, -⟩ := parseArgs_spec argsString args maxArgs
  rw [h] at hCount hFilled
  refine ⟨?_, hFilled 0 (Nat.zero_le _)⟩
  rw [hCount, List.length_cons]
  omega

/-- The second argument is the second word, or `NULL`. -/
theorem parseArgs_second {argsString first : Text} {later : List Text}
    (h : argWords argsString = first :: later) (args : ArgArray) {maxArgs : Nat}
    (hMax : 1 ≤ maxArgs) :
    (parseArgs argsString args maxArgs).2 1 = pointerTo later.head? := by
  obtain ⟨-, hFilled, -⟩ := parseArgs_spec argsString args maxArgs
  rw [h, List.length_cons] at hFilled
  rw [hFilled 1 (by omega), List.getElem?_cons_succ, List.head?_eq_getElem?]

end ParseArgs

section Numbers

variable {base limit out : Nat} {s : Text}

/-- Numbers from 0 to the limit are read. -/
theorem str2uint_of_isNumeral (hBase : base ≤ 16) (hLimit : (limit : Int) < longMax) {n : Nat}
    (h : IsNumeral base s n) (hn : n ≤ limit) : str2uint base limit out s = (.success, n) := by
  obtain ⟨c, later, rfl, hNoSpace⟩ := h.head
  have hValue : strtol (c :: later) base = ⟨n, false, []⟩ := by
    have hMax : ¬ longMax < (n : Int) := by omega
    have hMin : ¬ (n : Int) < longMin := by
      unfold longMin
      omega
    rw [strtol_of_isNumeral hBase h, clampLong, if_neg hMax, if_neg hMin]
  have hHigh : ¬ ((n : Int) > limit ∨ (false = true ∧ (n : Int) = longMax)) := by
    simp
    omega
  have hLow : ¬ ((n : Int) < 0 ∨ (false = true ∧ (n : Int) = longMin)) := by
    simp
  unfold str2uint
  rw [hValue]
  dsimp only
  rw [if_neg hHigh, if_neg hLow, if_neg (not_not_intro rfl)]
  simp [hNoSpace]

/-- Nothing else is. -/
theorem exists_isNumeral_of_success (h : (str2uint base limit out s).1 = .success) :
    ∃ n : Nat, IsNumeral base s n ∧ n ≤ limit := by
  unfold str2uint at h
  dsimp only at h
  split_ifs at h with hBlank hHigh hLow hEnd
  push Not at hHigh hLow hEnd
  cases s with
  | nil => exact absurd rfl hBlank
  | cons c later =>
      have hNoSpace : isspace c = false := Bool.eq_false_iff.mpr hBlank
      obtain ⟨n, hNumeral, hValue⟩ := exists_isNumeral_of_strtol hNoSpace hEnd
      rw [hValue, clampLong] at hHigh hLow
      split_ifs at hHigh hLow with hMax hMin
      · exact absurd rfl (hHigh.2 rfl)
      · exact absurd rfl (hLow.2 rfl)
      · dsimp only at hHigh hLow
        refine ⟨n.toNat, ?_, by omega⟩
        have hSame : (n.toNat : Int) = n := by omega
        rw [hSame]
        exact hNumeral

/-- No number starts with a letter that is no digit. -/
theorem not_isNumeral_cons {c : Char} {later : Text} {n : Int} (hDigit : isDigit base c = false)
    (hLetter : '9' < c) : ¬ IsNumeral base (c :: later) n := by
  rintro ⟨sign, isNegative, announced, digits, hText, hSign, hPrefix, hSome, hDigits, -⟩
  cases hSign with
  | plus =>
      obtain rfl := (List.cons.inj hText).1
      exact absurd hLetter (by decide)
  | minus =>
      obtain rfl := (List.cons.inj hText).1
      exact absurd hLetter (by decide)
  | none =>
      cases hPrefix with
      | none =>
          have hMem : c ∈ digits := by
            rw [List.nil_append, List.nil_append] at hText
            rw [← hText]
            exact List.mem_cons_self
          rw [hDigits c hMem] at hDigit
          cases hDigit
      | lower h =>
          obtain rfl := (List.cons.inj hText).1
          exact absurd hLetter (by decide)
      | upper h =>
          obtain rfl := (List.cons.inj hText).1
          exact absurd hLetter (by decide)

end Numbers

/-! What the commands are for, in terms of the words they are given. -/

/-- The channels that may be used on a chip. -/
def AllowedChannel (chip : ChipFamily) (n : Nat) : Prop :=
  match chip with
  | .cc26xx => 11 ≤ n ∧ n ≤ 26
  | .cc13xx => n = 29 ∨ n = 30
  | _ => False

/-- The command `channel set s` with a numeral of an allowed channel. -/
def AsksForChannel (chip : ChipFamily) (data : Text) (n : Nat) : Prop :=
  ∃ s surplus, argWords data = ['s', 'e', 't'] :: s :: surplus ∧ IsNumeral 10 s n ∧
    AllowedChannel chip n

/-- The command `panid set s` with a numeral of a PAN id, on a chip that has one. -/
def AsksForPanId (chip : ChipFamily) (data : Text) (n : Nat) : Prop :=
  chip = .cc26xx ∧ ∃ s surplus, argWords data = ['s', 'e', 't'] :: s :: surplus ∧
    IsNumeral 16 s n ∧ n ≤ 0xFFFF

/-- The command follows no bad pointer, sets what it is asked for, and nothing if it is
asked for nothing. -/
def Obeys (asks : Nat → Prop) (assign : Nat → RadioSettings → RadioSettings)
    (command : RadioSettings → Except PointerFault RadioSettings) : Prop :=
  ∀ settings, ∃ after, command settings = .ok after ∧ (∀ n, asks n → after = assign n settings) ∧
    ((∀ n, ¬ asks n) → after = settings)

section Commands

variable {chip : ChipFamily} {data first : Text} {later : List Text}
  {settings : RadioSettings}

theorem unwiredShellChannel_nil (h : argWords data = []) :
    unwiredShellChannel chip data settings = .ok settings := by
  have hCount := (parseArgs_nil h (fun _ => .unset) 2).1
  unfold unwiredShellChannel
  dsimp only
  rw [if_pos (by rw [hCount]; decide)]
  rfl

theorem unwiredShellChannel_cons (h : argWords data = first :: later) :
    unwiredShellChannel chip data settings = if startsWith ['s', 'e', 't'] first then
      (deref (pointerTo later.head?)).map (channelSet chip · settings) else .ok settings := by
  obtain ⟨hCount, hFirst⟩ := parseArgs_first h (fun _ => .unset) (show 1 ≤ 2 by decide)
  have hSecond := parseArgs_second h (fun _ => .unset) (show 1 ≤ 2 by decide)
  unfold unwiredShellChannel
  dsimp only
  rw [if_neg hCount, hFirst, hSecond]
  rfl

theorem unwiredShellPanid_nil (h : argWords data = []) :
    unwiredShellPanid chip data settings = .ok settings := by
  have hCount := (parseArgs_nil h (fun _ => .unset) 2).1
  unfold unwiredShellPanid
  dsimp only
  rw [if_pos (by rw [hCount]; decide)]
  rfl

theorem unwiredShellPanid_cons (h : argWords data = first :: later) :
    unwiredShellPanid chip data settings = .ok (panidChange chip first settings) := by
  obtain ⟨hCount, hFirst⟩ := parseArgs_first h (fun _ => .unset) (show 1 ≤ 2 by decide)
  unfold unwiredShellPanid
  dsimp only
  rw [if_neg hCount, hFirst]
  rfl

theorem unwiredShellTest_eq :
    unwiredShellTest data = (deref (pointerTo (argWords data).head?)).map (hexStr2uint16 0) := by
  cases hWords : argWords data with
  | nil =>
      have hNull := (parseArgs_nil hWords (fun _ => .unset) 1).2
      unfold unwiredShellTest
      dsimp only
      rw [hNull]
      rfl
  | cons first later =>
      have hFirst := (parseArgs_first hWords (fun _ => .unset) le_rfl).2
      unfold unwiredShellTest
      dsimp only
      rw [hFirst]
      rfl

end Commands

section Effects

variable {chip : ChipFamily} {s : Text} {settings : RadioSettings}

theorem AllowedChannel.le {n : Nat} (h : AllowedChannel chip n) : n ≤ 30 := by
  unfold AllowedChannel at h
  split at h
  · omega
  · omega
  · exact h.elim

/-- With a number, the range of the chip decides. -/
theorem channelSet_of_isNumeral {n : Nat} (h : IsNumeral 10 s n) (hn : n ≤ 255) :
    (AllowedChannel chip n → channelSet chip s settings = { settings with channel := n }) ∧
      (¬ AllowedChannel chip n → channelSet chip s settings = settings) := by
  have hRead : decStr2uint8 0 s = (.success, n) := str2uint_of_isNumeral (by decide) (by decide) h hn
  unfold channelSet
  rw [hRead]
  cases chip with
  | cc26xx =>
      have hRange : AllowedChannel .cc26xx n ↔ ¬ (n > 26 ∨ n < 11) := by
        show 11 ≤ n ∧ n ≤ 26 ↔ _
        omega
      rw [hRange]
      exact ⟨fun hIn => if_neg hIn, fun hOut => if_pos (not_not.mp hOut)⟩
  | cc13xx =>
      have hRange : AllowedChannel .cc13xx n ↔ (n = 30 ∨ n = 29) := or_comm
      have hInside (hIn : n = 30 ∨ n = 29) : ¬ (n > 33 ∨ n < 0) := by omega
      rw [hRange]
      refine ⟨fun hIn => (if_neg (hInside hIn)).trans (if_pos hIn), fun hOut => ?_⟩
      by_cases hFar : n > 33 ∨ n < 0
      · exact if_pos hFar
      · exact (if_neg hFar).trans (if_neg hOut)
  | unknown => simp [AllowedChannel]
  | cc26xxLiz => simp [AllowedChannel]
  | cc26xxAga => simp [AllowedChannel]
  | cc26xxR2 => simp [AllowedChannel]

theorem channelSet_of_not_allowed (h : ∀ n : Nat, IsNumeral 10 s n → ¬ AllowedChannel chip n) :
    channelSet chip s settings = settings := by
  by_cases hRead : (decStr2uint8 0 s).1 = .success
  · obtain ⟨n, hNumeral, hn⟩ := exists_isNumeral_of_success hRead
    exact (channelSet_of_isNumeral hNumeral hn).2 (h n hNumeral)
  · unfold channelSet
    dsimp only
    rw [if_pos hRead]

theorem startsWith_iff {start first : Text} :
    startsWith start first = true ↔ ∃ rest, first = start ++ rest := by
  rw [startsWith, List.isPrefixOf_iff_prefix]
  constructor
  · rintro ⟨rest, rfl⟩
    exact ⟨rest, rfl⟩
  · rintro ⟨rest, rfl⟩
    exact ⟨rest, rfl⟩

/-- The word `set` is no number, and so the PAN id of the radio stays. -/
theorem panidChange_set (h : startsWith ['s', 'e', 't'] s = true) :
    panidChange chip s settings =
      if chip = .cc26xx then settings else { settings with macPanId := 0xAAA } := by
  obtain ⟨rest, rfl⟩ := startsWith_iff.mp h
  have hRead : (hexStr2uint16 0 (['s', 'e', 't'] ++ rest)).1 ≠ .success := by
    intro hSuccess
    obtain ⟨n, hNumeral, -⟩ := exists_isNumeral_of_success hSuccess
    exact not_isNumeral_cons (by decide) (by decide) hNumeral
  have hOther : startsWith ['a', 'a', 'a'] (['s', 'e', 't'] ++ rest) = false := rfl
  unfold panidChange panidSet
  dsimp only
  rw [if_pos h, if_pos hRead, hOther]
  by_cases hChip : chip = .cc26xx
  · rw [if_pos hChip, if_pos hChip]
  · rw [if_neg hChip, if_neg hChip]
    rfl

theorem panidChange_other (h : startsWith ['s', 'e', 't'] s = false) :
    panidChange chip s settings = if startsWith ['a', 'a', 'a'] s = true then
      { settings with macPanId := 0xAAA } else settings := by
  unfold panidChange
  rw [h]
  rfl

end Effects

/-- The channel is set as asked for: with `set` there is a second argument, and a longer word
than `set` comes without a number. -/
def ChannelCondition (chip : ChipFamily) (data : Text) : Prop :=
  ∀ first later, argWords data = first :: later → startsWith ['s', 'e', 't'] first = true →
    ∃ s surplus, later = s :: surplus ∧
      (first = ['s', 'e', 't'] ∨ ∀ n : Nat, IsNumeral 10 s n → ¬ AllowedChannel chip n)

/-- The PAN id is set as asked for: it is not asked for, and the first argument does not lead
to the constant either. -/
def PanidCondition (chip : ChipFamily) (data : Text) : Prop :=
  ∀ first later, argWords data = first :: later → startsWith ['a', 'a', 'a'] first = false ∧
    (startsWith ['s', 'e', 't'] first = true → chip = .cc26xx ∧
      (first = ['s', 'e', 't'] → ∀ s surplus, later = s :: surplus →
        ∀ n : Nat, IsNumeral 16 s n → ¬ n ≤ 0xFFFF))

section Conditions

variable {chip : ChipFamily} {data : Text}

theorem obeys_channel_iff :
    Obeys (AsksForChannel chip data) (fun channel settings => { settings with channel })
      (unwiredShellChannel chip data) ↔ ChannelCondition chip data := by
  constructor
  · intro hObeys first later hWords hStart
    cases later with
    | nil =>
        obtain ⟨after, hAfter, -⟩ := hObeys ⟨0, 0, 0⟩
        rw [unwiredShellChannel_cons hWords, if_pos hStart] at hAfter
        cases hAfter
    | cons s surplus =>
        refine ⟨s, surplus, rfl, ?_⟩
        by_cases hSet : first = ['s', 'e', 't']
        · exact Or.inl hSet
        · refine Or.inr fun n hNumeral hAllowed => ?_
          obtain ⟨after, hAfter, -, hKept⟩ := hObeys ⟨n + 1, 0, 0⟩
          have hNone : ∀ m, ¬ AsksForChannel chip data m := by
            rintro m ⟨other, rest, hOther, -⟩
            rw [hWords] at hOther
            exact hSet (List.cons.inj hOther).1
          have hLe : n ≤ 255 := le_trans hAllowed.le (by decide)
          rw [unwiredShellChannel_cons hWords, if_pos hStart, hKept hNone] at hAfter
          have hSame : channelSet chip s ⟨n + 1, 0, 0⟩ = ⟨n + 1, 0, 0⟩ := Except.ok.inj hAfter
          rw [(channelSet_of_isNumeral hNumeral hLe).1 hAllowed] at hSame
          exact absurd (congrArg RadioSettings.channel hSame) (Nat.succ_ne_self n).symm
  · intro hCondition settings
    cases hWords : argWords data with
    | nil =>
        refine ⟨settings, unwiredShellChannel_nil hWords, ?_, fun _ => rfl⟩
        rintro n ⟨s, surplus, hOther, -⟩
        rw [hWords] at hOther
        cases hOther
    | cons first later =>
        rw [unwiredShellChannel_cons hWords]
        by_cases hStart : startsWith ['s', 'e', 't'] first = true
        · obtain ⟨s, surplus, rfl, hFirst⟩ := hCondition first later hWords hStart
          rw [if_pos hStart]
          refine ⟨channelSet chip s settings, rfl, ?_, fun hNone => ?_⟩
          · rintro n ⟨other, rest, hOther, hNumeral, hAllowed⟩
            rw [hWords] at hOther
            obtain ⟨-, rfl, -⟩ := List.cons.inj hOther |>.imp_right List.cons.inj
            exact (channelSet_of_isNumeral hNumeral (le_trans hAllowed.le (by decide))).1 hAllowed
          · apply channelSet_of_not_allowed
            intro n hNumeral hAllowed
            rcases hFirst with rfl | hNot
            · exact hNone n ⟨s, surplus, hWords, hNumeral, hAllowed⟩
            · exact hNot n hNumeral hAllowed
        · rw [if_neg hStart]
          refine ⟨settings, rfl, ?_, fun _ => rfl⟩
          rintro n ⟨other, rest, hOther, -⟩
          rw [hWords] at hOther
          obtain rfl := (List.cons.inj hOther).1
          exact absurd rfl hStart

theorem obeys_panid_iff :
    Obeys (AsksForPanId chip data) (fun panId settings => { settings with panId })
      (unwiredShellPanid chip data) ↔ PanidCondition chip data := by
  constructor
  · intro hObeys first later hWords
    have hAfter (settings : RadioSettings) :
        (∀ n, AsksForPanId chip data n → panidChange chip first settings =
            { settings with panId := n }) ∧
          ((∀ n, ¬ AsksForPanId chip data n) → panidChange chip first settings = settings) := by
      obtain ⟨after, hRun, hAsked, hKept⟩ := hObeys settings
      rw [unwiredShellPanid_cons hWords] at hRun
      obtain rfl := Except.ok.inj hRun
      exact ⟨hAsked, hKept⟩
    -- the constant is never what was asked for
    have hConstant (hNone : ∀ n, ¬ AsksForPanId chip data n) :
        panidChange chip first ⟨0, 0, 0⟩ ≠ ⟨0, 0, 0xAAA⟩ := by
      rw [(hAfter ⟨0, 0, 0⟩).2 hNone]
      decide
    constructor
    · cases hStart : startsWith ['a', 'a', 'a'] first with
      | false => rfl
      | true =>
          obtain ⟨rest, rfl⟩ := startsWith_iff.mp hStart
          refine absurd ?_ (hConstant ?_)
          · rw [panidChange_other rfl, if_pos hStart]
          · rintro n ⟨-, s, surplus, hOther, -⟩
            rw [hWords] at hOther
            exact absurd (List.cons.inj (List.cons.inj hOther).1).1 (by decide)
    · intro hStart
      have hChip : chip = .cc26xx := by
        by_contra hOther
        refine absurd ?_ (hConstant fun n h => hOther h.1)
        rw [panidChange_set hStart, if_neg hOther]
      refine ⟨hChip, ?_⟩
      rintro rfl s surplus rfl n hNumeral hn
      have hSame := (hAfter ⟨0, n + 1, 0⟩).1 n ⟨hChip, s, surplus, hWords, hNumeral, hn⟩
      rw [panidChange_set hStart, if_pos hChip] at hSame
      exact absurd (congrArg RadioSettings.panId hSame) (Nat.succ_ne_self n)
  · intro hCondition settings
    cases hWords : argWords data with
    | nil =>
        refine ⟨settings, unwiredShellPanid_nil hWords, ?_, fun _ => rfl⟩
        rintro n ⟨-, s, surplus, hOther, -⟩
        rw [hWords] at hOther
        cases hOther
    | cons first later =>
        obtain ⟨hNotConstant, hSet⟩ := hCondition first later hWords
        refine ⟨settings, ?_, ?_, fun _ => rfl⟩
        · rw [unwiredShellPanid_cons hWords]
          cases hStart : startsWith ['s', 'e', 't'] first with
          | true => rw [panidChange_set hStart, if_pos (hSet hStart).1]
          | false =>
              rw [panidChange_other hStart, if_neg (by rw [hNotConstant]; exact Bool.false_ne_true)]
        · rintro n ⟨-, s, surplus, hOther, hNumeral, hn⟩
          rw [hWords] at hOther
          obtain ⟨rfl, rfl⟩ := List.cons.inj hOther
          exact absurd hn ((hSet rfl).2 rfl s surplus rfl n hNumeral)

theorem test_returns_iff : (∃ result, unwiredShellTest data = .ok result) ↔ argWords data ≠ [] := by
  rw [unwiredShellTest_eq]
  cases argWords data with
  | nil =>
      constructor
      · rintro ⟨result, h⟩
        cases h
      · exact fun h => absurd rfl h
  | cons first later => exact iff_of_true ⟨_, rfl⟩ (List.cons_ne_nil _ _)

end Conditions

/-- No argument string makes `parse_args` write behind its array. The commands follow no bad
pointer and set what they are asked for, and only that, under these conditions exactly. -/
theorem shell_settings_iff (chip : ChipFamily) (data : Text) :
    (∀ args maxArgs j, maxArgs < j → (parseArgs data args maxArgs).2 j = args j) ∧
      (Obeys (AsksForChannel chip data) (fun channel settings => { settings with channel })
          (unwiredShellChannel chip data) ↔ ChannelCondition chip data) ∧
      (Obeys (AsksForPanId chip data) (fun panId settings => { settings with panId })
          (unwiredShellPanid chip data) ↔ PanidCondition chip data) ∧
      ((∃ result, unwiredShellTest data = .ok result) ↔ argWords data ≠ []) :=
  ⟨fun args _ _ h => parseArgs_kept data args h, obeys_channel_iff, obeys_panid_iff,
    test_returns_iff⟩

/-- The PAN id of a CC26xx cannot be set. -/
theorem not_shell_settings : ¬ ∀ (chip : ChipFamily) (data : Text),
    Obeys (AsksForChannel chip data) (fun channel settings => { settings with channel })
        (unwiredShellChannel chip data) ∧
      Obeys (AsksForPanId chip data) (fun panId settings => { settings with panId })
        (unwiredShellPanid chip data) ∧
      ∃ result, unwiredShellTest data = .ok result := by
  intro h
  obtain ⟨-, hObeys, -⟩ := h .cc26xx "set 1F".toList
  have hWords : argWords "set 1F".toList = [['s', 'e', 't'], ['1', 'F']] := by decide
  have hDigits : ∀ c ∈ ['1', 'F'], isDigit 16 c = true := List.all_eq_true.mp (by decide)
  have hNumeral : IsNumeral 16 ['1', 'F'] (0x1F : Nat) :=
    ⟨[], false, [], ['1', 'F'], rfl, .none, .none, List.cons_ne_nil _ _, hDigits, by decide⟩
  obtain ⟨after, hRun, hAsked, -⟩ := hObeys ⟨11, 0, 0⟩
  have hSame : unwiredShellPanid .cc26xx "set 1F".toList ⟨11, 0, 0⟩ = .ok ⟨11, 0, 0⟩ := by
    rw [unwiredShellPanid_cons hWords]
    rfl
  obtain rfl := Except.ok.inj (hSame.symm.trans hRun)
  exact absurd (hAsked 0x1F ⟨rfl, _, _, hWords, hNumeral, by decide⟩) (by decide)

end Smarthome.Shell
