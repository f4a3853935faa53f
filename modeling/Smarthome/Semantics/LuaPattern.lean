import Mathlib.Data.List.Forall2
import Mathlib.Data.List.Infix
import Mathlib.Data.List.TakeDrop

/-! Lua patterns without captures: single character classes and the greedy `+`, which
gives back what the rest of the pattern needs. `string.find` takes the first place of
the text at which the pattern matches. -/
namespace Semantics.LuaPattern

inductive CharClass where
  | char (c : Char)
  /-- `%w`. -/
  | alnum
  /-- The dot, which stands for every character, a newline too. -/
  | any

def CharClass.accepts : CharClass → Char → Bool
  | .char c, d => d == c
  | .alnum, d => d.isAlphanum
  | .any, _ => true

inductive Item where
  | one (cls : CharClass)
  | oneOrMore (cls : CharClass)

/-- As many characters of the class as possible, and at least one, before the rest. -/
def greedy (cls : CharClass) (rest : List Char → Option (List Char)) :
    List Char → Option (List Char)
  | [] => none
  | c :: text =>
      if cls.accepts c then ((greedy cls rest text).or (rest text)).map (c :: ·) else none

/-- What the pattern matches at the start of the text. -/
def matchAt : List Item → List Char → Option (List Char)
  | [], _ => some []
  | .one _ :: _, [] => none
  | .one cls :: items, c :: text =>
      if cls.accepts c then (matchAt items text).map (c :: ·) else none
  | .oneOrMore cls :: items, text => greedy cls (matchAt items) text

/-- `string.find`: what the pattern matches at the first place possible. -/
def find (items : List Item) (text : List Char) : Option (List Char) :=
  text.tails.findSome? (matchAt items)

/-- A text that stands for itself. -/
def literal (text : List Char) : List Item := text.map fun c => .one (.char c)

variable {items : List Item} {text : List Char}

theorem find_nil (items : List Item) : find items [] = matchAt items [] := by
  rw [find, List.tails, List.findSome?_singleton]

theorem find_cons (items : List Item) (c : Char) (text : List Char) :
    find items (c :: text) = (matchAt items (c :: text)).or (find items text) := by
  rw [find, List.tails_cons, List.findSome?_cons]
  cases matchAt items (c :: text) with
  | none => rfl
  | some matched => rfl

/-- A match at the start is the first one. -/
theorem find_of_matchAt {matched : List Char} (h : matchAt items text = some matched) :
    find items text = some matched := by
  cases text with
  | nil => rw [find_nil, h]
  | cons c text => rw [find_cons, h, Option.some_or]

/-- There is no match if and only if there is none at any place. -/
theorem find_eq_none_iff : find items text = none ↔ ∀ s, s <:+ text → matchAt items s = none := by
  rw [find, List.findSome?_eq_none_iff]
  simp only [List.mem_tails]

/-- The first match begins nowhere behind any other one. -/
theorem exists_of_find {matched other s : List Char} (hs : s <:+ text)
    (hMatch : matchAt items s = some other) (h : find items text = some matched) :
    ∃ t, s <:+ t ∧ t <:+ text ∧ matchAt items t = some matched := by
  induction text with
  | nil =>
      obtain rfl := List.suffix_nil.mp hs
      rw [find_nil] at h
      exact ⟨[], List.suffix_rfl, List.suffix_rfl, h⟩
  | cons c text ih =>
      rw [find_cons] at h
      rcases Option.or_eq_some_iff.mp h with hNow | ⟨hNone, hLater⟩
      · exact ⟨c :: text, hs, List.suffix_rfl, hNow⟩
      · rcases List.suffix_cons_iff.mp hs with rfl | hs
        · cases hNone.symm.trans hMatch
        · obtain ⟨t, hst, ht, hFound⟩ := ih hs hLater
          exact ⟨t, hst, ht.trans (List.suffix_cons c text), hFound⟩

/-- Symbols at which no match begins may be left out in front. -/
theorem find_append_of_none {before : List Char}
    (h : ∀ s, s <:+ before → s ≠ [] → matchAt items (s ++ text) = none) :
    find items (before ++ text) = find items text := by
  induction before with
  | nil => rfl
  | cons c before ih =>
      have hFirst := h (c :: before) List.suffix_rfl (List.cons_ne_nil _ _)
      rw [List.cons_append] at hFirst
      rw [List.cons_append, find_cons, hFirst, Option.none_or]
      apply ih
      intro s hs hNil
      exact h s (hs.trans (List.suffix_cons _ _)) hNil

theorem matchAt_literal_append (before : List Char) (items : List Item) (text : List Char) :
    matchAt (literal before ++ items) text = if before <+: text then
      (matchAt items (text.drop before.length)).map (before ++ ·) else none := by
  induction before generalizing text with
  | nil => simp [literal]
  | cons c before ih =>
      rw [literal, List.map_cons, List.cons_append]
      cases text with
      | nil => simp [matchAt]
      | cons d text =>
          rw [matchAt, ← literal, ih]
          by_cases hChar : d = c
          · subst hChar
            by_cases hRest : before <+: text
            · simp [CharClass.accepts, hRest, List.cons_prefix_cons, Function.comp_def]
            · simp [CharClass.accepts, hRest, List.cons_prefix_cons]
          · have hOther : ¬ (c :: before) <+: d :: text := by
              rw [List.cons_prefix_cons]
              exact fun h => hChar h.1.symm
            simp [CharClass.accepts, hChar, hOther]

theorem matchAt_any_append (n : Nat) (items : List Item) (text : List Char) :
    matchAt (List.replicate n (.one .any) ++ items) text = if n ≤ text.length then
      (matchAt items (text.drop n)).map (text.take n ++ ·) else none := by
  induction n generalizing text with
  | zero => simp
  | succ n ih =>
      rw [List.replicate_succ, List.cons_append]
      cases text with
      | nil => simp [matchAt]
      | cons d text =>
          rw [matchAt, ih]
          by_cases hLong : n ≤ text.length
          · simp [CharClass.accepts, hLong, Function.comp_def]
          · simp [CharClass.accepts, hLong]

/-- A pattern of single classes fits a text, character by character. -/
def Fits (classes : List CharClass) (text : List Char) : Prop :=
  List.Forall₂ (fun cls c => cls.accepts c = true) classes text

theorem Fits.append {classes classes' : List CharClass} {text' : List Char}
    (h : Fits classes text) (h' : Fits classes' text') :
    Fits (classes ++ classes') (text ++ text') :=
  List.rel_append h h'

theorem fits_chars (text : List Char) : Fits (text.map CharClass.char) text := by
  induction text with
  | nil => exact List.Forall₂.nil
  | cons c text ih =>
      have hFirst : (CharClass.char c).accepts c = true := by simp [CharClass.accepts]
      exact List.Forall₂.cons hFirst ih

theorem fits_replicate {cls : CharClass} (h : ∀ c ∈ text, cls.accepts c = true) :
    Fits (List.replicate text.length cls) text := by
  induction text with
  | nil => exact List.Forall₂.nil
  | cons c text ih =>
      rw [List.forall_mem_cons] at h
      exact List.Forall₂.cons h.1 (ih h.2)

/-- A text that fits is matched, with whatever comes behind it. -/
theorem matchAt_append_of_fits {classes : List CharClass} (h : Fits classes text)
    (after : List Char) : matchAt (classes.map Item.one) (text ++ after) = some text := by
  induction h with
  | nil => rfl
  | cons hFirst _ ih =>
      rw [List.map_cons, List.cons_append, matchAt, if_pos hFirst, ih, Option.map_some]

theorem matchAt_of_fits {classes : List CharClass} (h : Fits classes text) :
    matchAt (classes.map Item.one) text = some text := by
  simpa using matchAt_append_of_fits h []

/-- What is matched fits. -/
theorem fits_of_matchAt {classes : List CharClass} {matched : List Char}
    (h : matchAt (classes.map Item.one) text = some matched) : Fits classes matched := by
  induction classes generalizing text matched with
  | nil =>
      obtain rfl := Option.some.inj h
      exact List.Forall₂.nil
  | cons cls classes ih =>
      cases text with
      | nil => cases h
      | cons c text =>
          rw [List.map_cons, matchAt] at h
          split_ifs at h with hFirst
          obtain ⟨rest, hRest, rfl⟩ := Option.map_eq_some_iff.mp h
          exact List.Forall₂.cons hFirst (ih hRest)

theorem fits_of_find {classes : List CharClass} {matched : List Char}
    (h : find (classes.map Item.one) text = some matched) : Fits classes matched := by
  obtain ⟨s, -, hMatch⟩ := List.exists_of_findSome?_eq_some h
  exact fits_of_matchAt hMatch

/-- The greedy dot before a character goes to its last occurrence, but not over nothing. -/
theorem greedy_any_eq_none_iff (c : Char) (text : List Char) :
    greedy .any (matchAt [.one (.char c)]) text = none ↔ c ∉ text.drop 1 := by
  induction text with
  | nil => simp [greedy]
  | cons d text ih =>
      cases text with
      | nil => simp [greedy, matchAt, CharClass.accepts]
      | cons e text =>
          have hTail : matchAt [.one (.char c)] (e :: text) = none ↔ c ≠ e := by
            by_cases hChar : e = c
            · simp [matchAt, CharClass.accepts, hChar]
            · simp [matchAt, CharClass.accepts, hChar, Ne.symm hChar]
          rw [greedy, CharClass.accepts, if_pos rfl, Option.map_eq_none_iff, Option.or_eq_none_iff,
            ih, hTail]
          simp [and_comm]

theorem greedy_any_append {c : Char} {before after : List Char} (hBefore : before ≠ [])
    (hAfter : c ∉ after) :
    greedy .any (matchAt [.one (.char c)]) (before ++ c :: after) = some (before ++ [c]) := by
  induction before with
  | nil => exact absurd rfl hBefore
  | cons d before ih =>
      rw [List.cons_append, greedy, CharClass.accepts, if_pos rfl]
      cases before with
      | nil =>
          have hNone : greedy .any (matchAt [.one (.char c)]) (c :: after) = none :=
            (greedy_any_eq_none_iff c _).mpr hAfter
          rw [List.nil_append, hNone, Option.none_or]
          simp [matchAt, CharClass.accepts]
      | cons e before =>
          rw [ih (List.cons_ne_nil _ _), Option.some_or]
          rfl

/-- Every item takes at least one character. -/
theorem length_le_of_matchAt {matched : List Char} (h : matchAt items text = some matched) :
    items.length ≤ text.length := by
  induction items generalizing text matched with
  | nil => exact Nat.zero_le _
  | cons item items ih =>
      cases item with
      | one cls =>
          cases text with
          | nil => cases h
          | cons c text =>
              rw [matchAt] at h
              split_ifs at h
              obtain ⟨rest, hRest, -⟩ := Option.map_eq_some_iff.mp h
              exact Nat.succ_le_succ (ih hRest)
      | oneOrMore cls =>
          rw [matchAt] at h
          induction text generalizing matched with
          | nil => cases h
          | cons c text ihText =>
              rw [greedy] at h
              split_ifs at h
              obtain ⟨rest, hRest, -⟩ := Option.map_eq_some_iff.mp h
              rcases Option.or_eq_some_iff.mp hRest with hMore | ⟨-, hOne⟩
              · exact (ihText hMore).trans (Nat.le_succ _)
              · exact Nat.succ_le_succ (ih hOne)

section Frame

variable {start stop : List Char} {n : Nat}

/-- A start and a stop around a fixed number of characters. -/
def frame (start stop : List Char) (n : Nat) : List Item :=
  literal start ++ (List.replicate n (.one .any) ++ literal stop)

theorem length_frame : (frame start stop n).length = start.length + (n + stop.length) := by
  simp [frame, literal]

/-- A text that is too short has no frame. -/
theorem find_frame_short (h : text.length < start.length + (n + stop.length)) :
    find (frame start stop n) text = none := by
  rw [find_eq_none_iff]
  intro s hs
  cases hMatch : matchAt (frame start stop n) s with
  | none => rfl
  | some matched =>
      have hLong := length_le_of_matchAt hMatch
      rw [length_frame] at hLong
      exact absurd (hLong.trans hs.length_le) (Nat.not_le_of_lt h)

theorem matchAt_literal {stop : List Char} (h : text.length = stop.length) :
    matchAt (literal stop) text = if stop = text then some text else none := by
  have hItems : literal stop = literal stop ++ [] := (List.append_nil _).symm
  have hPrefix : stop <+: text ↔ stop = text :=
    ⟨fun hStop => hStop.eq_of_length h.symm, fun hStop => hStop ▸ List.prefix_rfl⟩
  rw [hItems, matchAt_literal_append]
  by_cases hStop : stop = text
  · rw [if_pos (hPrefix.mpr hStop), if_pos hStop, matchAt, Option.map_some, List.append_nil, hStop]
  · rw [if_neg (mt hPrefix.mp hStop), if_neg hStop]

theorem matchAt_frame (h : text.length = start.length + (n + stop.length)) :
    matchAt (frame start stop n) text =
      if start <+: text ∧ stop <:+ text then some text else none := by
  rw [frame, matchAt_literal_append]
  by_cases hStart : start <+: text
  · obtain ⟨rest, rfl⟩ := hStart
    rw [List.length_append, Nat.add_left_cancel_iff] at h
    have hRest : (rest.drop n).length = stop.length := by
      rw [List.length_drop, h, Nat.add_sub_cancel_left]
    have hStop : stop <:+ start ++ rest ↔ stop = rest.drop n := by
      constructor
      · intro hSuffix
        have hDrop : rest.drop n <:+ start ++ rest :=
          (List.drop_suffix n rest).trans (List.suffix_append start rest)
        exact (List.suffix_of_suffix_length_le hSuffix hDrop hRest.ge).eq_of_length hRest.symm
      · intro hDrop
        rw [hDrop]
        exact (List.drop_suffix n rest).trans (List.suffix_append start rest)
    rw [if_pos (List.prefix_append start rest), List.drop_left, matchAt_any_append,
      if_pos (by omega), matchAt_literal hRest]
    by_cases hEnd : stop = rest.drop n
    · rw [if_pos hEnd, if_pos ⟨List.prefix_append start rest, hStop.mpr hEnd⟩, Option.map_some,
        Option.map_some, List.take_append_drop]
    · rw [if_neg hEnd, if_neg fun hBoth => hEnd (hStop.mp hBoth.2), Option.map_none,
        Option.map_none]
  · rw [if_neg hStart, if_neg fun hBoth => hStart hBoth.1]

/-- A text of the length of a frame is one as a whole or has none. -/
theorem find_frame (h : text.length = start.length + (n + stop.length)) :
    find (frame start stop n) text = if start <+: text ∧ stop <:+ text then some text else none := by
  have hMatch := matchAt_frame h
  by_cases hFrame : start <+: text ∧ stop <:+ text
  · rw [if_pos hFrame] at hMatch ⊢
    exact find_of_matchAt hMatch
  · rw [if_neg hFrame] at hMatch ⊢
    rw [find_eq_none_iff]
    intro s hs
    rcases Nat.lt_or_ge s.length text.length with hShort | hLong
    · rw [h] at hShort
      exact find_eq_none_iff.mp (find_frame_short hShort) s List.suffix_rfl
    · rw [hs.eq_of_length_le hLong, hMatch]

end Frame

section Line

variable {start : List Char} {c : Char}

/-- A start, and then at least one character before the last `c` of the text. -/
def lineUpTo (start : List Char) (c : Char) : List Item :=
  literal start ++ [.oneOrMore .any, .one (.char c)]

theorem find_lineUpTo_eq_none_iff : find (lineUpTo start c) text = none ↔
    ∀ s, s <:+ text → start <+: s → c ∉ s.drop (start.length + 1) := by
  have hMatch (s : List Char) : matchAt (lineUpTo start c) s = none ↔
      (start <+: s → c ∉ s.drop (start.length + 1)) := by
    rw [lineUpTo, matchAt_literal_append]
    by_cases hStart : start <+: s
    · rw [if_pos hStart, Option.map_eq_none_iff, ← List.drop_drop]
      exact (greedy_any_eq_none_iff c _).trans ⟨fun h _ => h, fun h => h hStart⟩
    · rw [if_neg hStart]
      exact ⟨fun _ h => absurd h hStart, fun _ => rfl⟩
  rw [find_eq_none_iff]
  simp only [hMatch]

/-- What follows without a `c` does not matter for whether there is a line. -/
theorem find_lineUpTo_append_eq_none_iff {before after : List Char} (h : c ∉ after) :
    find (lineUpTo start c) (before ++ after) = none ↔ find (lineUpTo start c) before = none := by
  simp only [find_lineUpTo_eq_none_iff]
  constructor
  · intro hAll s hs hStart hMem
    have hs' : s ++ after <:+ before ++ after := by
      obtain ⟨t, rfl⟩ := hs
      exact ⟨t, (List.append_assoc ..).symm⟩
    apply hAll (s ++ after) hs' (hStart.trans (List.prefix_append s after))
    rw [List.drop_append]
    exact List.mem_append_left _ hMem
  · intro hAll s hs hStart hMem
    rcases List.suffix_or_suffix_of_suffix hs (List.suffix_append before after) with hIn | hOut
    · exact h (hIn.subset (List.drop_subset _ _ hMem))
    · obtain ⟨front, rfl⟩ := hOut
      obtain ⟨t, ht⟩ := hs
      rw [← List.append_assoc] at ht
      have hFront : front <:+ before := ⟨t, List.append_cancel_right ht⟩
      rw [List.drop_append, List.mem_append] at hMem
      rcases hMem with hMem | hMem
      · have hLong : start.length < front.length := by
          by_contra hShort
          rw [List.drop_eq_nil_of_le (by omega)] at hMem
          exact List.not_mem_nil hMem
        exact hAll front hFront (List.prefix_of_prefix_length_le hStart
          (List.prefix_append front after) hLong.le) hMem
      · exact h (List.drop_subset _ _ hMem)

theorem find_lineUpTo_of_not_mem {d : Char} (h : d ∉ text) :
    find (lineUpTo (d :: start) c) text = none := by
  rw [find_lineUpTo_eq_none_iff]
  intro s hs hStart
  exact absurd (hs.subset (hStart.subset (List.mem_cons_self ..))) h

theorem matchAt_lineUpTo {body : List Char} (hBody : body ≠ []) :
    matchAt (lineUpTo start c) (start ++ body ++ [c]) = some (start ++ body ++ [c]) := by
  rw [lineUpTo, matchAt_literal_append, List.append_assoc, if_pos (List.prefix_append _ _),
    List.drop_left]
  have hGreedy : greedy .any (matchAt [.one (.char c)]) (body ++ [c]) = some (body ++ [c]) :=
    greedy_any_append hBody List.not_mem_nil
  rw [matchAt, hGreedy, Option.map_some]

/-- A text that begins and ends like a line is one. -/
theorem matchAt_lineUpTo_self {s : List Char} (hStart : start <+: s) (hEnd : [c] <:+ s)
    (hLong : start.length + 2 ≤ s.length) : matchAt (lineUpTo start c) s = some s := by
  obtain ⟨rest, rfl⟩ := hStart
  rw [List.length_append] at hLong
  have hRest : [c] <:+ rest := by
    refine List.suffix_of_suffix_length_le hEnd (List.suffix_append start rest) ?_
    rw [List.length_singleton]
    omega
  obtain ⟨body, rfl⟩ := hRest
  rw [List.length_append, List.length_singleton] at hLong
  have hBody : body ≠ [] := by
    rw [← List.length_pos_iff]
    omega
  rw [← List.append_assoc]
  exact matchAt_lineUpTo hBody

/-- In a text that ends with a line, what is found reaches back to its first beginning. -/
theorem length_le_of_find_lineUpTo {s matched : List Char} (hs : s <:+ text) (hStart : start <+: s)
    (hEnd : [c] <:+ s) (hLong : start.length + 2 ≤ s.length)
    (h : find (lineUpTo start c) text = some matched) : s.length ≤ matched.length := by
  obtain ⟨t, hst, -, hFound⟩ := exists_of_find hs (matchAt_lineUpTo_self hStart hEnd hLong) h
  have hBegins : start <+: t := by
    by_contra hNot
    rw [lineUpTo, matchAt_literal_append, if_neg hNot] at hFound
    cases hFound
  have hSelf : matchAt (lineUpTo start c) t = some t :=
    matchAt_lineUpTo_self hBegins (hEnd.trans hst) (hLong.trans hst.length_le)
  obtain rfl := Option.some.inj (hSelf.symm.trans hFound)
  exact hst.length_le

/-- The line is found where it begins, if no line could begin before. -/
theorem find_lineUpTo_of_first {before body : List Char} (hBody : body ≠ [])
    (hFirst : ∀ s, s <:+ before → s ≠ [] → ¬ start <+: s ++ (start ++ body ++ [c])) :
    find (lineUpTo start c) (before ++ (start ++ body ++ [c])) = some (start ++ body ++ [c]) := by
  rw [find_append_of_none]
  · exact find_of_matchAt (matchAt_lineUpTo hBody)
  · intro s hs hNil
    rw [lineUpTo, matchAt_literal_append, if_neg (hFirst s hs hNil)]

theorem find_lineUpTo {before body : List Char} {d : Char} (hBefore : d ∉ before)
    (hBody : body ≠ []) : find (lineUpTo (d :: start) c) (before ++ (d :: start ++ body ++ [c])) =
      some (d :: start ++ body ++ [c]) := by
  apply find_lineUpTo_of_first hBody
  intro s hs hNil hStart
  cases s with
  | nil => exact hNil rfl
  | cons e s =>
      rw [List.cons_append, List.cons_prefix_cons] at hStart
      exact hBefore (hs.subset (hStart.1 ▸ List.mem_cons_self ..))

end Line

end Semantics.LuaPattern
