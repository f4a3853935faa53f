import Smarthome.Shell.SerialLine

/-! What `serial_line_process` posts: the beginnings of the lines that have come, in their order
and never two of them in one, whole where nothing got lost, and unchanged until all have handled
them. No byte is left in the ring without a poll on its way. -/
namespace Smarthome.Shell

open Semantics List

/-- A byte that has left the ring and is not yet dealt with. -/
def SerialPoint.held : SerialPoint → List UInt8
  | .store c => [c]
  | _ => []

/-- A line as it comes, and as it is posted: the buffer leaves room for the zero. -/
abbrev fitting (line : List UInt8) : List UInt8 := line.take (bufsize - 1)

namespace SerialLine

abbrev linesOf (text : List UInt8) : Lines UInt8 := Lines.ofText lineEnd text

/-- The line so far is in the buffer. -/
def Collects (s : SerialLine) : Prop := s.bytes = fitting (linesOf s.taken).rest

/-- What holds at the points of the process. -/
def Holds (s : SerialLine) : SerialPoint → Prop
  | .get | .store _ => s.Collects
  | .load => s.Collects ∧ s.rxbuf.used ≠ 0
  | .advance c => s.Collects ∧ s.rxbuf.used ≠ 0 ∧ c = s.rxbuf.data s.rxbuf.getPtr
  | .waitPoll => s.Collects ∧ (s.needspoll = false → s.rxbuf.used = 0)
  | .postContinue => (linesOf s.taken).rest = []
  | .waitContinue => (linesOf s.taken).rest = [] ∧ .continue ∈ s.queue

/-- What holds however the handler and the process take turns. -/
structure Inv (s : SerialLine) : Prop where
  stream : s.kept = s.taken ++ s.point.held ++ s.rxbuf.contents
  holds : s.Holds s.point
  within : Lines.Within (linesOf s.kept) (linesOf s.received)
  follows : s.overflow = false → Lines.Follows (linesOf s.kept) (linesOf s.received)
  lines : s.lines.Sublist ((linesOf s.taken).complete.map fitting)

variable {s t : SerialLine} {c : UInt8} {rxbuf : Ringbuf bufsize}

theorem contents_ne_nil {r : Ringbuf bufsize} : r.contents ≠ [] ↔ r.used ≠ 0 := by
  rw [← Ringbuf.contents_length, ne_eq, ne_eq, List.length_eq_zero_iff]

theorem used_put_ne_zero (h : s.rxbuf.put c = some rxbuf) : rxbuf.used ≠ 0 := by
  rw [Ringbuf.used_put h]
  exact Nat.succ_ne_zero _

/-- The byte at the front stays there while others are put. -/
theorem data_put {r next : Ringbuf bufsize} (h : r.put c = some next) (hUsed : r.used ≠ 0) :
    next.data next.getPtr = r.data r.getPtr := by
  have hNext : next.used ≠ 0 := by
    rw [Ringbuf.used_put h]
    exact Nat.succ_ne_zero _
  have hContents := Ringbuf.contents_put h
  rw [Ringbuf.contents_advance hNext, Ringbuf.contents_advance hUsed, List.cons_append,
    List.cons.injEq] at hContents
  exact hContents.1

/-- What `serial_line_input_byte` does with a byte: it ignores it, loses it or keeps it. -/
theorem serialLineInputByte_cases (c : UInt8) (s : SerialLine) :
    s.serialLineInputByte c = s ∧ ignoreChar c = true ∨
    s.serialLineInputByte c =
        { s with received := s.received ++ [c], needspoll := true, overflow := true } ∧
      (s.overflow = false → s.rxbuf.put c = none) ∨
    ∃ rxbuf, s.rxbuf.put c = some rxbuf ∧ (s.overflow = true → c = lineEnd) ∧
      s.serialLineInputByte c =
        { s with received := s.received ++ [c], needspoll := true }.keep c rxbuf := by
  unfold serialLineInputByte
  by_cases hIgnore : ignoreChar c = true
  · rw [if_pos hIgnore]
    exact Or.inl ⟨rfl, hIgnore⟩
  · rw [if_neg hIgnore]
    right
    cases hOverflow : s.overflow with
    | false =>
        cases hPut : s.rxbuf.put c with
        | none => exact Or.inl ⟨by simp [hPut], fun _ => rfl⟩
        | some rxbuf => exact Or.inr ⟨rxbuf, rfl, nofun, by simp [hPut]⟩
    | true =>
        by_cases hEnd : c = lineEnd
        · subst hEnd
          cases hPut : s.rxbuf.put lineEnd with
          | none => exact Or.inl ⟨by simp [hPut], fun _ => rfl⟩
          | some rxbuf => exact Or.inr ⟨rxbuf, rfl, fun _ => rfl, by simp [hPut]⟩
        · exact Or.inl ⟨by simp [hEnd], nofun⟩

theorem Inv.lost (h : s.Inv) (c : UInt8) :
    Inv { s with received := s.received ++ [c], needspoll := true, overflow := true } where
  stream := h.stream
  holds := by
    have hHolds := h.holds
    dsimp only
    cases hPoint : s.point <;> rw [hPoint] at hHolds
    case waitPoll => exact ⟨hHolds.1, nofun⟩
    all_goals exact hHolds
  within := by
    show Lines.Within (linesOf s.kept) (linesOf (s.received ++ [c]))
    rw [linesOf, linesOf, Lines.ofText_append_singleton]
    exact h.within.lost lineEnd c
  follows := nofun
  lines := h.lines

theorem Inv.keep (h : s.Inv) (hPut : s.rxbuf.put c = some rxbuf)
    (hEnd : s.overflow = true → c = lineEnd) :
    Inv ({ s with received := s.received ++ [c], needspoll := true }.keep c rxbuf) := by
  have hFollows : Lines.Follows (linesOf (s.kept ++ [c])) (linesOf (s.received ++ [c])) := by
    rw [linesOf, linesOf, Lines.ofText_append_singleton, Lines.ofText_append_singleton]
    cases hOverflow : s.overflow with
    | true =>
        rw [hEnd hOverflow]
        exact h.within.resume lineEnd
    | false => exact (h.follows hOverflow).push lineEnd c
  refine ⟨?_, ?_, hFollows.within, fun _ => hFollows, h.lines⟩
  · show s.kept ++ [c] = s.taken ++ s.point.held ++ rxbuf.contents
    rw [Ringbuf.contents_put hPut, h.stream, List.append_assoc _ _ [c]]
  · have hHolds := h.holds
    dsimp only [SerialLine.keep]
    cases hPoint : s.point <;> rw [hPoint] at hHolds
    case load => exact ⟨hHolds.1, used_put_ne_zero hPut⟩
    case advance x =>
      obtain ⟨hCollects, hUsed, hData⟩ := hHolds
      exact ⟨hCollects, used_put_ne_zero hPut, hData.trans (data_put hPut hUsed).symm⟩
    case waitPoll => exact ⟨hHolds.1, nofun⟩
    all_goals exact hHolds

theorem Inv.serialLineInputByte (h : s.Inv) (c : UInt8) : (s.serialLineInputByte c).Inv := by
  rcases serialLineInputByte_cases c s with ⟨hSame, -⟩ | ⟨hLost, -⟩ | ⟨rxbuf, hPut, hEnd, hKept⟩
  · rw [hSame]
    exact h
  · rw [hLost]
    exact h.lost c
  · rw [hKept]
    exact h.keep hPut hEnd

theorem bytes_update (x : UInt8) :
    (List.range s.ptr).map (Function.update s.buf s.ptr x) = s.bytes := by
  apply List.map_congr_left
  intro i hi
  exact Function.update_of_ne (Nat.ne_of_lt (List.mem_range.mp hi)) _ _

@[simp] theorem bytes_length (s : SerialLine) : s.bytes.length = s.ptr := by simp [bytes]

/-- A byte is put into the buffer, unless it is full. -/
theorem Collects.store (h : s.Collects) (hEnd : c ≠ lineEnd) : Collects { s with
    buf := if s.ptr < bufsize - 1 then Function.update s.buf s.ptr c else s.buf
    ptr := if s.ptr < bufsize - 1 then s.ptr + 1 else s.ptr
    point := .get
    taken := s.taken ++ [c] } := by
  have hLength := congrArg List.length h
  rw [bytes_length, List.length_take] at hLength
  unfold Collects
  dsimp only [bytes]
  rw [linesOf, Lines.ofText_append_singleton, Lines.push_of_ne hEnd]
  split_ifs with hRoom
  · rw [List.range_succ, List.map_append, bytes_update, h]
    simp only [List.map_cons, List.map_nil, Function.update_self]
    have hShort : (linesOf s.taken).rest.length < bufsize - 1 := by omega
    rw [fitting, List.take_of_length_le (Nat.le_of_lt hShort), fitting,
      List.take_of_length_le (by rw [List.length_append]; exact hShort)]
  · have hFull : bufsize - 1 ≤ (linesOf s.taken).rest.length := by omega
    exact h.trans (List.take_append_of_le_length hFull).symm

/-- The thread takes its next step. -/
theorem Inv.thread {room : Bool} (h : s.Inv) (hStep : s.thread room = some t) : t.Inv := by
  have hStream := h.stream
  have hHolds := h.holds
  unfold SerialLine.thread at hStep
  cases hPoint : s.point <;> rw [hPoint] at hStep hStream hHolds
  case get =>
    obtain rfl := Option.some.inj hStep
    by_cases hUsed : s.rxbuf.used > 0
    · refine ⟨?_, ?_, h.within, h.follows, h.lines⟩
      · simpa [hUsed, SerialPoint.held] using hStream
      · simp only [if_pos hUsed]
        exact ⟨hHolds, Nat.ne_of_gt hUsed⟩
    · refine ⟨?_, ?_, h.within, h.follows, h.lines⟩
      · simpa [hUsed, SerialPoint.held] using hStream
      · simp only [if_neg hUsed]
        exact ⟨hHolds, fun _ => Nat.eq_zero_of_not_pos hUsed⟩
  case load =>
    obtain rfl := Option.some.inj hStep
    exact ⟨hStream, ⟨hHolds.1, hHolds.2, rfl⟩, h.within, h.follows, h.lines⟩
  case advance c =>
    obtain rfl := Option.some.inj hStep
    obtain ⟨hCollects, hUsed, rfl⟩ := hHolds
    refine ⟨?_, hCollects, h.within, h.follows, h.lines⟩
    rw [Ringbuf.contents_advance hUsed] at hStream
    simpa [SerialPoint.held] using hStream
  case store c =>
    by_cases hEnd : c ≠ lineEnd
    · obtain rfl := Option.some.inj ((if_pos hEnd).symm.trans hStep)
      refine ⟨?_, Collects.store hHolds hEnd, h.within, h.follows, ?_⟩
      · simpa [SerialPoint.held] using hStream
      · simp only [linesOf, Lines.ofText_append_singleton, Lines.push_of_ne hEnd]
        exact h.lines
    · obtain rfl := Option.some.inj ((if_neg hEnd).symm.trans hStep)
      obtain rfl := not_not.mp hEnd
      have hPushed : linesOf (s.taken ++ [lineEnd]) =
          ⟨(linesOf s.taken).complete ++ [(linesOf s.taken).rest], []⟩ := by
        rw [linesOf, Lines.ofText_append_singleton, Lines.push_separator]
      refine ⟨?_, ?_, h.within, h.follows, ?_⟩
      · simpa [SerialPoint.held] using hStream
      · show (linesOf (s.taken ++ [lineEnd])).rest = []
        rw [hPushed]
      · dsimp only
        rw [hPushed, List.map_append]
        have hBytes : s.bytes = fitting (linesOf s.taken).rest := hHolds
        split_ifs
        · rw [hBytes]
          exact h.lines.append (List.Sublist.refl _)
        · exact h.lines.trans (List.sublist_append_left _ _)
  case postContinue =>
    dsimp only at hStep
    split_ifs at hStep
    · obtain rfl := Option.some.inj hStep
      exact ⟨hStream, ⟨hHolds, List.mem_append_right _ (List.mem_singleton_self _)⟩, h.within,
        h.follows, h.lines⟩
    · obtain rfl := Option.some.inj hStep
      have hHolds : (linesOf s.taken).rest = [] := hHolds
      refine ⟨hStream, ?_, h.within, h.follows, h.lines⟩
      show [] = fitting (linesOf s.taken).rest
      rw [hHolds]
      rfl
  case waitPoll => cases hStep
  case waitContinue => cases hStep

/-- The process goes on after its wait for a poll. -/
theorem Inv.goesOn (h : s.Inv) (hPoint : s.point = .waitPoll) (needspoll : Bool)
    (queue : List SerialEvent) : Inv { s with needspoll, queue, point := .get } := by
  have hHolds := h.holds
  have hStream := h.stream
  rw [hPoint] at hHolds hStream
  exact ⟨hStream, hHolds.1, h.within, h.follows, h.lines⟩

/-- The process goes on after its wait for CONTINUE. -/
theorem Inv.begins (h : s.Inv) (hPoint : s.point = .waitContinue) (queue : List SerialEvent) :
    Inv { s with queue, ptr := 0, point := .get } := by
  have hHolds := h.holds
  have hStream := h.stream
  rw [hPoint] at hHolds hStream
  refine ⟨hStream, ?_, h.within, h.follows, h.lines⟩
  show [] = fitting (linesOf s.taken).rest
  rw [hHolds.1]
  rfl

theorem Inv.step {event : SerialStep} (h : s.Inv) (hStep : s.step event = some t) : t.Inv := by
  have hHolds := h.holds
  have hWaitPoll : SerialPoint.waitPoll ≠ .waitContinue := by decide
  cases event with
  | inputByte c =>
      obtain rfl := Option.some.inj hStep
      exact h.serialLineInputByte c
  | thread room => exact h.thread hStep
  | poll =>
      simp only [SerialLine.step] at hStep
      split_ifs at hStep with hPolled
      obtain rfl := Option.some.inj hStep
      rcases hPolled.1 with hPoint | hPoint
      · rw [resume, if_pos hPoint]
        exact h.goesOn hPoint false s.queue
      · rw [resume, if_neg (hPoint ▸ hWaitPoll.symm)]
        rw [hPoint] at hHolds
        refine ⟨h.stream, ?_, h.within, h.follows, h.lines⟩
        dsimp only
        rw [hPoint]
        exact hHolds
  | take =>
      simp only [SerialLine.step] at hStep
      split_ifs at hStep with hWaits
      split at hStep
      · rename_i bytes queue hQueue
        obtain rfl := Option.some.inj hStep
        refine ⟨h.stream, ?_, h.within, h.follows, h.lines⟩
        dsimp only
        rcases hWaits.1 with hPoint | hPoint <;> rw [hPoint] at hHolds ⊢
        · exact hHolds
        · obtain ⟨hRest, hMem⟩ := hHolds
          rw [hQueue] at hMem
          exact ⟨hRest, by simpa using hMem⟩
      · rename_i queue hQueue
        obtain rfl := Option.some.inj hStep
        rcases hWaits.1 with hPoint | hPoint
        · rw [continues, if_neg (hPoint ▸ hWaitPoll), resume, if_pos hPoint]
          exact h.goesOn hPoint s.needspoll queue
        · rw [continues, if_pos hPoint]
          exact h.begins hPoint queue
      · cases hStep
  | other =>
      simp only [SerialLine.step] at hStep
      split_ifs at hStep
      obtain rfl := Option.some.inj hStep
      unfold resume
      split_ifs with hPoint
      · exact h.goesOn hPoint s.needspoll s.queue
      · exact h
  | handle =>
      simp only [SerialLine.step] at hStep
      split_ifs at hStep
      obtain ⟨bytes, -, rfl⟩ := Option.map_eq_some_iff.mp hStep
      exact ⟨h.stream, hHolds, h.within, h.follows, h.lines⟩
  | handledAll =>
      simp only [SerialLine.step] at hStep
      split_ifs at hStep
      obtain rfl := Option.some.inj hStep
      exact ⟨h.stream, hHolds, h.within, h.follows, h.lines⟩

theorem inv_init (data : Nat → UInt8) (early : List UInt8) : (SerialLine.init data early).Inv := by
  have hSegments (text : List UInt8) : (linesOf text).segments ≠ [] :=
    List.append_ne_nil_of_right_ne_nil _ (List.cons_ne_nil _ _)
  have hEmpty : (SerialLine.init data early).rxbuf.contents = [] :=
    List.eq_nil_of_length_eq_zero (by simp [init, Ringbuf.used])
  refine ⟨by rw [hEmpty]; rfl, rfl, ?_, fun hOverflow => ?_, List.Sublist.refl _⟩
  · show SublistForall₂ (· <+: ·) [[]] (linesOf (early.filter (!ignoreChar ·))).segments
    cases hText : (linesOf (early.filter (!ignoreChar ·))).segments with
    | nil => exact absurd hText (hSegments _)
    | cons line lines => exact SublistForall₂.cons (List.nil_prefix) SublistForall₂.nil
  · have hNone : early.filter (!ignoreChar ·) = [] := not_not.mp (of_decide_eq_false hOverflow)
    show Lines.Follows (linesOf []) (linesOf (early.filter (!ignoreChar ·)))
    rw [hNone]
    exact ⟨SublistForall₂.nil, rfl⟩

theorem inv_of_run {data : Nat → UInt8} {early : List UInt8}
    {Allowed : SerialLine → SerialStep → Prop}
    (run : Reaches SerialLine.step Allowed (SerialLine.init data early) s) : s.Inv :=
  run.invariant SerialLine.Inv (inv_init data early) fun _ _ _ h _ hStep => h.step hStep

/-- The lines that have ended stay, and the others are those of what follows. -/
theorem sublistForall₂_complete (first second : List UInt8) :
    SublistForall₂ (· <+: ·) (linesOf first).complete (linesOf (first ++ second)).segments := by
  induction second using List.reverseRecOn with
  | nil =>
      rw [List.append_nil]
      exact Lines.sublistForall₂_longer (Lines.sublistForall₂_refl _) _
  | append_singleton second c ih =>
      rw [← List.append_assoc, linesOf, linesOf, Lines.ofText_append_singleton]
      by_cases hEnd : c = lineEnd
      · rw [hEnd, Lines.push_separator]
        exact Lines.sublistForall₂_longer ih []
      · rw [Lines.push_of_ne hEnd]
        exact Lines.sublistForall₂_grow ih (List.prefix_append ..)

theorem sublistForall₂_fitting {first second third : List (List UInt8)}
    (hLines : first.Sublist (second.map fitting))
    (hPrefixes : SublistForall₂ (· <+: ·) second third) :
    SublistForall₂ (fun line whole => line <+: fitting whole) first third := by
  induction hPrefixes generalizing first with
  | nil =>
      obtain rfl := List.sublist_nil.mp hLines
      exact SublistForall₂.nil
  | cons hHead _ ih =>
      rcases List.sublist_cons_iff.mp hLines with hRest | ⟨rest, rfl, hRest⟩
      · exact SublistForall₂.cons_right (ih hRest)
      · exact SublistForall₂.cons (hHead.take _) (ih hRest)
  | cons_right _ ih => exact SublistForall₂.cons_right (ih hLines)

/-- Two letters and an end come, and the line is handled. -/
def typed : List SerialStep :=
  let byte : List SerialStep := [.thread true, .thread true, .thread true, .thread true]
  [.thread true, .inputByte 0x68, .inputByte 0x69, .inputByte 0x0D, .inputByte 0x0A, .poll] ++
    byte ++ byte ++ byte ++ [.thread true, .take, .handle, .handledAll, .take, .thread true]

abbrev silent : SerialLine := SerialLine.init (fun _ => 0) []

theorem typed_run : ∃ s, runAll SerialLine.step silent typed = some s ∧
    s.point = .waitPoll ∧ s.needspoll = false ∧ s.queue = [] ∧
      s.handled = [([0x68, 0x69], [0x68, 0x69])] := by
  have hAny : (runAll SerialLine.step silent typed).any (fun s =>
      s.point = .waitPoll ∧ s.needspoll = false ∧ s.queue = [] ∧
        s.handled = [([0x68, 0x69], [0x68, 0x69])]) = true := by
    decide +kernel
  obtain ⟨s, hRun, hState⟩ := (Option.any_eq_true _ _).mp hAny
  exact ⟨s, hRun, of_decide_eq_true hState⟩

/-- Every line that is posted is the beginning of a line that has come, cut where the buffer
ends: of a later one each time, so that no two lines get mixed up and none comes twice. -/
theorem lines_of_received {data : Nat → UInt8} {early : List UInt8}
    (run : Reaches SerialLine.step (fun _ _ => True) (SerialLine.init data early) s) :
    SublistForall₂ (fun line whole => line <+: fitting whole) s.lines
      (s.received.splitOn lineEnd) := by
  have h := inv_of_run run
  have hTaken : SublistForall₂ (· <+: ·) (linesOf s.taken).complete (linesOf s.kept).segments := by
    rw [h.stream, List.append_assoc]
    exact sublistForall₂_complete s.taken _
  rw [← Lines.segments_ofText]
  exact sublistForall₂_fitting h.lines (Trans.trans hTaken h.within)

theorem lines_of_received_typed : ∃ s, runAll SerialLine.step silent typed = some s ∧
    SublistForall₂ (fun line whole => line <+: fitting whole) s.lines
      (s.received.splitOn lineEnd) := by
  obtain ⟨s, hRun, -⟩ := typed_run
  exact ⟨s, hRun, lines_of_received (Reaches.of_runAll (fun _ _ _ => trivial) hRun)⟩

/-- Nothing is on its way to the process, which waits. -/
structure Quiet (s : SerialLine) : Prop where
  waits : s.Waits
  unpolled : s.needspoll = false
  noEvent : s.queue = []

/-- No poll gets lost: while bytes are in the ring, the process runs or something will wake it. -/
theorem used_eq_zero_of_quiet {data : Nat → UInt8} {early : List UInt8}
    (run : Reaches SerialLine.step (fun _ _ => True) (SerialLine.init data early) s)
    (hQuiet : s.Quiet) : s.rxbuf.used = 0 := by
  have hHolds := (inv_of_run run).holds
  rcases hQuiet.waits with hPoint | hPoint <;> rw [hPoint] at hHolds
  · exact hHolds.2 hQuiet.unpolled
  · have hMem := hHolds.2
    rw [hQuiet.noEvent] at hMem
    cases hMem

theorem used_eq_zero_of_quiet_typed : ∃ s, runAll SerialLine.step silent typed = some s ∧
    s.rxbuf.used = 0 := by
  obtain ⟨s, hRun, hPoint, hPoll, hQueue, -⟩ := typed_run
  exact ⟨s, hRun, used_eq_zero_of_quiet (Reaches.of_runAll (fun _ _ _ => trivial) hRun)
    ⟨Or.inl hPoint, hPoll, hQueue⟩⟩

/-- The ring has room for what comes, and the queue of the kernel for each line. -/
def Spacious (s : SerialLine) : SerialStep → Prop
  | .inputByte c => ignoreChar c = true ∨ s.rxbuf.used ≠ bufsize - 1
  | .thread room => s.point = .store lineEnd → room = true
  | _ => True

instance (s : SerialLine) : (event : SerialStep) → Decidable (s.Spacious event)
  | .inputByte _ => inferInstanceAs (Decidable (_ ∨ _))
  | .thread _ => inferInstanceAs (Decidable (_ → _))
  | .poll | .take | .other | .handle | .handledAll => isTrue trivial

/-- Nothing has been lost. -/
structure Whole (s : SerialLine) : Prop where
  inv : s.Inv
  overflow : s.overflow = false
  kept : s.kept = s.received
  lines : s.lines = (linesOf s.taken).complete.map fitting

theorem put_of_room {r : Ringbuf bufsize} (h : r.used ≠ bufsize - 1) (c : UInt8) :
    r.put c ≠ none := by
  rw [Ringbuf.put, if_neg h]
  nofun

theorem Whole.thread {room : Bool} (h : s.Whole) (hRoom : s.point = .store lineEnd → room = true)
    (hStep : s.thread room = some t) : t.Whole := by
  have hInv := h.inv.thread hStep
  unfold SerialLine.thread at hStep
  cases hPoint : s.point <;> rw [hPoint] at hStep
  case get =>
    obtain rfl := Option.some.inj hStep
    exact ⟨hInv, h.overflow, h.kept, h.lines⟩
  case load =>
    obtain rfl := Option.some.inj hStep
    exact ⟨hInv, h.overflow, h.kept, h.lines⟩
  case advance c =>
    obtain rfl := Option.some.inj hStep
    exact ⟨hInv, h.overflow, h.kept, h.lines⟩
  case store c =>
    have hHolds := h.inv.holds
    rw [hPoint] at hHolds
    by_cases hEnd : c ≠ lineEnd
    · obtain rfl := Option.some.inj ((if_pos hEnd).symm.trans hStep)
      refine ⟨hInv, h.overflow, h.kept, ?_⟩
      dsimp only
      rw [linesOf, Lines.ofText_append_singleton, Lines.push_of_ne hEnd]
      exact h.lines
    · obtain rfl := Option.some.inj ((if_neg hEnd).symm.trans hStep)
      obtain rfl := not_not.mp hEnd
      refine ⟨hInv, h.overflow, h.kept, ?_⟩
      have hBytes : s.bytes = fitting (linesOf s.taken).rest := hHolds
      dsimp only
      rw [if_pos (hRoom hPoint), linesOf, Lines.ofText_append_singleton, Lines.push_separator,
        h.lines, hBytes, List.map_append]
      rfl
  case postContinue =>
    dsimp only at hStep
    split_ifs at hStep
    · obtain rfl := Option.some.inj hStep
      exact ⟨hInv, h.overflow, h.kept, h.lines⟩
    · obtain rfl := Option.some.inj hStep
      exact ⟨hInv, h.overflow, h.kept, h.lines⟩
  case waitPoll => cases hStep
  case waitContinue => cases hStep

theorem Whole.serialLineInputByte (h : s.Whole)
    (hRoom : ignoreChar c = true ∨ s.rxbuf.used ≠ bufsize - 1) :
    (s.serialLineInputByte c).Whole := by
  have hInv := h.inv.serialLineInputByte c
  rcases serialLineInputByte_cases c s with ⟨hSame, -⟩ | ⟨hLost, hFull⟩ | ⟨rxbuf, -, -, hKept⟩
  · rw [hSame]
    exact h
  · rcases hRoom with hIgnore | hRoom
    · rw [SerialLine.serialLineInputByte, if_pos hIgnore]
      exact h
    · exact absurd (hFull h.overflow) (put_of_room hRoom c)
  · rw [hKept] at hInv ⊢
    exact ⟨hInv, rfl, congrArg (· ++ [c]) h.kept, h.lines⟩

/-- What only the handler and the thread change. -/
structure SameText (s t : SerialLine) : Prop where
  overflow : t.overflow = s.overflow
  received : t.received = s.received
  kept : t.kept = s.kept
  taken : t.taken = s.taken
  lines : t.lines = s.lines

theorem sameText_resume (s : SerialLine) : SameText s s.resume := by
  unfold resume
  split_ifs
  · exact ⟨rfl, rfl, rfl, rfl, rfl⟩
  · exact ⟨rfl, rfl, rfl, rfl, rfl⟩

theorem sameText_continues (s : SerialLine) : SameText s s.continues := by
  unfold continues
  split_ifs
  · exact ⟨rfl, rfl, rfl, rfl, rfl⟩
  · exact sameText_resume s

/-- What the kernel and the other processes do. -/
theorem step_cases {event : SerialStep} (hStep : s.step event = some t) :
    (∃ c, event = .inputByte c ∧ t = s.serialLineInputByte c) ∨
    (∃ room, event = .thread room ∧ s.thread room = some t) ∨ SameText s t := by
  cases event with
  | inputByte c => exact Or.inl ⟨c, rfl, (Option.some.inj hStep).symm⟩
  | thread room => exact Or.inr (Or.inl ⟨room, rfl, hStep⟩)
  | poll =>
      right
      right
      simp only [SerialLine.step] at hStep
      split_ifs at hStep
      obtain rfl := Option.some.inj hStep
      have h := sameText_resume { s with needspoll := false }
      exact ⟨h.overflow, h.received, h.kept, h.taken, h.lines⟩
  | take =>
      right
      right
      simp only [SerialLine.step] at hStep
      split_ifs at hStep
      split at hStep
      · obtain rfl := Option.some.inj hStep
        exact ⟨rfl, rfl, rfl, rfl, rfl⟩
      · rename_i queue _
        obtain rfl := Option.some.inj hStep
        have h := sameText_continues { s with queue }
        exact ⟨h.overflow, h.received, h.kept, h.taken, h.lines⟩
      · cases hStep
  | other =>
      right
      right
      simp only [SerialLine.step] at hStep
      split_ifs at hStep
      obtain rfl := Option.some.inj hStep
      exact sameText_resume s
  | handle =>
      right
      right
      simp only [SerialLine.step] at hStep
      split_ifs at hStep
      obtain ⟨bytes, -, rfl⟩ := Option.map_eq_some_iff.mp hStep
      exact ⟨rfl, rfl, rfl, rfl, rfl⟩
  | handledAll =>
      right
      right
      simp only [SerialLine.step] at hStep
      split_ifs at hStep
      obtain rfl := Option.some.inj hStep
      exact ⟨rfl, rfl, rfl, rfl, rfl⟩

theorem Whole.step {event : SerialStep} (h : s.Whole) (hRoom : s.Spacious event)
    (hStep : s.step event = some t) : t.Whole := by
  rcases step_cases hStep with ⟨c, rfl, rfl⟩ | ⟨room, rfl, hThread⟩ | hSame
  · exact h.serialLineInputByte hRoom
  · exact h.thread hRoom hThread
  · refine ⟨h.inv.step hStep, hSame.overflow.trans h.overflow, ?_, ?_⟩
    · rw [hSame.kept, hSame.received, h.kept]
    · rw [hSame.lines, hSame.taken, h.lines]

/-- If the ring is never full when a byte comes, and the queue of the kernel never when a line is
posted, then all lines that have come are posted, once nothing is on its way to the process. -/
theorem lines_eq_of_spacious {data : Nat → UInt8}
    (run : Reaches SerialLine.step Spacious (SerialLine.init data []) s) (hQuiet : s.Quiet) :
    s.lines = ((s.received.splitOn lineEnd).dropLast).map fitting := by
  have h := run.invariant SerialLine.Whole ⟨inv_init data [], rfl, rfl, rfl⟩
    fun _ _ _ hWhole hRoom hStep => hWhole.step hRoom hStep
  have hHolds := h.inv.holds
  have hStream := h.inv.stream
  have hPoint : s.point = .waitPoll := by
    rcases hQuiet.waits with hPoint | hPoint
    · exact hPoint
    · rw [hPoint] at hHolds
      have hMem := hHolds.2
      rw [hQuiet.noEvent] at hMem
      cases hMem
  rw [hPoint] at hHolds hStream
  have hEmpty : s.rxbuf.contents = [] := List.eq_nil_of_length_eq_zero
    ((Ringbuf.contents_length _).trans (hHolds.2 hQuiet.unpolled))
  have hTaken : s.received = s.taken := by
    rw [← h.kept, hStream, hEmpty]
    simp [SerialPoint.held]
  rw [h.lines, hTaken, ← Lines.segments_ofText, Lines.segments, List.dropLast_concat]

theorem lines_eq_of_spacious_typed : ∃ s, runAll SerialLine.step silent typed = some s ∧
    s.lines = ((s.received.splitOn lineEnd).dropLast).map fitting := by
  have hAlong : Along SerialLine.step Spacious silent typed := by decide +kernel
  obtain ⟨s, hRun, hPoint, hPoll, hQueue, -⟩ := typed_run
  exact ⟨s, hRun, lines_eq_of_spacious (Reaches.of_along hAlong hRun)
    ⟨Or.inl hPoint, hPoll, hQueue⟩⟩

/-- The string of a line ends at its first zero. -/
def Shows (s : SerialLine) (line : List UInt8) : Prop := text s.buf = line.takeWhile (· ≠ 0)

/-- The post of CONTINUE finds room. -/
def Continues (s : SerialLine) : SerialStep → Prop
  | .thread room => s.point = .postContinue → room = true
  | _ => True

instance (s : SerialLine) : (event : SerialStep) → Decidable (s.Continues event)
  | .thread _ => inferInstanceAs (Decidable (_ → _))
  | .inputByte _ | .poll | .take | .other | .handle | .handledAll => isTrue trivial

/-- Where the line is that the buffer holds. -/
def Guards (s : SerialLine) : SerialPoint → Prop
  | .postContinue => s.delivering = none ∧
      (s.queue = [] ∨ ∃ line, s.queue = [.line line] ∧ s.Shows line)
  | .waitContinue =>
      (s.queue = [.continue] ∧ ∀ line ∈ s.delivering, s.Shows line) ∨
        s.delivering = none ∧ ∃ line, s.queue = [.line line, .continue] ∧ s.Shows line
  | _ => s.queue = [] ∧ s.delivering = none

structure Kept (s : SerialLine) : Prop where
  inv : s.Inv
  guards : s.Guards s.point
  handled : ∀ pair ∈ s.handled, pair.2 = pair.1.takeWhile (· ≠ 0)

theorem takeWhile_zero (line rest : List UInt8) :
    (line ++ 0 :: rest).takeWhile (· ≠ 0) = line.takeWhile (· ≠ 0) := by
  induction line with
  | nil => simp
  | cons c line ih =>
      rw [List.cons_append, List.takeWhile_cons, List.takeWhile_cons, ih]

/-- The zero at the end of the line. -/
theorem shows_update (hPtr : s.ptr < bufsize) :
    text (Function.update s.buf s.ptr 0) = s.bytes.takeWhile (· ≠ 0) := by
  obtain ⟨rest, hRest⟩ := Nat.exists_eq_add_of_lt hPtr
  rw [text, hRest, Nat.add_assoc, List.range_add, List.map_append, bytes_update,
    List.range_succ_eq_map, List.map_cons, List.map_cons, Nat.add_zero, Function.update_self,
    takeWhile_zero]

theorem Kept.thread {room : Bool} (h : s.Kept) (hRoom : s.point = .postContinue → room = true)
    (hStep : s.thread room = some t) : t.Kept := by
  have hInv := h.inv.thread hStep
  have hGuards := h.guards
  unfold SerialLine.thread at hStep
  cases hPoint : s.point <;> rw [hPoint] at hStep hGuards
  case get =>
    obtain rfl := Option.some.inj hStep
    refine ⟨hInv, ?_, h.handled⟩
    by_cases hUsed : s.rxbuf.used > 0
    · simp only [if_pos hUsed]
      exact hGuards
    · simp only [if_neg hUsed]
      exact hGuards
  case load =>
    obtain rfl := Option.some.inj hStep
    exact ⟨hInv, hGuards, h.handled⟩
  case advance c =>
    obtain rfl := Option.some.inj hStep
    exact ⟨hInv, hGuards, h.handled⟩
  case store c =>
    by_cases hEnd : c ≠ lineEnd
    · obtain rfl := Option.some.inj ((if_pos hEnd).symm.trans hStep)
      exact ⟨hInv, hGuards, h.handled⟩
    · obtain rfl := Option.some.inj ((if_neg hEnd).symm.trans hStep)
      have hHolds := h.inv.holds
      rw [hPoint] at hHolds
      have hLength := congrArg List.length (show s.bytes = fitting _ from hHolds)
      rw [bytes_length, List.length_take] at hLength
      have hPtr : s.ptr < bufsize := by
        have hSize : bufsize = 128 := rfl
        omega
      refine ⟨hInv, ⟨hGuards.2, ?_⟩, h.handled⟩
      dsimp only
      rw [hGuards.1]
      split_ifs
      · exact Or.inr ⟨s.bytes, rfl, shows_update hPtr⟩
      · exact Or.inl rfl
  case postContinue =>
    obtain rfl := hRoom hPoint
    obtain rfl := Option.some.inj hStep
    obtain ⟨hNone, hQueue⟩ := hGuards
    refine ⟨hInv, ?_, h.handled⟩
    dsimp only [Guards]
    rcases hQueue with hQueue | ⟨line, hQueue, hShows⟩
    · rw [hQueue]
      refine Or.inl ⟨rfl, fun line hLine => ?_⟩
      rw [hNone] at hLine
      cases hLine
    · rw [hQueue]
      exact Or.inr ⟨hNone, line, rfl, hShows⟩
  case waitPoll => cases hStep
  case waitContinue => cases hStep

theorem Kept.serialLineInputByte (h : s.Kept) (c : UInt8) : (s.serialLineInputByte c).Kept := by
  have hInv := h.inv.serialLineInputByte c
  rcases serialLineInputByte_cases c s with ⟨hSame, -⟩ | ⟨hLost, -⟩ | ⟨rxbuf, -, -, hKept⟩
  · rw [hSame]
    exact h
  · rw [hLost] at hInv ⊢
    exact ⟨hInv, h.guards, h.handled⟩
  · rw [hKept] at hInv ⊢
    exact ⟨hInv, h.guards, h.handled⟩

theorem Kept.step {event : SerialStep} (h : s.Kept) (hRoom : s.Continues event)
    (hStep : s.step event = some t) : t.Kept := by
  have hInv := h.inv.step hStep
  have hGuards := h.guards
  cases event with
  | inputByte c =>
      obtain rfl := Option.some.inj hStep
      exact h.serialLineInputByte c
  | thread room => exact h.thread hRoom hStep
  | poll =>
      simp only [SerialLine.step] at hStep
      split_ifs at hStep with hPolled
      obtain rfl := Option.some.inj hStep
      refine ⟨hInv, ?_, ?_⟩
      · rcases hPolled.1 with hPoint | hPoint <;> rw [hPoint] at hGuards
        · rw [resume, if_pos hPoint]
          exact hGuards
        · rw [resume, if_neg (by rw [hPoint]; nofun)]
          dsimp only
          rw [hPoint]
          exact hGuards
      · rw [show (resume { s with needspoll := false }).handled = s.handled by
          unfold resume; split_ifs <;> rfl]
        exact h.handled
  | take =>
      simp only [SerialLine.step] at hStep
      split_ifs at hStep with hWaits
      obtain ⟨hWaits, hNone⟩ := hWaits
      rcases hWaits with hPoint | hPoint <;> rw [hPoint] at hGuards
      · rw [hGuards.1] at hStep
        cases hStep
      · rcases hGuards with ⟨hQueue, -⟩ | ⟨-, line, hQueue, hShows⟩
        · rw [hQueue] at hStep
          obtain rfl := Option.some.inj hStep
          rw [continues, if_pos hPoint] at hInv ⊢
          exact ⟨hInv, ⟨rfl, hNone⟩, h.handled⟩
        · rw [hQueue] at hStep
          obtain rfl := Option.some.inj hStep
          refine ⟨hInv, ?_, h.handled⟩
          dsimp only
          rw [hPoint]
          refine Or.inl ⟨rfl, fun line' hLine => ?_⟩
          obtain rfl := Option.some.inj hLine
          exact hShows
  | other =>
      simp only [SerialLine.step] at hStep
      split_ifs at hStep
      obtain rfl := Option.some.inj hStep
      unfold resume at hInv ⊢
      split_ifs at hInv ⊢ with hPoint
      · rw [hPoint] at hGuards
        exact ⟨hInv, hGuards, h.handled⟩
      · exact h
  | handle =>
      simp only [SerialLine.step] at hStep
      split_ifs at hStep with hWaits
      obtain ⟨line, hLine, rfl⟩ := Option.map_eq_some_iff.mp hStep
      refine ⟨hInv, hGuards, fun pair hMem => ?_⟩
      rcases List.mem_append.mp hMem with hOld | hNew
      · exact h.handled pair hOld
      · obtain rfl := List.mem_singleton.mp hNew
        rcases hWaits with hPoint | hPoint <;> rw [hPoint] at hGuards
        · have hNone := hGuards.2.symm.trans hLine
          cases hNone
        · rcases hGuards with ⟨-, hShows⟩ | ⟨hNone, -⟩
          · exact hShows line hLine
          · have hNone := hNone.symm.trans hLine
            cases hNone
  | handledAll =>
      simp only [SerialLine.step] at hStep
      split_ifs at hStep with hWaits
      obtain rfl := Option.some.inj hStep
      refine ⟨hInv, ?_, h.handled⟩
      dsimp only
      rcases hWaits.1 with hPoint | hPoint <;> rw [hPoint] at hGuards ⊢
      · exact absurd hGuards.2 hWaits.2
      · rcases hGuards with ⟨hQueue, -⟩ | ⟨hNone, -⟩
        · exact Or.inl ⟨hQueue, nofun⟩
        · exact absurd hNone hWaits.2

/-- If the queue of the kernel has room for CONTINUE after each line, then whoever handles a line
finds it in the buffer as it was posted: nothing is written there until all have handled it. -/
theorem handled_of_continues {data : Nat → UInt8} {early : List UInt8}
    (run : Reaches SerialLine.step Continues (SerialLine.init data early) s) :
    ∀ pair ∈ s.handled, pair.2 = pair.1.takeWhile (· ≠ 0) := by
  have h := run.invariant SerialLine.Kept ⟨inv_init data early, ⟨rfl, rfl⟩, nofun⟩
    fun _ _ _ hKept hRoom hStep => hKept.step hRoom hStep
  exact h.handled

theorem handled_of_continues_typed : ∃ s, runAll SerialLine.step silent typed = some s ∧
    ∀ pair ∈ s.handled, pair.2 = pair.1.takeWhile (· ≠ 0) := by
  have hAlong : Along SerialLine.step Continues silent typed := by decide +kernel
  obtain ⟨s, hRun, -⟩ := typed_run
  exact ⟨s, hRun, handled_of_continues (Reaches.of_along hAlong hRun)⟩

end SerialLine

end Smarthome.Shell
