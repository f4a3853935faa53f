import Smarthome.Router.Recognition

/-! Lines that `main_cycle` recognizes exactly once. What the first message leaves in the
window is all that can disturb the line after it. -/
namespace Smarthome.Router

open Semantics LuaPattern Window

/-- What the window still shows of a first message when `n` bytes have come behind it. The
zeros that were added take the place of the rest. -/
def UdmMessage.left (first : UdmMessage) (n : Nat) : Text :=
  first.text.rtake (95 - first.text.length - n)

/-- The second line is read as if the first message were gone: the rest of that message is
no message, it begins none when the second one is complete, and never begins a packet
that the second one ends. -/
def Undisturbed (first : UdmMessage) (second : Line) : Prop :=
  find messagePattern (first.left 1) = none ∧
    match second with
    | .raw _ => True
    | .udm message => ¬ udmStart <:+: first.left message.text.length ∧
        ∀ n, ¬ (rawStart <+: first.left (n + 1) ∧ rawEnd <:+ message.text.take (n + 1))

variable {alt : Bool} {state : RouterState} {p : Text} {first message : UdmMessage}
  {packet : RawPacket}

/-- The window behind a first message: the rest of it, then zeros and what has come since. -/
theorem window_cleaned (first : UdmMessage) (p : Text) :
    (cleanBuffer first.text ++ p).rtake 95 =
      first.left p.length ++ (List.replicate first.text.length '0' ++ p).rtake 95 := by
  rw [cleanBuffer, List.append_assoc, rtake_append, List.length_append, List.length_replicate,
    ← Nat.sub_sub]
  rfl

/-- As long as there is room for another byte, there is a zero between the two. -/
theorem window_zeros (first : UdmMessage) (hShort : p.length < 95) :
    ∃ n, (cleanBuffer first.text ++ p).rtake 95 =
      first.left p.length ++ (List.replicate n '0' ++ '0' :: p) := by
  have hText := first.length_text
  obtain ⟨n, hn⟩ : ∃ n, min (95 - p.length) first.text.length = n + 1 :=
    ⟨min (95 - p.length) first.text.length - 1, by omega⟩
  refine ⟨n, ?_⟩
  rw [window_cleaned, rtake_append_of_length_le hShort.le, rtake_replicate, hn,
    List.replicate_succ', List.append_assoc]
  rfl

theorem left_suffix (first : UdmMessage) {n : Nat} (hn : 1 ≤ n) : first.left n <:+ first.left 1 := by
  have hRest : first.left n = (first.left 1).rtake (95 - first.text.length - n) := by
    rw [UdmMessage.left, UdmMessage.left, rtake_rtake _ (by omega)]
  rw [hRest]
  exact rtake_suffix _ _

theorem find_left_none (hFirst : find messagePattern (first.left 1) = none) {n : Nat}
    (hn : 1 ≤ n) : find messagePattern (first.left n) = none := by
  rw [find_eq_none_iff] at hFirst ⊢
  exact fun s hs => hFirst s (hs.trans (left_suffix first hn))

/-- A short message is still there as a whole after one more byte, and found again. -/
theorem length_of_find_left (hFirst : find messagePattern (first.left 1) = none) :
    48 ≤ first.text.length := by
  by_contra hShort
  have hWhole : first.left 1 = first.text := by
    rw [UdmMessage.left]
    exact rtake_of_length_le (by omega)
  have hFound : find messagePattern first.text = some first.text :=
    find_of_matchAt (matchAt_lineUpTo (List.cons_ne_nil _ _))
  rw [hWhole, hFound] at hFirst
  cases hFirst

/-- Until the next newline a message can only be found in what the first one left. -/
theorem find_message_iff (hp : '\n' ∉ p) :
    find messagePattern ((cleanBuffer first.text ++ p).rtake 95) = none ↔
      find messagePattern (first.left p.length) = none := by
  have hZeros : '\n' ∉ (List.replicate first.text.length '0' ++ p).rtake 95 := by
    intro h
    have hMem := (rtake_suffix _ _).subset h
    rw [List.mem_append, List.mem_replicate] at hMem
    rcases hMem with ⟨-, h⟩ | h
    · exact absurd h (by decide)
    · exact hp h
  rw [window_cleaned]
  exact find_lineUpTo_append_eq_none_iff hZeros

/-- A packet in the window begins in the first message and ends in the second line. -/
theorem parts_of_packet (hShort : p.length < 95)
    (h : find packetPattern ((cleanBuffer first.text ++ p).rtake 95) ≠ none) :
    rawStart <+: first.left p.length ∧ rawEnd <:+ p := by
  have hLength := length_rtake (cleanBuffer first.text ++ p) 95
  have hFull : ((cleanBuffer first.text ++ p).rtake 95).length = 95 := by
    by_contra hNot
    refine h (find_frame_short ?_)
    show ((cleanBuffer first.text ++ p).rtake 95).length < 95
    omega
  rw [packetPattern, find_frame hFull] at h
  obtain ⟨hStart, hEnd⟩ : rawStart <+: (cleanBuffer first.text ++ p).rtake 95 ∧
      rawEnd <:+ (cleanBuffer first.text ++ p).rtake 95 := by
    by_contra hNot
    exact h (if_neg hNot)
  obtain ⟨n, hn⟩ := window_zeros first hShort
  rw [hn] at hStart hEnd
  constructor
  · cases n with
    | zero => exact prefix_of_prefix_append hStart (by decide)
    | succ n =>
        rw [List.replicate_succ, List.cons_append] at hStart
        exact prefix_of_prefix_append hStart (by decide)
  · rw [← List.append_assoc] at hEnd
    exact suffix_of_suffix_append hEnd (by decide)

/-- A raw line behind a first message that leaves no message. -/
theorem quiet_of_second_raw (hFirst : find messagePattern (first.left 1) = none)
    (hp : p <+: packet.line) (hNil : p ≠ []) (hText : p.length ≠ 95) :
    Quiet ((cleanBuffer first.text ++ p).rtake 95) := by
  have hPos : 1 ≤ p.length := List.length_pos_iff.mpr hNil
  constructor
  · rcases Nat.lt_or_ge 92 p.length with hLate | hEarly
    · exact packet_none_of_late hp hLate hText
    · by_contra h
      obtain ⟨-, hEnd⟩ := parts_of_packet (Nat.lt_of_le_of_lt hEarly (by decide)) h
      have hTake : p <+: packet.line.take 92 := by
        rw [List.prefix_take_iff]
        exact ⟨hp, hEarly⟩
      exact packet.n_not_mem_take (hTake.subset (hEnd.subset (by decide)))
  · rcases Nat.lt_or_ge 95 p.length with hLate | hEarly
    · rw [rtake_full hLate.le]
      apply find_lineUpTo_of_not_mem
      exact fun h => packet.u_not_mem_line (hp.subset ((rtake_suffix _ _).subset h))
    · have hTake : p <+: packet.line.take 98 := by
        rw [List.prefix_take_iff]
        exact ⟨hp, hEarly.trans (by decide)⟩
      rw [find_message_iff fun h => packet.newline_not_mem_take (hTake.subset h)]
      exact find_left_none hFirst hPos

/-- A message ends no packet. -/
theorem not_rawEnd_text (message : UdmMessage) : ¬ rawEnd <:+ message.text := by
  intro h
  rw [message.text_eq_concat] at h
  have hLast : '\n' ∈ rawEnd := by
    rcases List.suffix_concat_iff.mp h with hNil | ⟨front, hFront, -⟩
    · cases hNil
    · rw [hFront]
      exact List.mem_append_right _ (List.mem_singleton_self _)
  exact absurd hLast (by decide)

/-- While a second message is read, a packet is seen if and only if the first message
begins one that the second ends. -/
theorem second_packet_iff (hLong : 48 ≤ first.text.length) (hp : p <+: message.text) :
    find packetPattern ((cleanBuffer first.text ++ p).rtake 95) ≠ none ↔
      rawStart <+: first.left p.length ∧ rawEnd <:+ p := by
  have hEnd := hp.length_le
  have hBody := message.length_body
  have hText := message.length_text
  constructor
  · intro h
    rcases Nat.lt_or_ge p.length 95 with hShort | hWhole
    · exact parts_of_packet hShort h
    · have hEq : p = message.text := hp.eq_of_length (by omega)
      have hG := packet_getElem? (by omega) h
      have hThird : message.text[2]? = some 'M' := rfl
      have hIndex : p.length - 93 = 2 := by omega
      rw [hIndex, hEq, hThird] at hG
      cases hG
  · rintro ⟨hStart, hStop⟩ hNone
    have hFull : ((cleanBuffer first.text ++ p).rtake 95).length = 95 := by
      rw [length_rtake, cleanBuffer, List.length_append, List.length_append, List.length_replicate]
      omega
    have hWindow : p <:+ (cleanBuffer first.text ++ p).rtake 95 := by
      rw [rtake_append_of_length_le (by omega)]
      exact List.suffix_append _ _
    rw [packetPattern, find_frame hFull, if_pos] at hNone
    · cases hNone
    · refine ⟨?_, hStop.trans hWindow⟩
      rw [window_cleaned]
      exact hStart.trans (List.prefix_append _ _)

theorem newline_suffix_text (message : UdmMessage) : ['\n'] <:+ message.text :=
  List.suffix_append _ _

/-- Exactly when the second message is found as it is when it is complete. -/
theorem second_found_iff : find messagePattern ((cleanBuffer first.text ++ message.text).rtake 95) =
      some message.text ↔ ¬ udmStart <:+: first.left message.text.length := by
  have hBody := message.length_body
  have hText := message.length_text
  have hWindow := window_cleaned first message.text
  constructor
  · intro hFound hInfix
    obtain ⟨s, hStart, hs⟩ := List.infix_iff_prefix_suffix.mp hInfix
    have hTextEnd : message.text <:+
        (List.replicate first.text.length '0' ++ message.text).rtake 95 := by
      rw [rtake_append_of_length_le (by omega)]
      exact List.suffix_append _ _
    generalize (List.replicate first.text.length '0' ++ message.text).rtake 95 = rest at *
    have hSuffix : s ++ rest <:+ (cleanBuffer first.text ++ message.text).rtake 95 := by
      rw [hWindow]
      obtain ⟨front, hFront⟩ := hs
      exact ⟨front, by rw [← List.append_assoc, hFront]⟩
    have hMark : 4 ≤ s.length := hStart.length_le
    have hRest := hTextEnd.length_le
    have hLong : 6 ≤ (s ++ rest).length := by
      rw [List.length_append]
      omega
    have hLength := length_le_of_find_lineUpTo hSuffix (hStart.trans (List.prefix_append _ _))
      ((newline_suffix_text message).trans (hTextEnd.trans (List.suffix_append _ _))) hLong hFound
    rw [List.length_append] at hLength
    omega
  · intro hInfix
    rcases Nat.lt_or_ge message.text.length 95 with hShort | hWhole
    · obtain ⟨n, hn⟩ := window_zeros first hShort
      have hSplit : first.left message.text.length ++
          (List.replicate n '0' ++ '0' :: message.text) =
            (first.left message.text.length ++ List.replicate (n + 1) '0') ++ message.text := by
        rw [List.replicate_succ', List.append_assoc, List.append_assoc]
        rfl
      rw [hn, hSplit]
      refine find_lineUpTo_of_first (List.cons_ne_nil _ _) ?_
      intro s hs hNil hStart
      rcases List.suffix_or_suffix_of_suffix hs (List.suffix_append _ _) with hZeros | hFront
      · cases s with
        | nil => exact hNil rfl
        | cons c s =>
            have hZero := List.eq_of_mem_replicate (hZeros.subset (List.mem_cons_self ..))
            rw [List.cons_append, udmStart, List.cons_prefix_cons, hZero] at hStart
            exact absurd hStart.1 (by decide)
      · obtain ⟨front, rfl⟩ := hFront
        obtain ⟨before, hBefore⟩ := hs
        rw [← List.append_assoc] at hBefore
        have hLeft : before ++ front = first.left message.text.length :=
          List.append_cancel_right hBefore
        rw [List.replicate_succ, List.append_assoc, List.cons_append] at hStart
        have hMark : udmStart <+: front := prefix_of_prefix_append hStart (by decide)
        rw [← hLeft] at hInfix
        exact hInfix (hMark.isInfix.trans (List.suffix_append before front).isInfix)
    · have hFound : find messagePattern ([] ++ message.text) = some message.text :=
        message.find_messagePattern List.not_mem_nil
      rw [rtake_full hWhole, rtake_of_length_le (by omega)]
      exact hFound

/-- A second message is recognized if and only if it is not disturbed. -/
theorem shows_second_iff (hFirst : find messagePattern (first.left 1) = none) :
    Shows (cleanBuffer first.text) message ↔ Undisturbed first (.udm message) := by
  have hLong := length_of_find_left hFirst
  have hText := message.length_text
  constructor
  · intro h
    refine ⟨hFirst, second_found_iff.mp h.found, ?_⟩
    rintro n ⟨hStart, hStop⟩
    rcases Nat.lt_or_ge (n + 1) message.text.length with hPart | hWhole
    · have hLength : (message.text.take (n + 1)).length = n + 1 := by
        rw [List.length_take]
        omega
      have hTake : message.text.take (n + 1) <+: message.text.dropLast := by
        rw [List.dropLast_eq_take]
        exact List.take_prefix_take_left (by omega)
      have hNil : message.text.take (n + 1) ≠ [] := by
        rw [← List.length_pos_iff, hLength]
        exact Nat.succ_pos n
      refine (second_packet_iff hLong (List.take_prefix _ _)).mpr ?_ (h.quiet _ hTake hNil).1
      rw [hLength]
      exact ⟨hStart, hStop⟩
    · rw [List.take_of_length_le hWhole] at hStop
      exact not_rawEnd_text message hStop
  · rintro ⟨-, hInfix, hPackets⟩
    have hNone (q : Text) (hq : q <+: message.text) (hNil : q ≠ []) :
        find packetPattern ((cleanBuffer first.text ++ q).rtake 95) = none := by
      by_contra hSome
      obtain ⟨hStart, hStop⟩ := (second_packet_iff hLong hq).mp hSome
      have hPos : 0 < q.length := List.length_pos_iff.mpr hNil
      apply hPackets (q.length - 1)
      rw [Nat.sub_add_cancel hPos, ← List.prefix_iff_eq_take.mp hq]
      exact ⟨hStart, hStop⟩
    constructor
    · intro q hq hNil
      refine ⟨hNone q (hq.trans (List.dropLast_prefix _)) hNil, ?_⟩
      rw [find_message_iff fun h => message.newline_not_mem_dropLast (hq.subset h)]
      exact find_left_none hFirst (List.length_pos_iff.mpr hNil)
    · exact hNone _ List.prefix_rfl message.text_ne_nil
    · exact second_found_iff.mpr hInfix

/-- One list of actions is expected for each byte. -/
theorem length_recognized (line : Line) : line.recognized.length = line.text.length := by
  cases line with
  | raw packet =>
      rw [Line.recognized, Line.text, packet.length_line]
      rfl
  | udm message =>
      have hText := message.length_text
      rw [Line.recognized, Line.text, List.length_append, List.length_replicate,
        List.length_singleton]
      omega

/-- Every line begins with a letter at which nothing is to be done. -/
theorem exists_first (line : Line) : ∃ c text actions, c ≠ '\n' ∧ line.text = c :: text ∧
    line.recognized = [] :: actions := by
  cases line with
  | raw packet =>
      refine ⟨'D', rawStart.tail ++ _, _, by decide, packet.line_parts, rfl⟩
  | udm message =>
      have hText := message.length_text
      have hMore : message.text.length - 1 = message.body.length + 4 + 1 := by omega
      refine ⟨'U', _, List.replicate (message.body.length + 4) [] ++
        [[messageAction message.text]], by decide, rfl, ?_⟩
      rw [Line.recognized, hMore, List.replicate_succ]
      rfl

/-- A second line that is recognized has not been disturbed. -/
theorem undisturbed_of_emitted (hPermit : state.mainCyclePermit = true) {second : Line}
    (h : (mainCycle alt).emitted (some ⟨state, cleanBuffer first.text⟩) second.text =
      second.recognized) : Undisturbed first second := by
  have hFirst : find messagePattern (first.left 1) = none := by
    obtain ⟨c, text, actions, hNewline, hText, hActions⟩ := exists_first second
    rw [hText, hActions, emitted_some_cons] at h
    have hQuiet : Quiet (addByteToBuffer (cleanBuffer first.text) c) := by
      by_contra hNot
      exact readByte_not_quiet hNot (List.cons.inj h).1
    have hSingle : '\n' ∉ [c] := by
      rw [List.mem_singleton]
      exact hNewline.symm
    exact (find_message_iff hSingle).mp hQuiet.2
  cases second with
  | raw packet => exact ⟨hFirst, trivial⟩
  | udm message => exact (shows_second_iff hFirst).mp (shows_of_emitted hPermit h)

/-- Behind a first message the lines are recognized if and only if the next one is not
disturbed and all go on. -/
theorem emitted_second_iff (hPermit : state.mainCyclePermit = true) (first : UdmMessage)
    (second : Line) (rest : List Line) :
    (mainCycle alt).emitted (some ⟨state, cleanBuffer first.text⟩)
        ((second :: rest).flatMap Line.text) = (second :: rest).flatMap Line.recognized ↔
      AllContinue alt state.otaImageTableSegments (second :: rest) ∧ Undisturbed first second := by
  have hOnly (h : (mainCycle alt).emitted (some ⟨state, cleanBuffer first.text⟩)
      ((second :: rest).flatMap Line.text) = (second :: rest).flatMap Line.recognized) :
      Undisturbed first second := by
    rw [List.flatMap_cons, List.flatMap_cons, Transducer.emitted_append] at h
    have hLengths : ((mainCycle alt).emitted (some ⟨state, cleanBuffer first.text⟩)
        second.text).length = second.recognized.length := by
      rw [length_emitted, length_recognized]
    exact undisturbed_of_emitted hPermit (List.append_inj_left h hLengths)
  have hLines (hUndisturbed : Undisturbed first second) :
      (mainCycle alt).emitted (some ⟨state, cleanBuffer first.text⟩)
        ((second :: rest).flatMap Line.text) = (second :: rest).flatMap Line.recognized ↔
      AllContinue alt state.otaImageTableSegments (second :: rest) := by
    have hLong := length_of_find_left hUndisturbed.1
    cases second with
    | raw packet =>
        apply emitted_raw_cons hPermit packet fun q hq hNil hText =>
          quiet_of_second_raw hUndisturbed.1 hq hNil hText
        intro next hNext hTable
        rw [← hTable]
        exact emitted_lines_iff rest hNext (settled_line packet) (full_line packet)
    | udm message =>
        rw [emitted_udm_cons hPermit ((shows_second_iff hUndisturbed.1).mpr hUndisturbed),
          allContinue_udm_cons]
        have hBuffer : (cleanBuffer first.text).length = 2 * first.text.length := by
          rw [cleanBuffer, List.length_append, List.length_replicate, Nat.two_mul]
        obtain ⟨hNext, hNextFull⟩ := settled_of_message message
          (show 95 ≤ (cleanBuffer first.text).length + message.text.length by omega)
        exact emitted_lines_iff rest hPermit hNext hNextFull
  constructor
  · intro h
    exact ⟨(hLines (hOnly h)).mp h, hOnly h⟩
  · intro h
    exact (hLines h.2).mpr h.1

theorem settled_nil : Settled [] :=
  ⟨List.not_mem_nil, List.not_mem_nil⟩

/-- **Exactly-once recognition.** From the start of `main_cycle` every line is recognized,
at its own byte and at no other, if and only if no packet ends the cycle before the last
line and a first message does not disturb the line behind it. -/
theorem recognized_iff (alt : Bool) (state : RouterState) (lines : List Line) :
    (mainCycle alt).emitted (startCycle state) (lines.flatMap Line.text) =
        lines.flatMap Line.recognized ↔
      AllContinue alt state.otaImageTableSegments lines ∧
        ∀ first second rest, lines = .udm first :: second :: rest → Undisturbed first second := by
  rw [startCycle]
  have hPermit : ({ state with mainCyclePermit := true } : RouterState).mainCyclePermit = true := rfl
  cases lines with
  | nil =>
      constructor
      · intro _
        exact ⟨fun _ h => absurd h List.not_mem_nil, fun _ _ _ h => by cases h⟩
      · intro _
        rfl
  | cons line lines =>
      cases line with
      | raw packet =>
          rw [and_iff_left fun _ _ _ h => by cases h]
          apply emitted_raw_cons hPermit packet fun q hq hNil hText =>
            quiet_of_raw settled_nil hq hNil hText
          intro next hNext hTable
          rw [← hTable]
          exact emitted_lines_iff lines hNext (settled_line packet) (full_line packet)
      | udm first =>
          have hBuffer : cleanBuffer (([] ++ first.text).rtake 95) = cleanBuffer first.text := by
            have hLength := first.length_text
            have hBody := first.length_body
            rw [List.nil_append, rtake_of_length_le (by omega)]
          rw [emitted_udm_cons hPermit (shows_of_settled settled_nil first), hBuffer,
            allContinue_udm_cons]
          cases lines with
          | nil =>
              constructor
              · intro _
                exact ⟨fun _ h => absurd h List.not_mem_nil, fun _ _ _ h => by cases h⟩
              · intro _
                rfl
          | cons second rest =>
              rw [emitted_second_iff hPermit]
              apply and_congr_right
              intro _
              constructor
              · intro h first' second' rest' hLines
                cases hLines
                exact h
              · intro h
                exact h first second rest rfl

/-- The request of the coordinator for the time. -/
def timeSyncMessage : UdmMessage where
  body := "Time sync needed".toList
  newline_not_mem := by decide
  length_body := by decide

/-- Two requests: the first one is answered three times, the second one is torn apart by
the zeros and never answered. -/
theorem recognized_fails :
    ((mainCycle false).emitted (startCycle initialState)
      ([Line.udm timeSyncMessage, .udm timeSyncMessage].flatMap Line.text)).flatten =
        [.rootTimeSync, .rootTimeSync, .rootTimeSync] ∧
    ([Line.udm timeSyncMessage, .udm timeSyncMessage].flatMap Line.recognized).flatten =
        [.rootTimeSync, .rootTimeSync] := by
  decide +kernel

end Smarthome.Router
