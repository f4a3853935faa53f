import Smarthome.Router.MainCycle

/-! Which streams of lines `main_cycle` recognizes line by line. -/
namespace Smarthome.Router

open Semantics LuaPattern Window Coordinator

namespace RawPacket

/-- What holds of all digits holds in both captures. -/
theorem forall_mem_captures {P : Char → Prop}
    (h : ∀ d : Fin 16, P d.val.digitChar ∧ P d.val.digitChar.toUpper) (packet : RawPacket) :
    ∀ c ∈ packet.captures, P c := by
  intro c hc
  rw [captures, List.mem_append] at hc
  rcases hc with hc | hc
  · exact forall_mem_flatMap (forall_mem_hex02 fun d => (h d).1) _ c hc
  · exact forall_mem_flatMap (forall_mem_upperHex02 fun d => (h d).2) _ c hc

theorem line_parts (packet : RawPacket) :
    packet.line = rawStart ++ (packet.captures ++ (rawEnd ++ [' ', ' ', ' ', '\n'])) := by
  have hStart : "DAGROOTRAW1".toList = rawStart := by decide
  have hEnd : "RAWEND".toList = rawEnd := by decide
  have hBlanks : "   \n".toList = [' ', ' ', ' ', '\n'] := by decide
  simp only [line_eq, hStart, hEnd, hBlanks, List.append_assoc]

theorem length_line (packet : RawPacket) : packet.line.length = 99 := by
  rw [line_parts, List.length_append, List.length_append, length_captures]
  rfl

theorem length_text (packet : RawPacket) : packet.text.length = 95 := by
  rw [text, List.length_take, length_line]
  rfl

/-- A letter that is no digit is in a line where it is in one of the fixed parts. -/
theorem not_mem_parts (packet : RawPacket) {c : Char}
    (hDigit : ∀ d : Fin 16, c ≠ d.val.digitChar ∧ c ≠ d.val.digitChar.toUpper)
    {before after : Text} (hBefore : c ∉ before) (hAfter : c ∉ after) :
    c ∉ before ++ (packet.captures ++ after) := by
  have hCaptures := packet.forall_mem_captures (P := fun d => c ≠ d) hDigit
  rw [List.mem_append, List.mem_append]
  rintro (h | h | h)
  · exact hBefore h
  · exact hCaptures c h rfl
  · exact hAfter h

theorem u_not_mem_line (packet : RawPacket) : 'U' ∉ packet.line := by
  rw [line_parts]
  exact packet.not_mem_parts (by decide) (by decide) (by decide)

theorem g_not_mem_drop (packet : RawPacket) : 'G' ∉ packet.line.drop 5 := by
  rw [line_parts, List.drop_append_of_le_length (by decide)]
  exact packet.not_mem_parts (by decide) (by decide) (by decide)

/-- A line up to some place behind its captures. -/
theorem take_line (packet : RawPacket) (before after : Text)
    (h : rawEnd ++ [' ', ' ', ' ', '\n'] = before ++ after) :
    packet.line.take (89 + before.length) = rawStart ++ (packet.captures ++ before) := by
  have hParts : packet.line = (rawStart ++ (packet.captures ++ before)) ++ after := by
    rw [line_parts, h, List.append_assoc, List.append_assoc]
  rw [hParts]
  apply List.take_left'
  rw [List.length_append, List.length_append, length_captures, ← Nat.add_assoc]
  rfl

theorem n_not_mem_take (packet : RawPacket) : 'N' ∉ packet.line.take 92 := by
  have hTake : packet.line.take 92 = rawStart ++ (packet.captures ++ ['R', 'A', 'W']) :=
    packet.take_line ['R', 'A', 'W'] ['E', 'N', 'D', ' ', ' ', ' ', '\n'] rfl
  rw [hTake]
  exact packet.not_mem_parts (by decide) (by decide) (by decide)

theorem newline_not_mem_take (packet : RawPacket) : '\n' ∉ packet.line.take 98 := by
  have hTake : packet.line.take 98 =
      rawStart ++ (packet.captures ++ (rawEnd ++ [' ', ' ', ' '])) :=
    packet.take_line (rawEnd ++ [' ', ' ', ' ']) ['\n'] rfl
  rw [hTake]
  exact packet.not_mem_parts (by decide) (by decide) (by decide)

theorem text_parts (packet : RawPacket) :
    packet.text = rawStart ++ (packet.captures ++ rawEnd) :=
  packet.take_line rawEnd [' ', ' ', ' ', '\n'] rfl

/-- A line begins with the mark of a packet. -/
theorem getElem?_line (packet : RawPacket) {i : Nat} (hi : i < 11) :
    packet.line[i]? = rawStart[i]? := by
  rw [line_parts, List.getElem?_append_left hi]

/-- The text and the three blanks with the newline behind it. -/
theorem line_eq_text (packet : RawPacket) :
    packet.line = packet.text ++ [' ', ' ', ' ', '\n'] := by
  rw [line_parts, text_parts, List.append_assoc, List.append_assoc]

theorem find_packetPattern (packet : RawPacket) :
    find packetPattern packet.text = some packet.text := by
  rw [packetPattern, find_frame packet.length_text, if_pos]
  rw [text_parts]
  constructor
  · exact List.prefix_append _ _
  · rw [← List.append_assoc]
    exact List.suffix_append _ _

end RawPacket

namespace UdmMessage

theorem length_text (message : UdmMessage) : message.text.length = message.body.length + 6 := by
  rw [text, List.length_append, List.length_append, List.length_cons]
  simp only [udmStart, List.length_cons, List.length_nil]
  omega

theorem text_ne_nil (message : UdmMessage) : message.text ≠ [] := by
  rw [← List.length_pos_iff, length_text]
  exact Nat.succ_pos _

/-- The text before the newline. -/
theorem newline_not_mem_dropLast (message : UdmMessage) : '\n' ∉ message.text.dropLast := by
  rw [text, List.dropLast_concat, List.mem_append, List.mem_cons]
  rintro (h | h | h)
  · exact absurd h (by decide)
  · exact absurd h (by decide)
  · exact message.newline_not_mem h

theorem text_eq_concat (message : UdmMessage) : message.text = message.text.dropLast ++ ['\n'] := by
  rw [text, List.dropLast_concat]

/-- Where it begins, a message is found as a whole. -/
theorem find_messagePattern (message : UdmMessage) {before : Text} (h : 'U' ∉ before) :
    find messagePattern (before ++ message.text) = some message.text :=
  find_lineUpTo h (List.cons_ne_nil _ _)

end UdmMessage

/-- The last bytes of the buffer hold no letter with which a search could begin. -/
def Settled (buffer : Text) : Prop := 'U' ∉ buffer.rtake 94 ∧ 'G' ∉ buffer.rtake 94

variable {alt : Bool} {state : RouterState} {buffer p : Text} {packet : RawPacket}
  {message : UdmMessage}

/-- A packet in the window has its letter G at one place only. -/
theorem getElem?_of_packet (h : find packetPattern ((buffer ++ p).rtake 95) ≠ none) :
    95 ≤ buffer.length + p.length ∧
      (buffer ++ p)[buffer.length + p.length - 93]? = some 'G' := by
  have hLength := length_rtake (buffer ++ p) 95
  rw [List.length_append] at hLength
  have hLong : 95 ≤ buffer.length + p.length := by
    by_contra hShort
    apply h
    apply find_frame_short
    rw [hLength]
    show min 95 (buffer.length + p.length) < 95
    omega
  have hFull : ((buffer ++ p).rtake 95).length = 95 := by omega
  rw [packetPattern, find_frame hFull] at h
  have hStart : rawStart <+: (buffer ++ p).rtake 95 := by
    by_contra hNot
    exact h (if_neg fun hBoth => hNot hBoth.1)
  obtain ⟨rest, hRest⟩ := hStart
  refine ⟨hLong, ?_⟩
  have hIndex : buffer.length + p.length - 93 = buffer.length + p.length - 95 + 2 := by omega
  rw [hIndex, ← List.getElem?_drop, ← List.length_append]
  show ((buffer ++ p).rtake 95)[2]? = some 'G'
  rw [← hRest]
  rfl

/-- In front of the second half of a line the window shows no packet. -/
theorem packet_none_of_settled (hSettled : Settled buffer) (hNil : p ≠ []) (hShort : p.length ≤ 92) :
    find packetPattern ((buffer ++ p).rtake 95) = none := by
  by_contra h
  obtain ⟨hLong, hG⟩ := getElem?_of_packet h
  have hPos : 0 < p.length := List.length_pos_iff.mpr hNil
  apply hSettled.2
  have hIndex : buffer.length + p.length - 93 =
      buffer.length - 94 + (buffer.length + p.length - 93 - (buffer.length - 94)) := by omega
  rw [List.getElem?_append_left (by omega), hIndex, ← List.getElem?_drop] at hG
  exact List.mem_of_getElem? hG

/-- Behind it, the letter is one of the line. -/
theorem packet_getElem? (hLong : 93 ≤ p.length)
    (h : find packetPattern ((buffer ++ p).rtake 95) ≠ none) : p[p.length - 93]? = some 'G' := by
  obtain ⟨-, hG⟩ := getElem?_of_packet h
  have hIndex : buffer.length + p.length - 93 - buffer.length = p.length - 93 := by omega
  rwa [List.getElem?_append_right (by omega), hIndex] at hG

theorem getElem?_of_prefix {text : Text} (hp : p <+: text) {i : Nat} (hi : i < p.length) :
    text[i]? = p[i]? := by
  obtain ⟨rest, rfl⟩ := hp
  exact List.getElem?_append_left hi

theorem packet_none_of_late (hp : p <+: packet.line) (hLong : 93 ≤ p.length)
    (hText : p.length ≠ 95) : find packetPattern ((buffer ++ p).rtake 95) = none := by
  by_contra h
  have hG := packet_getElem? hLong h
  have hEnd := hp.length_le
  rw [packet.length_line] at hEnd
  rw [← getElem?_of_prefix hp (by omega), packet.getElem?_line (by omega)] at hG
  have hOnly : ∀ i < 7, rawStart[i]? = some 'G' → i = 2 := by decide
  have hTwo := hOnly _ (by omega) hG
  omega

/-- Only the last bytes of the buffer can still be seen after another byte. -/
theorem window_eq (hNil : p ≠ []) :
    (buffer ++ p).rtake 95 = (buffer.rtake 94 ++ p).rtake 95 := by
  have hPos : 0 < p.length := List.length_pos_iff.mpr hNil
  rw [rtake_rtake_append _ _ (by omega)]

theorem message_none_of_settled (hSettled : Settled buffer) (hU : 'U' ∉ p) (hNil : p ≠ []) :
    find messagePattern ((buffer ++ p).rtake 95) = none := by
  apply find_lineUpTo_of_not_mem
  intro hMem
  rw [window_eq hNil] at hMem
  have hParts := (rtake_suffix _ _).subset hMem
  rw [List.mem_append] at hParts
  exact hParts.elim hSettled.1 hU

/-- A raw line shows a packet when its text is complete, and nothing else. -/
theorem quiet_of_raw (hSettled : Settled buffer) (hp : p <+: packet.line) (hNil : p ≠ [])
    (hText : p.length ≠ 95) : Quiet ((buffer ++ p).rtake 95) := by
  constructor
  · rcases Nat.lt_or_ge 92 p.length with hLate | hEarly
    · exact packet_none_of_late hp hLate hText
    · exact packet_none_of_settled hSettled hNil hEarly
  · exact message_none_of_settled hSettled (fun h => packet.u_not_mem_line (hp.subset h)) hNil

/-- The state in which `main_cycle` goes on after a packet. -/
def goesOn (alt : Bool) (state : RouterState) (packet : RawPacket) : Option RouterState :=
  match packetParse alt state packet.text with
  | .error _ => none
  | .ok next => if next.mainCyclePermit = true then some next else none

/-- The turn in which the text of a packet is complete. -/
theorem readByte_text {byte : Char} (hWindow : addByteToBuffer buffer byte = packet.text) :
    readByte alt ⟨state, buffer⟩ byte = ([.packetParse packet.text],
      (goesOn alt state packet).map fun next => ⟨next, packet.text⟩) := by
  have hMessage : find messagePattern packet.text = none := by
    apply find_lineUpTo_of_not_mem
    exact fun h => packet.u_not_mem_line (List.take_subset _ _ h)
  dsimp only [readByte, goesOn]
  rw [hWindow, packet.find_packetPattern]
  dsimp only
  cases packetParse alt state packet.text with
  | error stop => rfl
  | ok next =>
      dsimp only
      rw [searchMessage_none hMessage, nextTurn]
      by_cases hNext : next.mainCyclePermit = true
      · rw [if_pos hNext, if_pos hNext, Option.map_some]
      · rw [if_neg hNext, if_neg hNext, Option.map_none]

theorem goesOn_eq_some {next : RouterState} (h : goesOn alt state packet = some next) :
    packetParse alt state packet.text = .ok next ∧ next.mainCyclePermit = true := by
  unfold goesOn at h
  generalize packetParse alt state packet.text = result at h ⊢
  cases result with
  | error stop => exact absurd h (by simp)
  | ok last =>
      dsimp only at h
      split_ifs at h with hPermit
      obtain rfl := Option.some.inj h
      exact ⟨rfl, hPermit⟩

/-- A full line leaves nothing of what was in the buffer before. -/
theorem rtake_full (hFull : 95 ≤ p.length) : (buffer ++ p).rtake 95 = p.rtake 95 := by
  rw [rtake_append, Nat.sub_eq_zero_of_le hFull, List.rtake_zero, List.nil_append]

/-- A raw line of which no window but the one with the text is noticed. -/
theorem read_raw (hPermit : state.mainCyclePermit = true) (packet : RawPacket)
    (hQuiet : ∀ q, q <+: packet.line → q ≠ [] → q.length ≠ 95 → Quiet ((buffer ++ q).rtake 95)) :
    (mainCycle alt).emitted (some ⟨state, buffer⟩) packet.line = (Line.raw packet).recognized ∧
    (mainCycle alt).after (some ⟨state, buffer⟩) packet.line =
      (goesOn alt state packet).map fun next => ⟨next, packet.line.rtake 95⟩ := by
  have hLength := packet.length_text
  obtain ⟨first, last, hText⟩ : ∃ first last, packet.text = first ++ [last] := by
    rcases List.eq_nil_or_concat packet.text with h | ⟨first, last, h⟩
    · rw [h] at hLength
      cases hLength
    · exact ⟨first, last, by rw [h, List.concat_eq_append]⟩
  have hFirst : first.length = 94 := by
    rw [hText, List.length_append, List.length_singleton] at hLength
    exact Nat.succ.inj hLength
  have hNil : first ≠ [] := by
    rintro rfl
    cases hFirst
  have hLine : packet.line = first ++ last :: [' ', ' ', ' ', '\n'] := by
    rw [packet.line_eq_text, hText, List.append_assoc]
    rfl
  have hBefore (q : Text) (hq : q <+: first) (hNil : q ≠ []) :
      Quiet ((buffer ++ q).rtake 95) := by
    refine hQuiet q (hq.trans ?_) hNil (Nat.ne_of_lt ?_)
    · rw [hLine]
      exact List.prefix_append _ _
    · have hEnd := hq.length_le
      omega
  have hAfter (q : Text) (hq : q <+: [' ', ' ', ' ', '\n']) (hNil : q ≠ []) :
      Quiet ((packet.text ++ q).rtake 95) := by
    have hPos : 0 < q.length := List.length_pos_iff.mpr hNil
    have hLong : 95 < (packet.text ++ q).length := by
      rw [List.length_append, hLength]
      omega
    have hFull : (buffer ++ (packet.text ++ q)).rtake 95 = (packet.text ++ q).rtake 95 :=
      rtake_full hLong.le
    rw [← hFull]
    refine hQuiet _ ?_ ?_ hLong.ne'
    · rw [packet.line_eq_text]
      exact (List.prefix_append_right_inj _).mpr hq
    · exact List.append_ne_nil_of_right_ne_nil _ hNil
  have hWindow : addByteToBuffer ((buffer ++ first).rtake 95) last = packet.text := by
    rw [addByteToBuffer, rtake_rtake_append _ _ (Nat.le_add_right _ _), List.append_assoc,
      ← hText, rtake_full hLength.ge, rtake_of_length_le hLength.le]
  have hStart : (mainCycle alt).emitted (some ⟨state, buffer⟩) first =
      List.replicate first.length [] := (emitted_eq_replicate_iff hPermit first).mpr hBefore
  rw [hLine, Transducer.emitted_append, Transducer.after_append, hStart, hFirst,
    after_of_quiet hPermit hBefore hNil, emitted_some_cons, after_some_cons, readByte_text hWindow]
  cases hNext : goesOn alt state packet with
  | none =>
      refine ⟨?_, rfl⟩
      dsimp only [Option.map_none]
      rw [emitted_none, Line.recognized, List.append_assoc]
      rfl
  | some next =>
      have hPermitNext := (goesOn_eq_some hNext).2
      have hRest : (mainCycle alt).emitted (some ⟨next, packet.text⟩) [' ', ' ', ' ', '\n'] =
          List.replicate 4 [] := (emitted_eq_replicate_iff hPermitNext _).mpr hAfter
      dsimp only [Option.map_some]
      rw [hRest, after_of_quiet hPermitNext hAfter (List.cons_ne_nil _ _), Line.recognized,
        List.append_assoc, ← packet.line_eq_text, ← hLine]
      exact ⟨rfl, rfl⟩

/-- What the windows have to show for a message to be recognized. -/
structure Shows (buffer : Text) (message : UdmMessage) : Prop where
  quiet : ∀ q, q <+: message.text.dropLast → q ≠ [] → Quiet ((buffer ++ q).rtake 95)
  noPacket : find packetPattern ((buffer ++ message.text).rtake 95) = none
  found : find messagePattern ((buffer ++ message.text).rtake 95) = some message.text

theorem dropLast_ne_nil (message : UdmMessage) : message.text.dropLast ≠ [] := by
  rw [← List.length_pos_iff, List.length_dropLast, message.length_text]
  omega

/-- The window when a message is complete. -/
theorem window_of_text (buffer : Text) (message : UdmMessage) :
    addByteToBuffer ((buffer ++ message.text.dropLast).rtake 95) '\n' =
      (buffer ++ message.text).rtake 95 := by
  rw [addByteToBuffer, rtake_rtake_append _ _ (Nat.le_add_right _ _), List.append_assoc,
    ← message.text_eq_concat]

theorem read_udm (hPermit : state.mainCyclePermit = true) (h : Shows buffer message) :
    (mainCycle alt).emitted (some ⟨state, buffer⟩) message.text =
      (Line.udm message).recognized ∧
    (mainCycle alt).after (some ⟨state, buffer⟩) message.text =
      some ⟨state, cleanBuffer ((buffer ++ message.text).rtake 95)⟩ := by
  have hStart : (mainCycle alt).emitted (some ⟨state, buffer⟩) message.text.dropLast =
      List.replicate message.text.dropLast.length [] :=
    (emitted_eq_replicate_iff hPermit _).mpr h.quiet
  have hLast : readByte alt ⟨state, (buffer ++ message.text.dropLast).rtake 95⟩ '\n' =
      ([messageAction message.text],
        some ⟨state, cleanBuffer ((buffer ++ message.text).rtake 95)⟩) := by
    rw [← window_of_text]
    apply readByte_message hPermit
    · rw [window_of_text]
      exact h.noPacket
    · rw [window_of_text]
      exact h.found
  rw [List.length_dropLast] at hStart
  rw [message.text_eq_concat, Transducer.emitted_append, Transducer.after_append, hStart,
    after_of_quiet hPermit h.quiet (dropLast_ne_nil message), emitted_some_cons, after_some_cons,
    hLast, ← message.text_eq_concat]
  exact ⟨rfl, rfl⟩

theorem shows_of_emitted (hPermit : state.mainCyclePermit = true)
    (h : (mainCycle alt).emitted (some ⟨state, buffer⟩) message.text =
      (Line.udm message).recognized) : Shows buffer message := by
  have hSplit := h
  rw [message.text_eq_concat, Transducer.emitted_append, Line.recognized] at hSplit
  have hLengths : ((mainCycle alt).emitted (some ⟨state, buffer⟩) message.text.dropLast).length =
      (List.replicate (message.text.length - 1) ([] : List Action)).length := by
    rw [length_emitted, List.length_dropLast, List.length_replicate]
  obtain ⟨hStart, hLast⟩ := List.append_inj hSplit hLengths
  rw [← List.length_dropLast] at hStart
  have hQuiet := (emitted_eq_replicate_iff hPermit _).mp hStart
  rw [after_of_quiet hPermit hQuiet (dropLast_ne_nil message), emitted_some_cons] at hLast
  obtain ⟨hPacket, hMessage⟩ := readByte_message_iff.mp (List.cons.inj hLast).1
  rw [window_of_text] at hPacket hMessage
  exact ⟨hQuiet, hPacket, hMessage⟩

theorem not_mem_rtake {c : Char} (h : c ∉ buffer.rtake 94) {n : Nat} (hn : n ≤ 94) :
    c ∉ buffer.rtake n := by
  rw [← rtake_rtake buffer hn]
  exact fun hMem => h ((rtake_suffix _ _).subset hMem)

/-- While a message is read into a settled buffer, the window shows no packet. -/
theorem packet_none_of_message (hSettled : Settled buffer) (hp : p <+: message.text)
    (hNil : p ≠ []) : find packetPattern ((buffer ++ p).rtake 95) = none := by
  rcases Nat.lt_or_ge 92 p.length with hLate | hEarly
  · by_contra h
    have hG := packet_getElem? hLate h
    have hEnd := hp.length_le
    have hBody := message.length_body
    have hLength := message.length_text
    have hStart : ∀ i < 3, udmStart[i]? ≠ some 'G' := by decide
    have hIndex : message.text[p.length - 93]? = udmStart[p.length - 93]? := by
      rw [UdmMessage.text, List.append_assoc]
      exact List.getElem?_append_left (show p.length - 93 < 4 by omega)
    rw [← getElem?_of_prefix hp (by omega), hIndex] at hG
    exact hStart _ (by omega) hG
  · exact packet_none_of_settled hSettled hNil hEarly

/-- A message that is read into a settled buffer is recognized. -/
theorem shows_of_settled (hSettled : Settled buffer) (message : UdmMessage) :
    Shows buffer message := by
  have hBody := message.length_body
  have hLength := message.length_text
  constructor
  · intro q hq hNil
    have hText : q <+: message.text := hq.trans (List.dropLast_prefix _)
    have hPos : 0 < q.length := List.length_pos_iff.mpr hNil
    refine ⟨packet_none_of_message hSettled hText hNil, ?_⟩
    have hEnd := hText.length_le
    rw [rtake_append_of_length_le (by omega), messagePattern, find_lineUpTo_append_eq_none_iff
      fun h => message.newline_not_mem_dropLast (hq.subset h)]
    exact find_lineUpTo_of_not_mem (not_mem_rtake hSettled.1 (by omega))
  · exact packet_none_of_message hSettled List.prefix_rfl message.text_ne_nil
  · rw [rtake_append_of_length_le (by omega)]
    exact message.find_messagePattern (not_mem_rtake hSettled.1 (by omega))

/-- Zeros settle the buffer if there are enough of them. -/
theorem settled_cleanBuffer {window : Text} (hLong : 94 ≤ window.length) :
    Settled (cleanBuffer window) := by
  have hZeros : ∀ c ∈ (cleanBuffer window).rtake 94, c = '0' := by
    intro c hc
    rw [cleanBuffer, rtake_append, List.length_replicate, Nat.sub_eq_zero_of_le hLong,
      List.rtake_zero, List.nil_append] at hc
    exact List.eq_of_mem_replicate ((rtake_suffix _ _).subset hc)
  constructor
  · exact fun h => absurd (hZeros _ h) (by decide)
  · exact fun h => absurd (hZeros _ h) (by decide)

theorem settled_line (packet : RawPacket) : Settled (packet.line.rtake 95) := by
  have hDrop : (packet.line.rtake 95).rtake 94 = packet.line.drop 5 := by
    rw [rtake_rtake _ (by decide), List.rtake, packet.length_line]
  constructor
  · rw [hDrop]
    exact fun h => packet.u_not_mem_line (List.drop_subset _ _ h)
  · rw [hDrop]
    exact packet.g_not_mem_drop

theorem full_line (packet : RawPacket) : 94 ≤ (packet.line.rtake 95).length := by
  rw [length_rtake, packet.length_line]
  decide

/-- The buffer behind a message that came when there was enough before it. -/
theorem settled_of_message (message : UdmMessage)
    (hLong : 95 ≤ buffer.length + message.text.length) :
    Settled (cleanBuffer ((buffer ++ message.text).rtake 95)) ∧
      94 ≤ (cleanBuffer ((buffer ++ message.text).rtake 95)).length := by
  have hWindow : ((buffer ++ message.text).rtake 95).length = 95 := by
    rw [length_rtake, List.length_append]
    omega
  constructor
  · apply settled_cleanBuffer
    rw [hWindow]
    decide
  · rw [cleanBuffer, List.length_append, hWindow]
    exact Nat.le_add_right_of_le (by decide)

/-- A packet after which `main_cycle` reads on. -/
def RawPacket.Continues (packet : RawPacket) (alt : Bool) (table : Option (List (List Byte))) :
    Prop :=
  alt = true ∨ packet.Harmless table ∧ ¬ packet.UpdateSuccess

theorem goesOn_of_continues (hPermit : state.mainCyclePermit = true)
    (h : packet.Continues alt state.otaImageTableSegments) :
    ∃ next, goesOn alt state packet = some next ∧
      next.otaImageTableSegments = state.otaImageTableSegments := by
  obtain ⟨next, hNext, hTable, hNextPermit⟩ : ∃ next,
      packetParse alt state packet.text = .ok next ∧
        next.otaImageTableSegments = state.otaImageTableSegments ∧
        next.mainCyclePermit = true := by
    rw [packet.packetParse_text]
    cases alt with
    | true =>
        obtain ⟨next, hNext, hTable, hKept⟩ := packet.packetProcessingSeeAdresses_ok state
        exact ⟨next, hNext, hTable, hKept.trans hPermit⟩
    | false =>
        obtain ⟨hHarmless, hSuccess⟩ := h.resolve_left Bool.false_ne_true
        obtain ⟨next, hNext, hTable, hKept⟩ :=
          RawPacket.packetProcessing_of_harmless state hHarmless
        exact ⟨next, hNext, hTable, hKept.mpr ⟨hPermit, hSuccess⟩⟩
  refine ⟨next, ?_, hTable⟩
  unfold goesOn
  rw [hNext]
  exact if_pos hNextPermit

theorem goesOn_of_not_continues (h : ¬ packet.Continues alt state.otaImageTableSegments) :
    goesOn alt state packet = none := by
  rw [RawPacket.Continues, not_or, Bool.not_eq_true] at h
  obtain ⟨rfl, hStops⟩ := h
  unfold goesOn
  rw [packet.packetParse_text, if_neg Bool.false_ne_true]
  by_cases hHarmless : packet.Harmless state.otaImageTableSegments
  · obtain ⟨next, hNext, -, hKept⟩ := RawPacket.packetProcessing_of_harmless state hHarmless
    rw [hNext]
    exact if_neg fun hPermit => hStops ⟨hHarmless, (hKept.mp hPermit).2⟩
  · obtain ⟨stop, hStop⟩ := RawPacket.packetProcessing_of_not_harmless state hHarmless
    rw [hStop]

/-- Every packet but one in the last line lets the cycle go on. -/
def AllContinue (alt : Bool) (table : Option (List (List Byte))) (lines : List Line) : Prop :=
  ∀ packet, Line.raw packet ∈ lines.dropLast → packet.Continues alt table

theorem allContinue_udm_cons {table : Option (List (List Byte))} {lines : List Line} :
    AllContinue alt table (.udm message :: lines) ↔ AllContinue alt table lines := by
  cases lines with
  | nil => exact ⟨fun _ _ h => absurd h List.not_mem_nil, fun _ _ h => absurd h List.not_mem_nil⟩
  | cons line lines =>
      constructor
      · exact fun h packet hMem => h packet (List.mem_cons_of_mem _ hMem)
      · intro h packet hMem
        rcases List.mem_cons.mp hMem with hFirst | hRest
        · cases hFirst
        · exact h packet hRest

theorem allContinue_raw_cons {table : Option (List (List Byte))} {lines : List Line} :
    AllContinue alt table (.raw packet :: lines) ↔
      (lines ≠ [] → packet.Continues alt table) ∧ AllContinue alt table lines := by
  cases lines with
  | nil =>
      constructor
      · intro _
        exact ⟨fun h => absurd rfl h, fun _ h => absurd h List.not_mem_nil⟩
      · intro _ _ h
        exact absurd h List.not_mem_nil
  | cons line lines =>
      constructor
      · intro h
        exact ⟨fun _ => h packet (List.mem_cons_self ..),
          fun other hMem => h other (List.mem_cons_of_mem _ hMem)⟩
      · rintro ⟨hFirst, hRest⟩ other hMem
        rcases List.mem_cons.mp hMem with hEq | hMem
        · cases hEq
          exact hFirst (List.cons_ne_nil _ _)
        · exact hRest other hMem

/-- Something has to be done for every line. -/
theorem recognized_ne (line : Line) (lines : List Line) (n : Nat) :
    (line :: lines).flatMap Line.recognized ≠ List.replicate n [] := by
  intro h
  obtain ⟨actions, hMem, hActions⟩ : ∃ actions ∈ line.recognized, actions ≠ [] := by
    cases line with
    | raw packet =>
        refine ⟨[.packetParse packet.text], ?_, List.cons_ne_nil _ _⟩
        rw [Line.recognized, List.mem_append, List.mem_append, List.mem_singleton]
        exact Or.inl (Or.inr rfl)
    | udm message =>
        refine ⟨[messageAction message.text], ?_, List.cons_ne_nil _ _⟩
        rw [Line.recognized, List.mem_append, List.mem_singleton]
        exact Or.inr rfl
  have hAll : actions ∈ List.replicate n ([] : List Action) := by
    rw [← h, List.flatMap_cons]
    exact List.mem_append_left _ hMem
  exact hActions (List.eq_of_mem_replicate hAll)

/-- A raw line in front: whether the rest is recognized is decided after it. -/
theorem emitted_raw_cons (hPermit : state.mainCyclePermit = true) (packet : RawPacket)
    (hQuiet : ∀ q, q <+: packet.line → q ≠ [] → q.length ≠ 95 → Quiet ((buffer ++ q).rtake 95))
    {lines : List Line}
    (hRest : ∀ next : RouterState, next.mainCyclePermit = true →
      next.otaImageTableSegments = state.otaImageTableSegments →
      ((mainCycle alt).emitted (some ⟨next, packet.line.rtake 95⟩) (lines.flatMap Line.text) =
        lines.flatMap Line.recognized ↔ AllContinue alt state.otaImageTableSegments lines)) :
    (mainCycle alt).emitted (some ⟨state, buffer⟩) ((Line.raw packet :: lines).flatMap Line.text) =
        (Line.raw packet :: lines).flatMap Line.recognized ↔
      AllContinue alt state.otaImageTableSegments (.raw packet :: lines) := by
  obtain ⟨hEmitted, hAfter⟩ : (mainCycle alt).emitted (some ⟨state, buffer⟩) packet.line =
      (Line.raw packet).recognized ∧ (mainCycle alt).after (some ⟨state, buffer⟩) packet.line = _ :=
    read_raw hPermit packet hQuiet
  have hText : (Line.raw packet).text = packet.line := rfl
  rw [List.flatMap_cons, List.flatMap_cons, hText, Transducer.emitted_append, hEmitted, hAfter,
    List.append_right_inj, allContinue_raw_cons]
  by_cases hContinues : packet.Continues alt state.otaImageTableSegments
  · obtain ⟨next, hNext, hTable⟩ := goesOn_of_continues hPermit hContinues
    rw [hNext]
    exact (hRest next (goesOn_eq_some hNext).2 hTable).trans
      (and_iff_right fun _ => hContinues).symm
  · rw [goesOn_of_not_continues hContinues, Option.map_none, emitted_none]
    cases lines with
    | nil =>
        constructor
        · intro _
          exact ⟨fun h => absurd rfl h, fun _ h => absurd h List.not_mem_nil⟩
        · intro _
          rfl
    | cons line lines =>
        constructor
        · intro h
          exact absurd h.symm (recognized_ne line lines _)
        · intro h
          exact absurd (h.1 (List.cons_ne_nil _ _)) hContinues

/-- Behind a message that is recognized only the rest counts. -/
theorem emitted_udm_cons (hPermit : state.mainCyclePermit = true) (hShows : Shows buffer message)
    (lines : List Line) :
    (mainCycle alt).emitted (some ⟨state, buffer⟩)
        ((Line.udm message :: lines).flatMap Line.text) =
        (Line.udm message :: lines).flatMap Line.recognized ↔
      (mainCycle alt).emitted
        (some ⟨state, cleanBuffer ((buffer ++ message.text).rtake 95)⟩)
        (lines.flatMap Line.text) = lines.flatMap Line.recognized := by
  obtain ⟨hEmitted, hAfter⟩ : (mainCycle alt).emitted (some ⟨state, buffer⟩) message.text =
      (Line.udm message).recognized ∧ (mainCycle alt).after (some ⟨state, buffer⟩) message.text = _ :=
    read_udm hPermit hShows
  have hText : (Line.udm message).text = message.text := rfl
  rw [List.flatMap_cons, List.flatMap_cons, hText, Transducer.emitted_append, hEmitted, hAfter,
    List.append_right_inj]

/-- From a buffer that is full and settled all lines are recognized. -/
theorem emitted_lines_iff (lines : List Line) (hPermit : state.mainCyclePermit = true)
    (hSettled : Settled buffer) (hFull : 94 ≤ buffer.length) :
    (mainCycle alt).emitted (some ⟨state, buffer⟩) (lines.flatMap Line.text) =
        lines.flatMap Line.recognized ↔
      AllContinue alt state.otaImageTableSegments lines := by
  induction lines generalizing state buffer with
  | nil =>
      constructor
      · intro _ _ h
        exact absurd h List.not_mem_nil
      · intro _
        rfl
  | cons line lines ih =>
      cases line with
      | raw packet =>
          apply emitted_raw_cons hPermit packet fun q hq hNil hText =>
            quiet_of_raw hSettled hq hNil hText
          intro next hNext hTable
          rw [← hTable]
          exact ih hNext (settled_line packet) (full_line packet)
      | udm message =>
          rw [emitted_udm_cons hPermit (shows_of_settled hSettled message), allContinue_udm_cons]
          have hText := message.length_text
          obtain ⟨hNext, hNextFull⟩ := settled_of_message message
            (show 95 ≤ buffer.length + message.text.length by omega)
          exact ih hPermit hNext hNextFull

end Smarthome.Router
