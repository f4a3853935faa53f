import Smarthome.Contiki.Process

/-! The delivery of events: what `do_event` passes on to whom, while the threads that it
calls change the list that a broadcast goes along. -/
namespace Smarthome.Contiki

open Semantics

variable {Process : Type}

/-- The broadcast that is delivered, with the process that the walk along the list has come
to. -/
def Main.walk : Main Process → Option (EventData Process × Option Process)
  | .broadcast e p => some (e, p)
  | .deliver e p => some (e, some p)
  | .delivered e p => some (e, some p)
  | .poll _ delivery => delivery.map fun (e, p) => (e, some p)
  | .polled _ delivery => delivery.map fun (e, p) => (e, some p)
  | _ => none

/-- The part of the walk that has not been delivered to. -/
def Main.ahead (ps : List Process) : Main Process → List Process
  | .delivered _ _ => ps.tail
  | _ => ps

namespace Main

theorem mem_ahead_append {main : Main Process} {p : Process} {before : List Process}
    (after : List Process) {zs : List Process} {q : Process}
    (h : q ∈ main.ahead (before ++ p :: zs)) : q ∈ main.ahead (before ++ p :: after) ∨ q ∈ zs := by
  cases main with
  | delivered e p' =>
      cases before with
      | nil => exact Or.inr h
      | cons y ys =>
          simp only [ahead, List.cons_append, List.tail_cons, List.mem_append,
            List.mem_cons] at h ⊢
          tauto
  | _ =>
      simp only [ahead, List.mem_append, List.mem_cons] at h ⊢
      tauto

theorem mem_ahead_of_mem {main : Main Process} {p : Process} {before zs : List Process} {q : Process}
    (h : q ∈ zs) : q ∈ main.ahead (before ++ p :: zs) := by
  cases main with
  | delivered e p' =>
      cases before with
      | nil => exact h
      | cons y ys => exact List.mem_append_right _ (List.mem_cons_of_mem _ h)
  | _ => exact List.mem_append_right _ (List.mem_cons_of_mem _ h)

theorem mem_ahead_of_takesOut {main : Main Process} {next next' : Process → Option Process}
    {at' : Option Process} {ps qs : List Process} {q : Process} (hPs : IsList next at' ps)
    (hQs : IsList next' at' qs) (hMem : q ∈ ps → q ∈ qs) (h : q ∈ main.ahead ps) :
    q ∈ main.ahead qs := by
  cases main with
  | delivered e p' =>
      cases ps with
      | nil => cases h
      | cons y ys =>
          obtain rfl := hPs.1
          obtain ⟨zs, rfl, -⟩ := IsList.some_iff.mp hQs
          have hIn : q ∈ ys := h
          have hNe : q ≠ y := ne_of_mem_of_not_mem hIn (List.nodup_cons.mp hPs.nodup).1
          exact List.mem_of_ne_of_mem hNe (hMem (List.mem_cons_of_mem _ hIn))
  | _ => exact hMem h

end Main

namespace Kernel

/-- The events that have been posted, in order. -/
def postedEvents : List (Moment Process) → List (EventData Process)
  | [] => []
  | .posted e :: earlier => postedEvents earlier ++ [e]
  | _ :: earlier => postedEvents earlier

/-- The events that have been taken from the queue, in order. -/
def takenEvents : List (Moment Process) → List (EventData Process)
  | [] => []
  | .taken e :: earlier => takenEvents earlier ++ [e]
  | _ :: earlier => takenEvents earlier

/-- The event that was taken last. -/
def lastTaken : List (Moment Process) → Option (EventData Process)
  | [] => none
  | .taken e :: _ => some e
  | _ :: earlier => lastTaken earlier

/-- The processes that it has been passed to. -/
def passed : List (Moment Process) → List Process
  | [] => []
  | .taken _ :: _ => []
  | .passed p _ :: earlier => p :: passed earlier
  | _ :: earlier => passed earlier

variable [DecidableEq Process]

/-- The process was on the list when it was taken, and has not been taken off since. -/
def stayed (p : Process) : List (Moment Process) → Bool
  | [] => false
  | .taken _ :: earlier => linked p earlier
  | .unlinked q :: earlier => q ≠ p && stayed p earlier
  | _ :: earlier => stayed p earlier

/-- What is passed on is the event that was taken last, and a broadcast is finished when
all that have stayed have got it. -/
def PassesOn : List (Moment Process) → Prop
  | [] => True
  | .passed _ e :: earlier => lastTaken earlier = some e ∧ PassesOn earlier
  | .finished :: earlier => (∀ p, stayed p earlier = true → p ∈ passed earlier) ∧ PassesOn earlier
  | _ :: earlier => PassesOn earlier

/-- Each event is taken in its turn; it is passed to its receiver once at most, or to the
processes that stay on the list, and to none of them twice. -/
structure DeliversOnce (s : Kernel Process) : Prop where
  inOrder : postedEvents s.history = takenEvents s.history ++ s.events.contents
  passesOn : PassesOn s.history
  directed : ∀ e receiver, lastTaken s.history = some e → e.p = some receiver →
    passed s.history = [] ∨ passed s.history = [receiver]
  once : (passed s.history).Nodup

/-- The invariant; its last part is for runs that keep the walks. -/
structure Delivers (keeps : Prop) (s : Kernel Process) : Prop where
  inOrder : postedEvents s.history = takenEvents s.history ++ s.events.contents
  passesOn : PassesOn s.history
  directed : ∀ e receiver, lastTaken s.history = some e → e.p = some receiver →
    passed s.history = [] ∨ passed s.history = [receiver]
  stays : ∀ p, stayed p s.history = true → linked p s.history = true
  walk : ∀ e link, s.main.walk = some (e, link) → lastTaken s.history = some e ∧ e.p = none ∧
    ∃ ps, IsList s.next link ps ∧
      (∀ p, stayed p s.history = true → p ∈ passed s.history ∨ p ∈ s.main.ahead ps) ∧
      (keeps → ∀ p ∈ s.main.ahead ps, p ∉ passed s.history)
  once : keeps → (passed s.history).Nodup

namespace Delivers

variable {keeps : Prop} {s t : Kernel Process} {p : Process} {e : EventData Process}
  {x : ExitCall Process} {xs : List Process}

/-- The walk goes on at the same process. -/
theorem goesOn {main : Main Process} (h : Delivers keeps s) (hWalk : main.walk = s.main.walk)
    (hAhead : ∀ ps, main.ahead ps = s.main.ahead ps) : Delivers keeps { s with main } where
  inOrder := h.inOrder
  passesOn := h.passesOn
  directed := h.directed
  stays := h.stays
  walk e link hIs := by
    obtain ⟨hTaken, hNone, ps, hList, hStays, hFresh⟩ := h.walk e link (hWalk ▸ hIs)
    refine ⟨hTaken, hNone, ps, hList, ?_, ?_⟩
    · simpa only [hAhead] using hStays
    · simpa only [hAhead] using hFresh
  once := h.once

/-- No walk is on. -/
theorem stops (main : Main Process) (h : Delivers keeps s) (hWalk : main.walk = none) :
    Delivers keeps { s with main } where
  inOrder := h.inOrder
  passesOn := h.passesOn
  directed := h.directed
  stays := h.stays
  walk e link hIs := by
    rw [hWalk] at hIs
    cases hIs
  once := h.once

theorem callProcess (h : Delivers keeps s) (ev : ProcessEvent) (data : ProcessData Process) :
    Delivers keeps (callProcess p ev data s) := by
  unfold Kernel.callProcess
  split
  · exact ⟨h.inOrder, h.passesOn, h.directed, h.stays, h.walk, h.once⟩
  · exact h

theorem exitEnd (h : Delivers keeps s) : Delivers keeps (exitEnd x s) := by
  unfold Kernel.exitEnd
  split
  · exact ⟨h.inOrder, h.passesOn, h.directed, h.stays, h.walk, h.once⟩
  · exact ⟨h.inOrder, h.passesOn, h.directed, h.stays, h.walk, h.once⟩

end Delivers

variable [Fintype Process]

/-- The walk of the broadcast comes to the process, or stands there. -/
def LeadsTo (p : Process) (s : Kernel Process) : Prop :=
  ∃ walk ∈ s.main.walk,
    findLinks s.next (fun q => q = p) (Fintype.card Process) walk.2 = some (some p)

instance (p : Process) (s : Kernel Process) : Decidable (LeadsTo p s) := by
  unfold LeadsTo
  infer_instance

/-- No process is put in front of the list where a broadcast comes to it, while one on the
list has got the broadcast. -/
def KeepsWalk (s : Kernel Process) : Action Process → Prop
  | .start p _ => linked p s.history = false → LeadsTo p s →
      ∀ q ∈ passed s.history, linked q s.history = false
  | _ => True

instance (s : Kernel Process) (action : Action Process) : Decidable (KeepsWalk s action) := by
  unfold KeepsWalk
  split <;> infer_instance

namespace Delivers

variable {keeps : Prop} {s t : Kernel Process} {p : Process} {e : EventData Process}
  {x : ExitCall Process} {xs : List Process}

/-- A process is put in front of the list. If the walk comes to it, the whole list is ahead
of the walk again. -/
theorem link (h : Delivers keeps s) (hLists : Lists s xs) (hNew : p ∉ xs)
    (hKeeps : keeps → KeepsWalk s (.start p .null)) : Delivers keeps (link p s) where
  inOrder := h.inOrder
  passesOn := h.passesOn
  directed := h.directed
  stays q hq := by
    simp only [Kernel.link, linked, Bool.or_eq_true]
    exact Or.inr (h.stays q hq)
  walk e at' hIs := by
    obtain ⟨hTaken, hNone, ps, hList, hStays, hFresh⟩ := h.walk e at' hIs
    refine ⟨hTaken, hNone, ?_⟩
    by_cases hMem : p ∈ ps
    · obtain ⟨before, after, rfl⟩ := List.append_of_mem hMem
      have hNot : p ∉ before := fun hIn =>
        (List.nodup_append.mp hList.nodup).2.2 p hIn p (List.mem_cons_self ..) rfl
      refine ⟨before ++ p :: xs, hList.redirect hNot hLists.list hNew, fun q hq => ?_,
        fun hKeep q hq => ?_⟩
      · exact Or.inr (Main.mem_ahead_of_mem ((hLists.members q).mp (h.stays q hq)))
      · rcases Main.mem_ahead_append after hq with hOld | hIn
        · exact hFresh hKeep q hOld
        · intro hPassed
          have hNotLinked : linked p s.history = false :=
            Bool.eq_false_iff.mpr fun hIs => hNew ((hLists.members p).mp hIs)
          have hLeads : LeadsTo p s :=
            ⟨_, hIs, by rw [findLinks_node hList hList.length_le, if_pos hMem]⟩
          have hOff := hKeeps hKeep hNotLinked hLeads q hPassed
          rw [(hLists.members q).mpr hIn] at hOff
          cases hOff
    · exact ⟨ps, hList.update_of_notMem hMem, hStays, hFresh⟩
  once := h.once

theorem unlink (h : Delivers keeps s) (hList : IsList s.next s.processList xs)
    (hUnlink : unlink x s = some t) : Delivers keeps t := by
  obtain ⟨link, next, ys, hEq, -, -, hTakes⟩ := unlink_eq hList x
  rw [hEq] at hUnlink
  obtain rfl := Option.some.inj hUnlink
  refine exitEnd ⟨h.inOrder, h.passesOn, h.directed, fun q hq => ?_, fun e at' hIs => ?_, h.once⟩
  · simp only [stayed, linked, Bool.and_eq_true] at hq ⊢
    exact ⟨hq.1, h.stays q hq.2⟩
  · obtain ⟨hTaken, hNone, ps, hPs, hStays, hFresh⟩ := h.walk e at' hIs
    obtain ⟨qs, hQs, hSub, hSup⟩ := hTakes _ ps hPs
    refine ⟨hTaken, hNone, qs, hQs, fun q hq => ?_, fun hKeep q hq => ?_⟩
    · simp only [stayed, Bool.and_eq_true, decide_eq_true_eq] at hq
      rcases hStays q hq.2 with hPassed | hAhead
      · exact Or.inl hPassed
      · exact Or.inr (Main.mem_ahead_of_takesOut hPs hQs (fun hIn => hSup q hIn (Ne.symm hq.1)) hAhead)
    · exact hFresh hKeep q (Main.mem_ahead_of_takesOut hQs hPs (hSub q) hq)

theorem exitProcess {fromprocess : Option Process} {byProcessExit : Bool} (h : Delivers keeps s)
    (hList : IsList s.next s.processList xs)
    (hExit : exitProcess p fromprocess byProcessExit s = some t) : Delivers keeps t := by
  rcases exitProcess_cases p fromprocess byProcessExit hList rfl with ⟨-, hEq⟩ | ⟨-, -, hEq⟩ | ⟨-, -, hEq⟩
  · rw [hEq] at hExit
    obtain rfl := Option.some.inj hExit
    exact h.exitEnd
  · rw [hEq] at hExit
    obtain rfl := Option.some.inj hExit
    exact ⟨h.inOrder, h.passesOn, h.directed, h.stays, h.walk, h.once⟩
  · rw [hEq] at hExit
    exact h.unlink hList hExit

theorem threadReturns {result : PtResult} (h : Delivers keeps s)
    (hList : IsList s.next s.processList xs) (hReturn : threadReturns result s = some t) :
    Delivers keeps t := by
  have hStack (stack : List (Frame Process)) : Delivers keeps { s with stack } :=
    ⟨h.inOrder, h.passesOn, h.directed, h.stays, h.walk, h.once⟩
  unfold Kernel.threadReturns at hReturn
  split at hReturn
  · rename_i p ev stack _
    split_ifs at hReturn
    · exact (hStack stack).exitProcess hList hReturn
    · obtain rfl := Option.some.inj hReturn
      exact ⟨h.inOrder, h.passesOn, h.directed, h.stays, h.walk, h.once⟩
  · rename_i x stack _
    exact (hStack stack).unlink hList hReturn
  · cases hReturn

theorem resume {frame : Frame Process} (h : Delivers keeps s)
    (hList : IsList s.next s.processList xs) (hStep : resume s frame = some t) :
    Delivers keeps t := by
  have hSame (current : Option Process) (stack : List (Frame Process)) :
      Delivers keeps { s with current, stack } :=
    ⟨h.inOrder, h.passesOn, h.directed, h.stays, h.walk, h.once⟩
  cases frame with
  | call p ev => cases hStep
  | lastCall x => cases hStep
  | synch caller =>
      obtain rfl := Option.some.inj hStep
      exact hSame _ _
  | notified x q =>
      obtain rfl := Option.some.inj hStep
      exact hSame _ _
  | notify x q =>
      cases q with
      | none =>
          simp only [Kernel.resume] at hStep
          split_ifs at hStep
          · obtain rfl := Option.some.inj hStep
            exact ⟨h.inOrder, h.passesOn, h.directed, h.stays, h.walk, h.once⟩
          · exact h.unlink hList hStep
      | some q =>
          obtain rfl := Option.some.inj hStep
          split
          · exact (hSame s.current _).callProcess _ _
          · exact hSame s.current _

omit [Fintype Process] in
/-- The first event of the queue is taken. -/
theorem takes {events : RingQueue (EventData Process) processConfNumevents}
    (h : Delivers keeps s) (hLists : Lists s xs) (hTake : s.events.take = some (e, events)) :
    Delivers keeps (doEvent e { s with events, history := .taken e :: s.history }) := by
  have hContents := RingQueue.contents_take hTake
  have hOrder : postedEvents s.history = (takenEvents s.history ++ [e]) ++ events.contents := by
    rw [h.inOrder, hContents, List.append_assoc, List.singleton_append]
  unfold doEvent
  split
  · rename_i hBroadcast
    refine ⟨hOrder, h.passesOn, fun _ _ _ _ => Or.inl rfl, fun _ hp => hp, ?_,
      fun _ => List.nodup_nil⟩
    intro e' link hIs
    obtain ⟨rfl, rfl⟩ := Prod.mk.inj (Option.some.inj hIs)
    refine ⟨rfl, hBroadcast, xs, hLists.list, fun p hp => ?_, fun _ _ _ => List.not_mem_nil⟩
    exact Or.inr ((hLists.members p).mp hp)
  · rename_i receiver hReceiver
    have hIdle (state : Process → ProcessState) : Delivers keeps
        { s with state, events, main := .idle, history := .taken e :: s.history } :=
      ⟨hOrder, h.passesOn, fun _ _ _ _ => Or.inl rfl, fun _ hp => hp, nofun,
        fun _ => List.nodup_nil⟩
    have hPassed (state : Process → ProcessState) : Delivers keeps
        { s with
          state, events, main := .idle
          history := .passed receiver e :: Moment.taken e :: s.history } := by
      refine ⟨hOrder, ⟨rfl, h.passesOn⟩, fun e' receiver' hTaken hIs => ?_, fun _ hp => hp, nofun,
        fun _ => List.nodup_singleton _⟩
      obtain rfl := Option.some.inj hTaken
      obtain rfl := Option.some.inj (hReceiver.symm.trans hIs)
      exact Or.inr rfl
    have hPass (state : Process → ProcessState) : Delivers keeps (doEvent.pass receiver e
        { s with state, events, main := .idle, history := .taken e :: s.history }) := by
      refine Delivers.callProcess ?_ _ _
      split
      · exact hPassed state
      · exact hIdle state
    split
    · exact hPass _
    · exact hPass _

omit [Fintype Process] in
/-- The broadcast is passed to the process at which the walk stands. -/
theorem delivers (h : Delivers keeps s) (hLists : Lists s xs) (hStack : s.stack = [])
    (hMain : s.main = .deliver e p) :
    Delivers keeps (doEvent.pass p e { s with main := .delivered e p }) := by
  obtain ⟨hTaken, hNone, ps, hList, hStays, hFresh⟩ := h.walk e (some p) (by rw [hMain]; rfl)
  obtain ⟨rest, rfl, hRest⟩ := IsList.some_iff.mp hList
  rw [hMain] at hStays hFresh
  have hNotIn := (List.nodup_cons.mp hList.nodup).1
  refine Delivers.callProcess ?_ _ _
  split
  · refine ⟨h.inOrder, ⟨hTaken, h.passesOn⟩, fun e' receiver hLast hIs => ?_, h.stays, ?_,
      fun hKeep => List.nodup_cons.mpr ⟨hFresh hKeep p (List.mem_cons_self ..), h.once hKeep⟩⟩
    · obtain rfl := Option.some.inj (hTaken.symm.trans hLast)
      rw [hNone] at hIs
      cases hIs
    · intro e' link hIs
      obtain ⟨rfl, rfl⟩ := Prod.mk.inj (Option.some.inj hIs)
      refine ⟨hTaken, hNone, p :: rest, hList, fun q hq => ?_, fun hKeep q hq hPassed => ?_⟩
      · rcases hStays q hq with hPassed | hAhead
        · exact Or.inl (List.mem_cons_of_mem _ hPassed)
        · rcases List.mem_cons.mp hAhead with rfl | hIn
          · exact Or.inl (List.mem_cons_self ..)
          · exact Or.inr hIn
      · have hIn : q ∈ rest := hq
        rcases List.mem_cons.mp hPassed with rfl | hPassed
        · exact hNotIn hIn
        · exact hFresh hKeep q (List.mem_cons_of_mem _ hIn) hPassed
  · -- A process that is on the list is running, since no call is in progress.
    rename_i hState
    have hOff : stayed p s.history = false := by
      refine Bool.eq_false_iff.mpr fun hStayed => hState ?_
      have hAccounted := hLists.accounted p ((hLists.members p).mp (h.stays p hStayed))
      cases hIs : s.state p with
      | running => rfl
      | called =>
          obtain ⟨ev, hMem⟩ := hAccounted.called hIs
          rw [hStack] at hMem
          cases hMem
      | none =>
          obtain ⟨frame, hMem, -⟩ := hAccounted.exiting hIs
          rw [hStack] at hMem
          cases hMem
    refine ⟨h.inOrder, h.passesOn, h.directed, h.stays, ?_, h.once⟩
    intro e' link hIs
    obtain ⟨rfl, rfl⟩ := Prod.mk.inj (Option.some.inj hIs)
    refine ⟨hTaken, hNone, p :: rest, hList, fun q hq => ?_, fun hKeep q hq => ?_⟩
    · rcases hStays q hq with hPassed | hAhead
      · exact Or.inl hPassed
      · rcases List.mem_cons.mp hAhead with rfl | hIn
        · rw [hOff] at hq
          cases hq
        · exact Or.inr hIn
    · exact hFresh hKeep q (List.mem_cons_of_mem _ hq)

omit [Fintype Process] in
theorem processRun (h : Delivers keeps s) (hLists : Lists s xs) (hStack : s.stack = [])
    (hStep : processRun s s.main = some t) : Delivers keeps t := by
  cases hMain : s.main with
  | idle =>
      rw [hMain] at hStep
      cases hStep
  | poll p delivery =>
      rw [hMain] at hStep
      cases p with
      | none =>
          cases delivery with
          | none =>
              obtain rfl := Option.some.inj hStep
              exact h.stops _ rfl
          | some delivery =>
              obtain rfl := Option.some.inj hStep
              exact h.goesOn (by rw [hMain]; rfl) (by rw [hMain]; exact fun _ => rfl)
      | some p =>
          obtain rfl := Option.some.inj hStep
          have hOn : Delivers keeps { s with main := .polled p delivery } :=
            h.goesOn (by rw [hMain]; rfl) (by rw [hMain]; exact fun _ => rfl)
          split
          · refine Delivers.callProcess ?_ _ _
            exact ⟨hOn.inOrder, hOn.passesOn, hOn.directed, hOn.stays, hOn.walk, hOn.once⟩
          · exact hOn
  | polled p delivery =>
      rw [hMain] at hStep
      obtain rfl := Option.some.inj hStep
      exact h.goesOn (by rw [hMain]; rfl) (by rw [hMain]; exact fun _ => rfl)
  | event =>
      rw [hMain] at hStep
      simp only [Kernel.processRun] at hStep
      split at hStep
      · obtain rfl := Option.some.inj hStep
        exact h.stops _ rfl
      · rename_i e events hTake
        obtain rfl := Option.some.inj hStep
        exact h.takes hLists hTake
  | broadcast e p =>
      rw [hMain] at hStep
      obtain ⟨hTaken, hNone, ps, hList, hStays, -⟩ := h.walk e p (by rw [hMain]; rfl)
      cases p with
      | none =>
          obtain rfl := Option.some.inj hStep
          obtain rfl := IsList.none_iff.mp hList
          rw [hMain] at hStays
          refine ⟨h.inOrder, ⟨fun p hp => ?_, h.passesOn⟩, h.directed, h.stays, by simp [Main.walk], h.once⟩
          exact (hStays p hp).resolve_right List.not_mem_nil
      | some p =>
          obtain rfl := Option.some.inj hStep
          split
          · have hOn : Delivers keeps { s with main := .poll s.processList (some (e, p)) } :=
              h.goesOn (by rw [hMain]; rfl) (by rw [hMain]; exact fun _ => rfl)
            exact ⟨hOn.inOrder, hOn.passesOn, hOn.directed, hOn.stays, hOn.walk, hOn.once⟩
          · exact h.goesOn (by rw [hMain]; rfl) (by rw [hMain]; exact fun _ => rfl)
  | deliver e p =>
      rw [hMain] at hStep
      obtain rfl := Option.some.inj hStep
      exact h.delivers hLists hStack hMain
  | delivered e p =>
      rw [hMain] at hStep
      obtain rfl := Option.some.inj hStep
      obtain ⟨hTaken, hNone, ps, hList, hStays, hFresh⟩ := h.walk e (some p) (by rw [hMain]; rfl)
      obtain ⟨rest, rfl, hRest⟩ := IsList.some_iff.mp hList
      rw [hMain] at hStays hFresh
      refine ⟨h.inOrder, h.passesOn, h.directed, h.stays, ?_, h.once⟩
      intro e' link hIs
      obtain ⟨rfl, rfl⟩ := Prod.mk.inj (Option.some.inj hIs)
      exact ⟨hTaken, hNone, rest, hRest, hStays, hFresh⟩

theorem step {action : Action Process} (h : Delivers keeps s) (hLists : Lists s xs)
    (hKeeps : keeps → KeepsWalk s action) (hStep : step s action = some t) : Delivers keeps t := by
  have hStack (stack : List (Frame Process)) : Delivers keeps { s with stack } :=
    ⟨h.inOrder, h.passesOn, h.directed, h.stays, h.walk, h.once⟩
  cases action with
  | post p ev data =>
      simp only [Kernel.step] at hStep
      split_ifs at hStep
      obtain rfl := Option.some.inj hStep
      unfold processPost
      split
      · exact h
      · rename_i events hPost
        refine ⟨?_, h.passesOn, h.directed, h.stays, h.walk, h.once⟩
        change postedEvents s.history ++ [_] = takenEvents s.history ++ events.contents
        rw [RingQueue.contents_post hPost, h.inOrder, List.append_assoc]
  | postSynch p ev data =>
      simp only [Kernel.step] at hStep
      split_ifs at hStep
      obtain rfl := Option.some.inj hStep
      exact (hStack _).callProcess _ _
  | start p data =>
      simp only [Kernel.step, processStart_eq hLists.list] at hStep
      split_ifs at hStep with hRuns hMem
      · obtain rfl := Option.some.inj hStep
        exact h
      · obtain rfl := Option.some.inj hStep
        have hLink := h.link hLists hMem hKeeps
        refine Delivers.callProcess ?_ _ _
        exact ⟨hLink.inOrder, hLink.passesOn, hLink.directed, hLink.stays, hLink.walk, hLink.once⟩
  | exit p =>
      simp only [Kernel.step] at hStep
      split_ifs at hStep
      exact h.exitProcess hLists.list hStep
  | context p =>
      simp only [Kernel.step] at hStep
      split_ifs at hStep
      obtain rfl := Option.some.inj hStep
      exact ⟨h.inOrder, h.passesOn, h.directed, h.stays, h.walk, h.once⟩
  | «return» result => exact h.threadReturns hLists.list hStep
  | run =>
      simp only [Kernel.step] at hStep
      split at hStep
      · obtain rfl := Option.some.inj hStep
        split
        · have hPoll := h.stops (.poll s.processList none) rfl
          exact ⟨hPoll.inOrder, hPoll.passesOn, hPoll.directed, hPoll.stays, hPoll.walk, hPoll.once⟩
        · exact h.stops _ rfl
      · cases hStep
  | poll p =>
      obtain rfl := Option.some.inj hStep
      unfold processPoll
      split
      · exact ⟨h.inOrder, h.passesOn, h.directed, h.stays, h.walk, h.once⟩
      · exact h
  | kernel =>
      simp only [Kernel.step, kernelStep] at hStep
      split at hStep
      · rename_i hEmpty
        exact h.processRun hLists hEmpty hStep
      · rename_i frame stack _
        exact (hStack stack).resume hLists.list hStep

end Delivers

theorem delivers_throughout (keeps : Prop) (slots : Nat → EventData Process)
    {actions : List (Action Process)}
    (h : Along step (fun s action => keeps → KeepsWalk s action) (processInit slots) actions) :
    Throughout step (Delivers keeps) (processInit slots) actions :=
  Throughout.of_along (fun s => ∃ xs, Lists s xs ∧ Delivers keeps s)
    (fun _ ⟨_, _, hDelivers⟩ => hDelivers)
    (fun _ _ _ ⟨_, hLists, hDelivers⟩ hKeeps hStep => by
      obtain ⟨ys, hNext⟩ := hLists.step hStep
      exact ⟨ys, hNext, hDelivers.step hLists hKeeps hStep⟩)
    ⟨[], lists_processInit slots, rfl, trivial, nofun, nofun, nofun, fun _ => List.nodup_nil⟩ h

/-- In every run the events are taken in the order in which they were posted, a directed
event is passed on once at most, and a broadcast reaches all processes that stay. -/
theorem delivers_in_order (slots : Nat → EventData Process) (actions : List (Action Process)) :
    Throughout step (Delivers False) (processInit slots) actions :=
  delivers_throughout False slots (Along.of_forall (fun _ _ => False.elim) _ _)

/-- **When events are delivered once.** In a run in which no process is put in front of the
list where a broadcast comes to it, no process gets an event twice either. -/
theorem delivers_once (slots : Nat → EventData Process) (actions : List (Action Process))
    (h : Along step KeepsWalk (processInit slots) actions) :
    Throughout step DeliversOnce (processInit slots) actions :=
  (delivers_throughout True slots (h.mono fun _ _ hKeeps _ => hKeeps)).mono fun _ hDelivers =>
    ⟨hDelivers.inOrder, hDelivers.passesOn, hDelivers.directed, hDelivers.once trivial⟩

omit [Fintype Process] in
/-- A call of a thread does not move the walk. -/
theorem callProcess_walk (s : Kernel Process) (p : Process) (ev : ProcessEvent)
    (data : ProcessData Process) :
    (callProcess p ev data s).main = s.main ∧ (callProcess p ev data s).next = s.next ∧
      passed (callProcess p ev data s).history = passed s.history := by
  unfold callProcess
  split
  · exact ⟨rfl, rfl, rfl⟩
  · exact ⟨rfl, rfl, rfl⟩

/-- Where a step does not keep the walk, the walk comes again to a process that has got the
event. -/
theorem walk_returns {s t : Kernel Process} {p : Process} {data : ProcessData Process}
    {xs : List Process} (hLists : Lists s xs) (hDelivers : Delivers False s)
    (hNot : ¬ KeepsWalk s (.start p data)) (hStep : step s (.start p data) = some t) :
    ∃ e at' ps, t.main.walk = some (e, at') ∧ IsList t.next at' ps ∧
      ∃ q ∈ t.main.ahead ps, q ∈ passed t.history := by
  simp only [KeepsWalk, Classical.not_imp, not_forall, Bool.not_eq_false] at hNot
  obtain ⟨hOff, ⟨⟨e, at'⟩, hWalk, hFound⟩, q, hPassed, hOn⟩ := hNot
  obtain ⟨-, -, ps, hList, -, -⟩ := hDelivers.walk e at' hWalk
  have hNew : p ∉ xs := by
    rw [← hLists.members, hOff]
    exact Bool.false_ne_true
  have hMem : p ∈ ps := by
    by_contra hNotIn
    rw [findLinks_node hList hList.length_le, if_neg hNotIn] at hFound
    cases hFound
  obtain ⟨before, after, rfl⟩ := List.append_of_mem hMem
  have hNotBefore : p ∉ before := fun hIn =>
    (List.nodup_append.mp hList.nodup).2.2 p hIn p (List.mem_cons_self ..) rfl
  simp only [step, processStart_eq hLists.list, if_neg hNew] at hStep
  split_ifs at hStep
  obtain rfl := Option.some.inj hStep
  obtain ⟨hMain, hNext, hHistory⟩ := callProcess_walk
    { link p s with stack := .synch s.current :: s.stack } p processEventInit data
  refine ⟨e, at', before ++ p :: xs, ?_, ?_, q, ?_, ?_⟩
  · exact (congrArg Main.walk hMain).trans hWalk
  · exact hNext ▸ hList.redirect hNotBefore hLists.list hNew
  · exact hMain ▸ Main.mem_ahead_of_mem ((hLists.members q).mp hOn)
  · exact hHistory ▸ hPassed

/-- A queue that has held no event. -/
def noBroadcasts : Nat → EventData Bool := fun _ => ⟨0, .null, none⟩

/-- Two processes are started, the second one in front of the first. -/
def twoStarted : List (Action Bool) :=
  [.start false .null, .return .waiting, .kernel, .start true .null, .return .waiting, .kernel]

/-- Both of them get a broadcast. -/
def broadcastToTwo : List (Action Bool) := twoStarted ++
  [.post none 0x88 .null, .run, .kernel, .kernel, .kernel, .return .waiting, .kernel, .kernel,
    .kernel, .return .waiting, .kernel, .kernel]

theorem delivers_once_to_two :
    Throughout step DeliversOnce (processInit noBroadcasts) broadcastToTwo :=
  delivers_once noBroadcasts broadcastToTwo (by decide)

/-- The first of the two has got a broadcast and is polled before the second gets it. It
then exits the second and starts it again. -/
def restartedInWalk : List (Action Bool) := twoStarted ++
  [.post none 0x88 .null, .run, .kernel, .kernel, .kernel, .return .waiting, .kernel,
    .poll true, .kernel, .kernel,
    .exit false, .kernel, .kernel, .kernel, .kernel, .kernel, .return .ended,
    .start false .null, .return .waiting, .kernel, .return .waiting,
    .kernel, .kernel, .kernel, .return .waiting, .kernel, .kernel, .kernel]

/-- The first process gets the broadcast twice. -/
theorem delivers_once_fails :
    ¬ Throughout step DeliversOnce (processInit noBroadcasts) restartedInWalk := by
  intro h
  obtain ⟨t, hRun, hPassed⟩ : ∃ t,
      runAll step (processInit noBroadcasts) restartedInWalk = some t ∧
        passed t.history = [true, false, true] := ⟨_, rfl, by decide⟩
  have hOnce := (h.last hRun).once
  rw [hPassed] at hOnce
  exact absurd hOnce (by decide)

end Kernel

end Smarthome.Contiki
