import Smarthome.Semantics.LinkedList
import Smarthome.Semantics.RingQueue
import Smarthome.Semantics.Runs
import Mathlib.Tactic.Common

/-! `process.c`: the list of processes, the event queue and the nested calls of the
processes' threads. A thread may do anything that the functions of `process.c` let it do
before it returns; what the kernel does in between is cut into steps at these calls. -/
namespace Smarthome.Contiki

open Semantics

def processConfNumevents : Nat := 32

abbrev ProcessEvent := UInt8

abbrev processEventInit : ProcessEvent := 0x81
abbrev processEventPoll : ProcessEvent := 0x82
abbrev processEventExit : ProcessEvent := 0x83
abbrev processEventExited : ProcessEvent := 0x87

/-- `PROCESS_STATE_NONE`, `PROCESS_STATE_RUNNING` and `PROCESS_STATE_CALLED`. -/
inductive ProcessState where
  | none
  | running
  | called
  deriving DecidableEq

/-- What a thread returns. -/
inductive PtResult where
  | waiting
  | yielded
  | exited
  | ended
  deriving DecidableEq

/-- The pointer that comes with an event. -/
inductive ProcessData (Process : Type) where
  | null
  | process (p : Process)
  | pointer (address : UInt32)
  deriving DecidableEq

/-- An event in the queue. It is a broadcast if it has no receiver. -/
structure EventData (Process : Type) where
  ev : ProcessEvent
  data : ProcessData Process
  p : Option Process
  deriving DecidableEq

/-- The variables of a call of `exit_process`, and whether `process_exit` has made it. -/
structure ExitCall (Process : Type) where
  p : Process
  fromprocess : Option Process
  oldCurrent : Option Process
  byProcessExit : Bool
  deriving DecidableEq

/-- What is left to do in the calls that have not returned. The thread of a process runs
while the first of them is its call. -/
inductive Frame (Process : Type) where
  /-- `call_process` has called the thread. -/
  | call (p : Process) (ev : ProcessEvent)
  /-- `exit_process` at the test of its loop. -/
  | notify (x : ExitCall Process) (q : Option Process)
  /-- `exit_process` after the body of its loop. -/
  | notified (x : ExitCall Process) (q : Process)
  /-- `exit_process` has called the thread. -/
  | lastCall (x : ExitCall Process)
  /-- `process_post_synch`, and `process_start` with it. -/
  | synch (caller : Option Process)
  deriving DecidableEq

/-- The call of `exit_process` that a frame belongs to. -/
def Frame.exitCall {Process : Type} : Frame Process → Option (ExitCall Process)
  | .notify x _ => some x
  | .notified x _ => some x
  | .lastCall x => some x
  | _ => none

/-- The process that is taken off the list at the end of it. -/
def Frame.exiting {Process : Type} (frame : Frame Process) : Option Process :=
  frame.exitCall.map ExitCall.p

/-- Where `process_run` is. A call of `do_poll` interrupts the delivery of a broadcast to
a process, or stands before `do_event`. -/
inductive Main (Process : Type) where
  | idle
  | poll (p : Option Process) (delivery : Option (EventData Process × Process))
  | polled (p : Process) (delivery : Option (EventData Process × Process))
  | event
  | broadcast (e : EventData Process) (p : Option Process)
  | deliver (e : EventData Process) (p : Process)
  | delivered (e : EventData Process) (p : Process)

/-- What has happened. -/
inductive Moment (Process : Type) where
  | posted (e : EventData Process)
  | taken (e : EventData Process)
  /-- `do_event` passes an event on. -/
  | passed (p : Process) (e : EventData Process)
  /-- `do_event` has passed a broadcast on to all. -/
  | finished
  | called (p : Process) (ev : ProcessEvent) (data : ProcessData Process)
  | started (p : Process)
  | unlinked (p : Process)
  /-- `process_exit` returns. -/
  | exitReturned (p : Process)
  deriving DecidableEq

/-- The variables of `process.c`, the fields of the processes, the calls in progress and
the history, its newest moment first. -/
structure Kernel (Process : Type) where
  processList : Option Process
  next : Process → Option Process
  state : Process → ProcessState
  needspoll : Process → Bool
  pollRequested : Bool
  current : Option Process
  events : RingQueue (EventData Process) processConfNumevents
  main : Main Process
  stack : List (Frame Process)
  history : List (Moment Process)

/-- What a thread or the main program does next, or the kernel between their calls. -/
inductive Action (Process : Type) where
  | post (p : Option Process) (ev : ProcessEvent) (data : ProcessData Process)
  | postSynch (p : Process) (ev : ProcessEvent) (data : ProcessData Process)
  | start (p : Process) (data : ProcessData Process)
  | exit (p : Process)
  | context (p : Option Process)
  | return (result : PtResult)
  | run
  /-- Interrupts call `process_poll` as well, at any time. -/
  | poll (p : Process)
  | kernel

namespace Kernel

variable {Process : Type}

def record (moment : Moment Process) (s : Kernel Process) : Kernel Process :=
  { s with history := moment :: s.history }

/-- `process_post`. -/
def processPost (e : EventData Process) (s : Kernel Process) : Kernel Process :=
  match s.events.post e with
  | none => s
  | some events => { s with events, history := .posted e :: s.history }

/-- `do_poll` up to its loop. -/
def doPoll (delivery : Option (EventData Process × Process)) (s : Kernel Process) :
    Kernel Process :=
  { s with pollRequested := false, main := .poll s.processList delivery }

/-- The operations of `process.c` may be called. -/
def CodeRuns (s : Kernel Process) : Prop :=
  match s.main, s.stack with
  | _, .call _ _ :: _ => True
  | _, .lastCall _ :: _ => True
  | .idle, [] => True
  | _, _ => False

instance (s : Kernel Process) : Decidable s.CodeRuns := by
  unfold CodeRuns
  split <;> infer_instance

variable [DecidableEq Process]

/-- `call_process`, to the call of the thread. -/
def callProcess (p : Process) (ev : ProcessEvent) (data : ProcessData Process)
    (s : Kernel Process) : Kernel Process :=
  if s.state p = .running then
    { s with
      current := some p
      state := Function.update s.state p .called
      stack := .call p ev :: s.stack
      history := .called p ev data :: s.history }
  else s

/-- `process_poll`. -/
def processPoll (p : Process) (s : Kernel Process) : Kernel Process :=
  if s.state p ≠ .none then
    { s with needspoll := Function.update s.needspoll p true, pollRequested := true }
  else s

/-- `process_post_synch`. -/
def processPostSynch (p : Process) (ev : ProcessEvent) (data : ProcessData Process)
    (s : Kernel Process) : Kernel Process :=
  callProcess p ev data { s with stack := .synch s.current :: s.stack }

/-- The body of `process_start` for a process that is not on the list. -/
def link (p : Process) (s : Kernel Process) : Kernel Process :=
  { s with
    next := Function.update s.next p s.processList
    processList := some p
    state := Function.update s.state p .running
    history := .started p :: s.history }

variable [Fintype Process]

/-- The search for a process in the list; there is no result if it does not end. -/
def find (p : Process) (s : Kernel Process) : Option (Option Process) :=
  findLinks s.next (fun q => q = p) (Fintype.card Process) s.processList

/-- `process_start`. -/
def processStart (p : Process) (data : ProcessData Process) (s : Kernel Process) :
    Option (Kernel Process) := do
  match ← find p s with
  | some _ => some s
  | none => some (processPostSynch p processEventInit data (link p s))

/-- The return from `exit_process`, and from `process_exit` with it. -/
def exitEnd (x : ExitCall Process) (s : Kernel Process) : Kernel Process :=
  { s with
    history := (if x.byProcessExit = true then [.exitReturned x.p] else []) ++ s.history }

/-- The end of `exit_process`, where the process is taken off the list. -/
def unlink (x : ExitCall Process) (s : Kernel Process) : Option (Kernel Process) := do
  let s ←
    if s.processList = some x.p then some { s with processList := s.next x.p }
    else do
      match ← findLinks s.next (fun q => s.next q = some x.p) (Fintype.card Process)
        s.processList with
      | some q => some { s with next := Function.update s.next q (s.next x.p) }
      | none => some s
  some (exitEnd x { s with current := x.oldCurrent, history := .unlinked x.p :: s.history })

/-- `exit_process`, to its loop if the process was running. -/
def exitProcess (p : Process) (fromprocess : Option Process) (byProcessExit : Bool)
    (s : Kernel Process) : Option (Kernel Process) := do
  let x : ExitCall Process := ⟨p, fromprocess, s.current, byProcessExit⟩
  match ← find p s with
  | none => some (exitEnd x s)
  | some _ =>
      if s.state p ≠ .none then
        some { s with
          state := Function.update s.state p .none
          stack := .notify x s.processList :: s.stack }
      else unlink x s

/-- The return of the thread that runs. -/
def threadReturns (result : PtResult) (s : Kernel Process) : Option (Kernel Process) :=
  match s.stack with
  | .call p ev :: stack =>
      if result = .exited ∨ result = .ended ∨ ev = processEventExit then
        exitProcess p (some p) false { s with stack }
      else some { s with state := Function.update s.state p .running, stack }
  | .lastCall x :: stack => unlink x { s with stack }
  | _ => none

/-- `do_event` for an event that has been taken. -/
def doEvent (e : EventData Process) (s : Kernel Process) : Kernel Process :=
  match e.p with
  | none => { s with main := .broadcast e s.processList }
  | some receiver =>
      let s := if e.ev = processEventInit then
        { s with state := Function.update s.state receiver .running } else s
      pass receiver e { s with main := .idle }
where
  pass (p : Process) (e : EventData Process) (s : Kernel Process) : Kernel Process :=
    callProcess p e.ev e.data (if s.state p = .running then record (.passed p e) s else s)

/-- What a call goes on with. -/
def resume (s : Kernel Process) : Frame Process → Option (Kernel Process)
  | .call _ _ => none
  | .lastCall _ => none
  | .synch caller => some { s with current := caller }
  | .notify x none =>
      if x.fromprocess ≠ some x.p then
        some { s with
          current := some x.p
          stack := .lastCall x :: s.stack
          history := .called x.p processEventExit .null :: s.history }
      else unlink x s
  | .notify x (some q) =>
      let s := { s with stack := .notified x q :: s.stack }
      some (if x.p ≠ q then callProcess q processEventExited (.process x.p) s else s)
  | .notified x q => some { s with stack := .notify x (s.next q) :: s.stack }

/-- What `process_run` goes on with. -/
def processRun (s : Kernel Process) : Main Process → Option (Kernel Process)
  | .idle => none
  | .poll none none => some { s with main := .event }
  | .poll none (some (e, p)) => some { s with main := .deliver e p }
  | .poll (some p) delivery =>
      let t := { s with main := .polled p delivery }
      some (if s.needspoll p = true then
        callProcess p processEventPoll .null { t with
          state := Function.update s.state p .running
          needspoll := Function.update s.needspoll p false }
      else t)
  | .polled p delivery => some { s with main := .poll (s.next p) delivery }
  | .event =>
      match s.events.take with
      | none => some { s with main := .idle }
      | some (e, events) => some (doEvent e { s with events, history := .taken e :: s.history })
  | .broadcast _ none => some { s with main := .idle, history := .finished :: s.history }
  | .broadcast e (some p) =>
      some (if s.pollRequested = true then doPoll (some (e, p)) s
      else { s with main := .deliver e p })
  | .deliver e p => some (doEvent.pass p e { s with main := .delivered e p })
  | .delivered e p => some { s with main := .broadcast e (s.next p) }

/-- The kernel goes on, in the call that was made last or else in `process_run`. -/
def kernelStep (s : Kernel Process) : Option (Kernel Process) :=
  match s.stack with
  | [] => processRun s s.main
  | frame :: stack => resume { s with stack } frame

/-- An action, if it can be taken. -/
def step (s : Kernel Process) : Action Process → Option (Kernel Process)
  | .post p ev data => if s.CodeRuns then some (processPost ⟨ev, data, p⟩ s) else none
  | .postSynch p ev data => if s.CodeRuns then some (processPostSynch p ev data s) else none
  | .start p data => if s.CodeRuns then processStart p data s else none
  | .exit p => if s.CodeRuns then exitProcess p s.current true s else none
  | .context p => if s.CodeRuns then some { s with current := p } else none
  | .return result => threadReturns result s
  | .run =>
      match s.main, s.stack with
      | .idle, [] =>
          some (if s.pollRequested = true then doPoll none s else { s with main := .event })
      | _, _ => none
  | .poll p => some (processPoll p s)
  | .kernel => kernelStep s

/-- After `process_init`, with the processes as the program declares them. -/
def processInit (slots : Nat → EventData Process) : Kernel Process :=
  { processList := none, next := fun _ => none, state := fun _ => .none
    needspoll := fun _ => false, pollRequested := false, current := none
    events := RingQueue.empty slots (by decide), main := .idle, stack := [], history := [] }

/-- The process was put on the list and not taken off since. -/
def linked (p : Process) : List (Moment Process) → Bool
  | [] => false
  | .started q :: earlier => q = p || linked p earlier
  | .unlinked q :: earlier => q ≠ p && linked p earlier
  | _ :: earlier => linked p earlier

variable {s t : Kernel Process} {p : Process} {x : ExitCall Process} {xs : List Process}

theorem find_eq (h : IsList s.next s.processList xs) :
    find p s = some (if p ∈ xs then some p else none) :=
  findLinks_node h h.length_le

theorem processStart_eq (h : IsList s.next s.processList xs) (data : ProcessData Process) :
    processStart p data s = some (if p ∈ xs then s
      else processPostSynch p processEventInit data (link p s)) := by
  rw [processStart, find_eq h]
  split
  · rfl
  · rfl

omit [Fintype Process] in
@[simp] theorem linked_exitEnd (x : ExitCall Process) (s : Kernel Process) :
    linked p (exitEnd x s).history = linked p s.history := by
  unfold exitEnd
  cases x.byProcessExit with
  | true => rfl
  | false => rfl

/-- What is changed where a process is taken off the list. -/
theorem unlink_eq (h : IsList s.next s.processList xs) (x : ExitCall Process) :
    ∃ link next ys, unlink x s = some (exitEnd x { s with
        processList := link, next := next, current := x.oldCurrent
        history := .unlinked x.p :: s.history }) ∧
      IsList next link ys ∧ (∀ y, y ∈ ys ↔ y ∈ xs ∧ y ≠ x.p) ∧ TakesOut x.p s.next next := by
  rw [unlink]
  split
  · rename_i hFirst
    rw [hFirst] at h
    obtain ⟨rest, rfl, hRest⟩ := IsList.some_iff.mp h
    have hNot := (List.nodup_cons.mp h.nodup).1
    refine ⟨_, s.next, rest, rfl, hRest, fun y => ?_, TakesOut.refl _ _⟩
    rw [List.mem_cons]
    grind
  · rename_i hFirst
    rw [findLinks_eq h h.length_le]
    rcases h.find?_before hFirst with ⟨hFind, hNot⟩ | ⟨front, q, after, rfl, hFind⟩
    · rw [hFind]
      exact ⟨s.processList, s.next, xs, rfl, h, fun y => by grind, TakesOut.refl _ _⟩
    · have hNodup := h.nodup
      have hNext : s.next q = some x.p := h.of_append.2.1
      rw [hFind]
      refine ⟨s.processList, _, front ++ q :: after, rfl, h.unlink, fun y => ?_,
        TakesOut.of_link hNext⟩
      simp only [List.nodup_append, List.nodup_cons, List.mem_cons, List.mem_append] at hNodup ⊢
      grind

theorem exitProcess_cases (p : Process) (fromprocess : Option Process) (byProcessExit : Bool)
    (h : IsList s.next s.processList xs) (hx : x = ⟨p, fromprocess, s.current, byProcessExit⟩) :
    p ∉ xs ∧ exitProcess p fromprocess byProcessExit s = some (exitEnd x s) ∨
    p ∈ xs ∧ s.state p ≠ .none ∧ exitProcess p fromprocess byProcessExit s =
      some { s with
        state := Function.update s.state p .none
        stack := .notify x s.processList :: s.stack } ∨
    p ∈ xs ∧ s.state p = .none ∧
      exitProcess p fromprocess byProcessExit s = unlink x s := by
  subst hx
  rw [exitProcess, find_eq h]
  by_cases hMem : p ∈ xs
  · rw [if_pos hMem]
    by_cases hState : s.state p = .none
    · exact Or.inr (Or.inr ⟨hMem, hState, by simp [hState]⟩)
    · exact Or.inr (Or.inl ⟨hMem, hState, by simp [hState]⟩)
  · rw [if_neg hMem]
    exact Or.inl ⟨hMem, rfl⟩

/-- A process on the list is running, unless a call accounts for its state. -/
structure Accounted (s : Kernel Process) (p : Process) : Prop where
  called : s.state p = .called → ∃ ev, .call p ev ∈ s.stack
  exiting : s.state p = .none → ∃ frame ∈ s.stack, frame.exiting = some p

/-- The list is finite, its members are those that the history says, and each of them is
accounted for. -/
structure Lists (s : Kernel Process) (xs : List Process) : Prop where
  list : IsList s.next s.processList xs
  members : ∀ p, linked p s.history = true ↔ p ∈ xs
  accounted : ∀ p ∈ xs, Accounted s p

omit [DecidableEq Process] [Fintype Process] in
theorem Accounted.mono (h : Accounted s p) (hState : t.state p = s.state p)
    (hStack : ∀ frame ∈ s.stack, (∃ ev, frame = .call p ev) ∨ frame.exiting = some p →
      frame ∈ t.stack) : Accounted t p where
  called hCalled := by
    obtain ⟨ev, hMem⟩ := h.called (hState ▸ hCalled)
    exact ⟨ev, hStack _ hMem (Or.inl ⟨ev, rfl⟩)⟩
  exiting hNone := by
    obtain ⟨frame, hMem, hExiting⟩ := h.exiting (hState ▸ hNone)
    exact ⟨frame, hStack _ hMem (Or.inr hExiting), hExiting⟩

omit [DecidableEq Process] [Fintype Process] in
theorem Accounted.of_running (h : s.state p = .running) : Accounted s p where
  called hCalled := by
    rw [h] at hCalled
    cases hCalled
  exiting hNone := by
    rw [h] at hNone
    cases hNone

omit [Fintype Process] in
theorem Lists.callProcess (h : Lists s xs) (ev : ProcessEvent) (data : ProcessData Process) :
    Lists (callProcess p ev data s) xs := by
  unfold Kernel.callProcess
  split
  · refine ⟨h.list, h.members, fun q hq => ?_⟩
    by_cases hSame : q = p
    · subst hSame
      refine ⟨fun _ => ⟨ev, List.mem_cons_self ..⟩, fun hNone => ?_⟩
      simp at hNone
    · exact (h.accounted q hq).mono (Function.update_of_ne hSame _ _)
        fun _ hMem _ => List.mem_cons_of_mem _ hMem
  · exact h

omit [Fintype Process] in
theorem Lists.push (h : Lists s xs) (frame : Frame Process) :
    Lists { s with stack := frame :: s.stack } xs :=
  ⟨h.list, h.members, fun q hq => (h.accounted q hq).mono rfl
    fun _ hMem _ => List.mem_cons_of_mem _ hMem⟩

omit [Fintype Process] in
theorem Lists.link (h : Lists s xs) (hNew : p ∉ xs) : Lists (link p s) (p :: xs) := by
  refine ⟨h.list.push hNew, fun q => ?_, fun q hq => ?_⟩
  · simp only [Kernel.link, linked, Bool.or_eq_true, decide_eq_true_eq, h.members, List.mem_cons]
    rw [eq_comm]
  · by_cases hSame : q = p
    · subst hSame
      exact Accounted.of_running (Function.update_self ..)
    · exact (h.accounted q (List.mem_of_ne_of_mem hSame hq)).mono
        (Function.update_of_ne hSame _ _) fun _ hMem _ => hMem

/-- Where a process is taken off the list, it need not be accounted for. -/
theorem Lists.unlink (hList : IsList s.next s.processList xs)
    (hLinked : ∀ p, linked p s.history = true ↔ p ∈ xs)
    (hAccounted : ∀ q ∈ xs, q ≠ x.p → Accounted s q) (hUnlink : unlink x s = some t) :
    ∃ ys, Lists t ys := by
  obtain ⟨link, next, ys, hEq, hYs, hMem, -⟩ := unlink_eq hList x
  rw [hEq] at hUnlink
  obtain rfl := Option.some.inj hUnlink
  refine ⟨ys, hYs, fun q => ?_, fun q hq => ?_⟩
  · rw [hMem, ← hLinked, linked_exitEnd]
    simp only [Kernel.linked, Bool.and_eq_true, decide_eq_true_eq]
    tauto
  · obtain ⟨hIn, hNe⟩ := (hMem q).mp hq
    exact (hAccounted q hIn hNe).mono rfl fun _ h _ => h

theorem Lists.exitProcess {fromprocess : Option Process} {byProcessExit : Bool}
    (hList : IsList s.next s.processList xs) (hLinked : ∀ p, linked p s.history = true ↔ p ∈ xs)
    (hAccounted : ∀ q ∈ xs, q ≠ p → Accounted s q)
    (hExit : exitProcess p fromprocess byProcessExit s = some t) : ∃ ys, Lists t ys := by
  rcases exitProcess_cases p fromprocess byProcessExit hList rfl with
    ⟨hNot, hEq⟩ | ⟨hMem, hState, hEq⟩ | ⟨hMem, hState, hEq⟩
  · rw [hEq] at hExit
    obtain rfl := Option.some.inj hExit
    refine ⟨xs, hList, fun q => ?_, fun q hq => ?_⟩
    · rw [linked_exitEnd, hLinked]
    · exact (hAccounted q hq (ne_of_mem_of_not_mem hq hNot)).mono rfl fun _ h _ => h
  · rw [hEq] at hExit
    obtain rfl := Option.some.inj hExit
    refine ⟨xs, hList, hLinked, fun q hq => ?_⟩
    by_cases hSame : q = p
    · subst hSame
      refine ⟨fun hCalled => ?_, fun _ => ⟨_, List.mem_cons_self .., rfl⟩⟩
      simp at hCalled
    · exact (hAccounted q hq hSame).mono (Function.update_of_ne hSame _ _)
        fun _ h _ => List.mem_cons_of_mem _ h
  · rw [hEq] at hExit
    exact Lists.unlink hList hLinked hAccounted hExit

omit [DecidableEq Process] [Fintype Process] in
/-- A call that is over accounts for no process but its own. -/
theorem Accounted.pop {frame : Frame Process} {stack : List (Frame Process)} (h : Accounted s p)
    (hStack : s.stack = frame :: stack) (hCall : ∀ ev, frame ≠ .call p ev)
    (hExiting : frame.exiting ≠ some p) : Accounted { s with stack } p := by
  refine h.mono rfl fun frame' hMem hAbout => ?_
  rw [hStack] at hMem
  rcases List.mem_cons.mp hMem with rfl | hMem
  · rcases hAbout with ⟨ev, hSame⟩ | hSame
    · exact absurd hSame (hCall ev)
    · exact absurd hSame hExiting
  · exact hMem

theorem Lists.threadReturns {result : PtResult} (h : Lists s xs)
    (hReturn : threadReturns result s = some t) : ∃ ys, Lists t ys := by
  unfold Kernel.threadReturns at hReturn
  split at hReturn
  · rename_i p ev stack hStack
    have hAccounted : ∀ q ∈ xs, q ≠ p → Accounted { s with stack } q := by
      intro q hq hNe
      refine (h.accounted q hq).pop hStack (fun ev' hSame => ?_) nofun
      exact hNe (Frame.call.inj hSame).1.symm
    split_ifs at hReturn
    · exact Lists.exitProcess (s := { s with stack }) h.list h.members hAccounted hReturn
    · obtain rfl := Option.some.inj hReturn
      refine ⟨xs, h.list, h.members, fun q hq => ?_⟩
      by_cases hSame : q = p
      · subst hSame
        exact Accounted.of_running (Function.update_self ..)
      · exact (hAccounted q hq hSame).mono (Function.update_of_ne hSame _ _) fun _ hMem _ => hMem
  · rename_i x stack hStack
    refine Lists.unlink (s := { s with stack }) h.list h.members (fun q hq hNe => ?_) hReturn
    exact (h.accounted q hq).pop hStack nofun fun hSame => hNe (Option.some.inj hSame).symm
  · cases hReturn

theorem Lists.resume {frame : Frame Process} {stack : List (Frame Process)} (h : Lists s xs)
    (hStack : s.stack = frame :: stack) (hStep : resume { s with stack } frame = some t) :
    ∃ ys, Lists t ys := by
  -- The frame that replaces another accounts for the same process.
  have hReplaced (frame' : Frame Process) (hCall : ∀ p ev, frame ≠ .call p ev)
      (hExiting : frame'.exiting = frame.exiting) : Lists { s with stack := frame' :: stack } xs := by
    refine ⟨h.list, h.members, fun q hq => ?_⟩
    by_cases hSame : frame.exiting = some q
    · refine ⟨fun hCalled => ?_, fun _ => ⟨frame', List.mem_cons_self .., hExiting.trans hSame⟩⟩
      obtain ⟨ev, hMem⟩ := (h.accounted q hq).called hCalled
      rw [hStack] at hMem
      rcases List.mem_cons.mp hMem with hSame | hMem
      · exact absurd hSame.symm (hCall q ev)
      · exact ⟨ev, List.mem_cons_of_mem _ hMem⟩
    · exact ((h.accounted q hq).pop hStack (hCall q) hSame).mono rfl
        fun _ hMem _ => List.mem_cons_of_mem _ hMem
  cases frame with
  | call p ev => cases hStep
  | lastCall x => cases hStep
  | synch caller =>
      obtain rfl := Option.some.inj hStep
      refine ⟨xs, h.list, h.members, fun q hq => ?_⟩
      exact ((h.accounted q hq).pop hStack nofun nofun).mono rfl fun _ hMem _ => hMem
  | notified x q =>
      obtain rfl := Option.some.inj hStep
      exact ⟨xs, hReplaced _ nofun rfl⟩
  | notify x q =>
      cases q with
      | none =>
          simp only [Kernel.resume] at hStep
          split_ifs at hStep
          · obtain rfl := Option.some.inj hStep
            have hLast := hReplaced (.lastCall x) nofun rfl
            exact ⟨xs, hLast.list, hLast.members, fun q hq =>
              (hLast.accounted q hq).mono rfl fun _ hMem _ => hMem⟩
          · refine Lists.unlink (s := { s with stack }) h.list h.members (fun q hq hNe => ?_) hStep
            exact (h.accounted q hq).pop hStack nofun fun hSame => hNe (Option.some.inj hSame).symm
      | some q =>
          obtain rfl := Option.some.inj hStep
          have hNext := hReplaced (.notified x q) nofun rfl
          refine ⟨xs, ?_⟩
          split
          · exact hNext.callProcess _ _
          · exact hNext

omit [Fintype Process] in
theorem Lists.pass {e : EventData Process} (h : Lists s xs) : Lists (doEvent.pass p e s) xs := by
  refine Lists.callProcess ?_ e.ev e.data
  split
  · exact ⟨h.list, h.members, fun q hq => (h.accounted q hq).mono rfl fun _ hMem _ => hMem⟩
  · exact h

omit [Fintype Process] in
theorem Lists.runs (h : Lists s xs) : Lists { s with state := Function.update s.state p .running } xs := by
  refine ⟨h.list, h.members, fun q hq => ?_⟩
  by_cases hSame : q = p
  · subst hSame
    exact Accounted.of_running (Function.update_self ..)
  · exact (h.accounted q hq).mono (Function.update_of_ne hSame _ _) fun _ hMem _ => hMem

omit [Fintype Process] in
/-- What `process_run` can do: it goes on to another point, calls a thread for a poll, takes an
event for one thread or for all, polls in between, or comes to the end of the threads. -/
theorem processRun_cases {main : Main Process} {motive : Kernel Process → Prop}
    (hStep : processRun s main = some t) (goesOn : ∀ next, motive { s with main := next })
    (polls : ∀ p delivery, main = .poll (some p) delivery → s.needspoll p = true →
      motive (callProcess p processEventPoll .null
        { s with
          main := .polled p delivery
          state := Function.update s.state p .running
          needspoll := Function.update s.needspoll p false }))
    (takes : ∀ e events next, motive { s with main := next, events, history := .taken e :: s.history })
    (passes : ∀ e events receiver, main = .event → s.events.take = some (e, events) →
      e.p = some receiver → motive (doEvent.pass receiver e
        { s with
          main := .idle
          events
          state := if e.ev = processEventInit then Function.update s.state receiver .running
            else s.state
          history := .taken e :: s.history }))
    (pollsAgain : ∀ delivery, motive (doPoll delivery s))
    (ends : motive { s with main := .idle, history := .finished :: s.history })
    (delivers : ∀ e p, motive (doEvent.pass p e { s with main := .delivered e p })) : motive t := by
  cases main with
  | idle => cases hStep
  | poll p delivery =>
      cases p with
      | none =>
          cases delivery with
          | none =>
              obtain rfl := Option.some.inj hStep
              exact goesOn _
          | some delivery =>
              obtain rfl := Option.some.inj hStep
              exact goesOn _
      | some p =>
          obtain rfl := Option.some.inj hStep
          dsimp only
          split
          · rename_i hNeeds
            exact polls p delivery rfl hNeeds
          · exact goesOn _
  | polled p delivery =>
      obtain rfl := Option.some.inj hStep
      exact goesOn _
  | event =>
      simp only [Kernel.processRun] at hStep
      split at hStep
      · obtain rfl := Option.some.inj hStep
        exact goesOn _
      · rename_i e events hTake
        obtain rfl := Option.some.inj hStep
        unfold doEvent
        split
        · exact takes e events _
        · rename_i receiver hReceiver
          have hPass := passes e events receiver rfl hTake hReceiver
          by_cases hInit : e.ev = processEventInit
          · rw [if_pos hInit] at hPass ⊢
            exact hPass
          · rw [if_neg hInit] at hPass ⊢
            exact hPass
  | broadcast e p =>
      cases p with
      | none =>
          obtain rfl := Option.some.inj hStep
          exact ends
      | some p =>
          obtain rfl := Option.some.inj hStep
          split
          · exact pollsAgain _
          · exact goesOn _
  | deliver e p =>
      obtain rfl := Option.some.inj hStep
      exact delivers e p
  | delivered e p =>
      obtain rfl := Option.some.inj hStep
      exact goesOn _

omit [Fintype Process] in
theorem Lists.processRun (h : Lists s xs) {main : Main Process}
    (hStep : processRun s main = some t) : Lists t xs := by
  have hSame (u : Kernel Process) (hList : IsList u.next u.processList xs)
      (hMembers : ∀ p, linked p u.history = true ↔ p ∈ xs) (hState : u.state = s.state)
      (hStack : u.stack = s.stack) : Lists u xs :=
    ⟨hList, hMembers, fun q hq =>
      (h.accounted q hq).mono (congrFun hState q) fun _ hMem _ => hStack ▸ hMem⟩
  have hGoesOn (main : Main Process) : Lists { s with main } xs :=
    hSame _ h.list h.members rfl rfl
  refine processRun_cases (motive := fun t => Lists t xs) hStep hGoesOn (fun p delivery _ _ => ?_)
    (fun e events main => hSame _ h.list h.members rfl rfl) (fun e events receiver _ _ _ => ?_)
    (fun delivery => hSame _ h.list h.members rfl rfl) (hSame _ h.list h.members rfl rfl)
    (fun e p => (hGoesOn _).pass)
  · have hRuns := (hGoesOn (.polled p delivery)).runs (p := p)
    refine Lists.callProcess ?_ _ _
    exact ⟨hRuns.list, hRuns.members, fun q hq =>
      (hRuns.accounted q hq).mono rfl fun _ hMem _ => hMem⟩
  · have hTaken : Lists { s with main := .idle, events, history := .taken e :: s.history } xs :=
      hSame _ h.list h.members rfl rfl
    apply Lists.pass
    by_cases hInit : e.ev = processEventInit
    · rw [if_pos hInit]
      exact hTaken.runs
    · rw [if_neg hInit]
      exact hTaken

/-- Every step keeps the list a list, and its members accounted for. -/
theorem Lists.step {action : Action Process} (h : Lists s xs) (hStep : step s action = some t) :
    ∃ ys, Lists t ys := by
  have hSame {t : Kernel Process} (hProcess : t.next = s.next ∧ t.processList = s.processList)
      (hHistory : ∀ p, linked p t.history = linked p s.history) (hState : t.state = s.state)
      (hStack : t.stack = s.stack) : Lists t xs := by
    refine ⟨?_, fun p => (hHistory p).symm ▸ h.members p, fun q hq => ?_⟩
    · rw [hProcess.1, hProcess.2]
      exact h.list
    · exact (h.accounted q hq).mono (by rw [hState]) fun _ hMem _ => hStack ▸ hMem
  cases action with
  | post p ev data =>
      simp only [Kernel.step] at hStep
      split_ifs at hStep
      obtain rfl := Option.some.inj hStep
      refine ⟨xs, ?_⟩
      unfold processPost
      split
      · exact h
      · exact hSame ⟨rfl, rfl⟩ (fun _ => rfl) rfl rfl
  | postSynch p ev data =>
      simp only [Kernel.step] at hStep
      split_ifs at hStep
      obtain rfl := Option.some.inj hStep
      exact ⟨xs, (h.push _).callProcess _ _⟩
  | start p data =>
      simp only [Kernel.step, processStart_eq h.list] at hStep
      split_ifs at hStep with hRuns hMem
      · obtain rfl := Option.some.inj hStep
        exact ⟨xs, h⟩
      · obtain rfl := Option.some.inj hStep
        exact ⟨p :: xs, ((h.link hMem).push _).callProcess _ _⟩
  | exit p =>
      simp only [Kernel.step] at hStep
      split_ifs at hStep
      exact Lists.exitProcess h.list h.members (fun q hq _ => h.accounted q hq) hStep
  | context p =>
      simp only [Kernel.step] at hStep
      split_ifs at hStep
      obtain rfl := Option.some.inj hStep
      exact ⟨xs, hSame ⟨rfl, rfl⟩ (fun _ => rfl) rfl rfl⟩
  | «return» result => exact h.threadReturns hStep
  | run =>
      simp only [Kernel.step] at hStep
      split at hStep
      · obtain rfl := Option.some.inj hStep
        refine ⟨xs, ?_⟩
        split
        · exact hSame ⟨rfl, rfl⟩ (fun _ => rfl) rfl rfl
        · exact hSame ⟨rfl, rfl⟩ (fun _ => rfl) rfl rfl
      · cases hStep
  | poll p =>
      obtain rfl := Option.some.inj hStep
      refine ⟨xs, ?_⟩
      unfold processPoll
      split
      · exact hSame ⟨rfl, rfl⟩ (fun _ => rfl) rfl rfl
      · exact h
  | kernel =>
      simp only [Kernel.step, kernelStep] at hStep
      split at hStep
      · exact ⟨xs, h.processRun hStep⟩
      · rename_i frame stack hStack
        exact h.resume hStack hStep

omit [Fintype Process] in
theorem lists_processInit (slots : Nat → EventData Process) :
    Lists (processInit slots) [] :=
  ⟨rfl, fun _ => by simp [processInit, linked], nofun⟩

/-- **The list of processes.** Whatever the threads do, the list is finite and holds the
processes that were started and not taken off since, all of them running but those whose
calls have not returned. -/
theorem processList_intact (slots : Nat → EventData Process) (actions : List (Action Process)) :
    Throughout step (fun s => ∃ xs, Lists s xs) (processInit slots) actions :=
  Throughout.of_invariant (fun _ h => h) (fun _ _ _ ⟨_, h⟩ hStep => h.step hStep)
    ⟨[], lists_processInit slots⟩ actions

end Kernel

end Smarthome.Contiki
