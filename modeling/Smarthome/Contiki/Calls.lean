import Smarthome.Contiki.Process

/-! The calls of one process's thread: it is called while it runs, for an event that has been
posted to it, and never inside its own call. What the others do leaves its state alone. -/
namespace Smarthome.Contiki

open Semantics

variable {Process : Type}

/-- The thread that a frame is the call of, with the event it is called for. -/
def Frame.thread : Frame Process → Option (Process × ProcessEvent)
  | .call p ev => some (p, ev)
  | .lastCall x => some (x.p, processEventExit)
  | _ => none

/-- A broadcast of `ev`. -/
def EventData.Broadcasts (ev : ProcessEvent) (e : EventData Process) : Prop :=
  e.ev = ev ∧ e.p = none

/-- The broadcast that is being delivered. -/
def Main.delivering : Main Process → Option (EventData Process)
  | .broadcast e _ | .deliver e _ | .delivered e _ => some e
  | .poll _ delivery | .polled _ delivery => delivery.map Prod.fst
  | _ => none

theorem Main.not_delivering {main : Main Process} (hNone : main.delivering = none) :
    ∀ e ∈ main.delivering, e.ev ≠ ev := by
  intro e hMem
  rw [hNone] at hMem
  cases hMem

/-- A frame that does not end `p`, or belongs to the exit that follows the end of its thread. -/
def Frame.Spares (p : Process) (frame : Frame Process) : Prop :=
  (∀ x ∈ frame.exitCall, x.p = p → x.fromprocess = some p) ∧ ∀ x, frame = .lastCall x → x.p ≠ p

/-- An action that leaves `p` to itself: it does not start, exit or poll it, and posts it neither
`ev` nor an initialization. -/
def Action.LeavesAlone (p : Process) (ev : ProcessEvent) : Action Process → Prop
  | .post q ev' _ => (q = some p → ev' ≠ ev ∧ ev' ≠ processEventInit) ∧ ¬ (ev' = ev ∧ q = none)
  | .postSynch q _ _ | .start q _ | .exit q | .poll q => q ≠ p
  | .context _ | .run | .kernel => True
  | .return _ => False

namespace Kernel

/-- The threads that have been called and have not returned, innermost first. -/
def threads (s : Kernel Process) : List (Process × ProcessEvent) := s.stack.filterMap Frame.thread

/-- No broadcast of `ev` is on its way. -/
structure Directed (ev : ProcessEvent) (s : Kernel Process) : Prop where
  queued : ∀ e ∈ s.events.contents, ¬ e.Broadcasts ev
  delivered : ∀ e ∈ s.main.delivering, e.ev ≠ ev

/-- Nothing but the end of its thread ends a process, and no poll and no initialization waits
for it. -/
structure Settled (p : Process) (s : Kernel Process) : Prop where
  unpolled : s.needspoll p = false
  uninitialized : ∀ e ∈ s.events.contents, e.p = some p → e.ev ≠ processEventInit
  spared : ∀ frame ∈ s.stack, frame.Spares p

variable [DecidableEq Process]

/-- The events `ev` for a process that are in the queue or that its thread is called for. -/
def owed (p : Process) (ev : ProcessEvent) (s : Kernel Process) : Nat :=
  s.events.contents.countP (fun e => e.ev = ev ∧ e.p = some p) + s.threads.count (p, ev)

theorem owed_pos {p : Process} {ev : ProcessEvent} {s : Kernel Process}
    (h : (p, ev) ∈ s.threads) : 0 < owed p ev s := Nat.add_pos_right _ (List.count_pos_iff.mpr h)

omit [DecidableEq Process] in
theorem directed_processInit (ev : ProcessEvent) (slots : Nat → EventData Process) :
    Directed ev (processInit slots) where
  queued e hMem := by simp [processInit] at hMem
  delivered e hMem := by cases hMem

omit [DecidableEq Process] in
theorem settled_processInit (p : Process) (slots : Nat → EventData Process) :
    Settled p (processInit slots) where
  unpolled := rfl
  uninitialized e hMem := by simp [processInit] at hMem
  spared frame hMem := by cases hMem

theorem owed_processInit (p : Process) (ev : ProcessEvent) (slots : Nat → EventData Process) :
    owed p ev (processInit slots) = 0 := by
  simp [owed, processInit, Kernel.threads]

/-- What a step that is not the return of a thread can do to `p`: nothing, or call its thread if
it runs, for an event that was owed to it. -/
structure Spectates (p : Process) (ev : ProcessEvent) (s t : Kernel Process) : Prop where
  threads : t.threads = s.threads ∧ t.state p = s.state p ∨
    ∃ q ev', t.threads = (q, ev') :: s.threads ∧
      (q ≠ p ∧ t.state p = s.state p ∨ q = p ∧ s.state p = .running ∧ t.state p = .called)
  owed : owed p ev t ≤ owed p ev s
  directed : Directed ev t
  settled : Settled p t

section Spectates

variable {p q : Process} {ev ev' : ProcessEvent} {s t : Kernel Process}

/-- A step that calls no thread. -/
theorem Spectates.quiet (hThreads : t.threads = s.threads) (hState : t.state p = s.state p)
    (hEvents : t.events.contents.Sublist s.events.contents) (hDirected : Directed ev t)
    (hSettled : Settled p t) : Spectates p ev s t where
  threads := Or.inl ⟨hThreads, hState⟩
  owed := by
    unfold Kernel.owed
    rw [hThreads]
    exact Nat.add_le_add_right (hEvents.countP_le) _
  directed := hDirected
  settled := hSettled

@[simp] theorem owed_call (p : Process) (ev : ProcessEvent) (s : Kernel Process) (state : Process → ProcessState)
    (current : Option Process) (history : List (Moment Process)) :
    owed p ev { s with current, state, stack := .call q ev' :: s.stack, history } =
      owed p ev s + if (q, ev') = (p, ev) then 1 else 0 := by
  simp only [owed, Kernel.threads, List.filterMap_cons, Frame.thread, List.count_cons, beq_iff_eq]
  omega

/-- A thread is called. If it is the thread of `p`, for `ev`, then one less is left in the queue. -/
theorem Spectates.callOwed (h : Spectates p ev s t) (hQuiet : t.threads = s.threads)
    (hState : t.state p = s.state p)
    (hOwed : Kernel.owed p ev t + (if (q, ev') = (p, ev) then 1 else 0) ≤ Kernel.owed p ev s)
    (data : ProcessData Process) : Spectates p ev s (callProcess q ev' data t) := by
  unfold callProcess
  split_ifs with hRuns
  · refine ⟨Or.inr ⟨q, ev', ?_, ?_⟩, ?_, ⟨h.directed.queued, h.directed.delivered⟩,
      ⟨h.settled.unpolled, h.settled.uninitialized, ?_⟩⟩
    · rw [← hQuiet]
      rfl
    · by_cases hSame : q = p
      · subst hSame
        exact Or.inr ⟨rfl, hState ▸ hRuns, Function.update_self ..⟩
      · exact Or.inl ⟨hSame, (Function.update_of_ne (Ne.symm hSame) _ _).trans hState⟩
    · rw [owed_call]
      exact hOwed
    · intro frame hFrame
      rcases List.mem_cons.mp hFrame with rfl | hOld
      · exact ⟨nofun, nofun⟩
      · exact h.settled.spared frame hOld
  · exact h

/-- A thread is called for another event, or it is not the thread of `p`. -/
theorem Spectates.call (h : Spectates p ev s t) (hQuiet : t.threads = s.threads)
    (hState : t.state p = s.state p) (hOther : (q, ev') ≠ (p, ev)) (data : ProcessData Process) :
    Spectates p ev s (callProcess q ev' data t) :=
  h.callOwed hQuiet hState (by rw [if_neg hOther]; exact h.owed) data

/-- A step that calls no thread, posts nothing and leaves the broadcast that is delivered. -/
theorem Spectates.still (hDirected : Directed ev s) (hSettled : Settled p s)
    (hThreads : t.threads = s.threads) (hState : t.state p = s.state p)
    (hEvents : t.events = s.events) (hMain : ∀ e ∈ t.main.delivering, e.ev ≠ ev)
    (hPolls : t.needspoll p = s.needspoll p) (hSpared : ∀ frame ∈ t.stack, frame.Spares p) :
    Spectates p ev s t := by
  have hContents : t.events.contents = s.events.contents := by rw [hEvents]
  refine Spectates.quiet hThreads hState (hContents ▸ List.Sublist.refl _)
    ⟨hContents ▸ hDirected.queued, hMain⟩ ⟨hPolls.trans hSettled.unpolled, ?_, hSpared⟩
  rw [hContents]
  exact hSettled.uninitialized

theorem Spectates.refl (hDirected : Directed ev s) (hSettled : Settled p s) : Spectates p ev s s :=
  Spectates.still hDirected hSettled rfl rfl rfl hDirected.delivered rfl hSettled.spared

/-- A frame that is the call of no thread is put on the stack. -/
theorem Spectates.push (hDirected : Directed ev s) (hSettled : Settled p s)
    {frame : Frame Process} (hThread : frame.thread = none) (hSpares : frame.Spares p) :
    Spectates p ev s { s with stack := frame :: s.stack } := by
  refine Spectates.still hDirected hSettled ?_ rfl rfl hDirected.delivered rfl ?_
  · simp [Kernel.threads, hThread]
  · intro frame' hFrame
    rcases List.mem_cons.mp hFrame with rfl | hOld
    · exact hSpares
    · exact hSettled.spared frame' hOld

omit [DecidableEq Process] in
@[simp] theorem threads_processPost (e : EventData Process) (s : Kernel Process) :
    (processPost e s).threads = s.threads := by
  unfold processPost
  split
  · rfl
  · rfl

omit [DecidableEq Process] in
@[simp] theorem state_processPost (e : EventData Process) (s : Kernel Process) :
    (processPost e s).state = s.state := by
  unfold processPost
  split
  · rfl
  · rfl

omit [DecidableEq Process] in
/-- A post that is no broadcast of the event, and no initialization of the process. -/
theorem settled_processPost {e : EventData Process} (hDirected : Directed ev s)
    (hSettled : Settled p s) (hBroadcast : ¬ e.Broadcasts ev)
    (hInit : e.p = some p → e.ev ≠ processEventInit) :
    Directed ev (processPost e s) ∧ Settled p (processPost e s) := by
  unfold processPost
  split
  · exact ⟨hDirected, hSettled⟩
  · rename_i events hPost
    have hContents := RingQueue.contents_post hPost
    refine ⟨⟨fun e' hMem => ?_, hDirected.delivered⟩,
      ⟨hSettled.unpolled, fun e' hMem hFor => ?_, hSettled.spared⟩⟩
    · rcases List.mem_append.mp (hContents ▸ hMem) with hOld | hNew
      · exact hDirected.queued e' hOld
      · rw [List.mem_singleton.mp hNew]
        exact hBroadcast
    · rcases List.mem_append.mp (hContents ▸ hMem) with hOld | hNew
      · exact hSettled.uninitialized e' hOld hFor
      · obtain rfl := List.mem_singleton.mp hNew
        exact hInit hFor

theorem spectates_processPost {e : EventData Process} (hDirected : Directed ev s)
    (hSettled : Settled p s) (hOther : e.p = some p → e.ev ≠ ev ∧ e.ev ≠ processEventInit)
    (hBroadcast : ¬ e.Broadcasts ev) : Spectates p ev s (processPost e s) := by
  obtain ⟨hDirected', hSettled'⟩ :=
    settled_processPost hDirected hSettled hBroadcast fun hFor => (hOther hFor).2
  refine ⟨Or.inl ⟨?_, ?_⟩, ?_, hDirected', hSettled'⟩
  · rw [threads_processPost]
  · rw [state_processPost]
  · have hNot : ¬ (e.ev = ev ∧ e.p = some p) := fun h => (hOther h.2).1 h.1
    unfold processPost
    split
    · exact Nat.le_refl _
    · rename_i events hPost
      simp [owed, RingQueue.contents_post hPost, List.countP_append, hNot, Kernel.threads]

/-- What is posted to a process is owed to it. -/
theorem owed_processPost_le (p : Process) (ev : ProcessEvent) (e : EventData Process)
    (s : Kernel Process) : owed p ev (processPost e s) ≤ owed p ev s + 1 := by
  unfold processPost
  split
  · omega
  · rename_i events hPost
    have hLe : [e].countP (fun e => e.ev = ev ∧ e.p = some p) ≤ 1 := List.countP_le_length
    simp only [owed, RingQueue.contents_post hPost, List.countP_append, Kernel.threads]
    omega

theorem spectates_processPostSynch (hDirected : Directed ev s) (hSettled : Settled p s)
    (hOther : (q, ev') ≠ (p, ev)) (data : ProcessData Process) :
    Spectates p ev s (processPostSynch q ev' data s) := by
  have hPushed : Spectates p ev s { s with stack := .synch s.current :: s.stack } :=
    Spectates.push hDirected hSettled rfl ⟨nofun, nofun⟩
  exact hPushed.call rfl rfl hOther data

theorem spectates_link (hDirected : Directed ev s) (hSettled : Settled p s) (hOther : q ≠ p) :
    Spectates p ev s (link q s) :=
  Spectates.still hDirected hSettled rfl (Function.update_of_ne (Ne.symm hOther) _ _) rfl
    hDirected.delivered rfl hSettled.spared

theorem Spectates.trans_still {u : Kernel Process} (first : Spectates p ev s t)
    (second : Spectates p ev t u) (hThreads : t.threads = s.threads)
    (hState : t.state p = s.state p) : Spectates p ev s u where
  threads := by
    have h := second.threads
    rw [hThreads, hState] at h
    exact h
  owed := Nat.le_trans second.owed first.owed
  directed := second.directed
  settled := second.settled

variable [Fintype Process]

theorem spectates_processStart {data : ProcessData Process} (hDirected : Directed ev s)
    (hSettled : Settled p s) (hOther : q ≠ p) (hStart : processStart q data s = some t) :
    Spectates p ev s t := by
  unfold processStart at hStart
  rw [Option.bind_eq_bind, Option.bind_eq_some_iff] at hStart
  obtain ⟨found, -, hStart⟩ := hStart
  cases found with
  | some _ =>
      obtain rfl := Option.some.inj hStart
      exact Spectates.refl hDirected hSettled
  | none =>
      obtain rfl := Option.some.inj hStart
      have hLink := spectates_link hDirected hSettled hOther
      exact hLink.trans_still (spectates_processPostSynch hLink.directed hLink.settled
        (fun h => hOther (Prod.mk.inj h).1) data) rfl (Function.update_of_ne (Ne.symm hOther) _ _)

/-- The start of the process itself, which calls its thread if it is not on the list yet. -/
theorem processStart_own {data : ProcessData Process} (hInit : ev ≠ processEventInit)
    (hDirected : Directed ev s) (hSettled : Settled p s) (hStart : processStart p data s = some t) :
    Directed ev t ∧ Settled p t ∧ owed p ev t = owed p ev s ∧
      (t.threads = s.threads ∧ t.state p = s.state p ∨
        t.threads = (p, processEventInit) :: s.threads ∧ t.state p = .called) := by
  unfold processStart at hStart
  rw [Option.bind_eq_bind, Option.bind_eq_some_iff] at hStart
  obtain ⟨found, -, hStart⟩ := hStart
  cases found with
  | some _ =>
      obtain rfl := Option.some.inj hStart
      exact ⟨hDirected, hSettled, rfl, Or.inl ⟨rfl, rfl⟩⟩
  | none =>
      obtain rfl := Option.some.inj hStart
      have hRuns : (link p s).state p = .running := Function.update_self ..
      have hNot : (p, processEventInit) ≠ (p, ev) := fun h => hInit (Prod.mk.inj h).2.symm
      rw [processPostSynch, callProcess, if_pos hRuns]
      refine ⟨⟨hDirected.queued, hDirected.delivered⟩,
        ⟨hSettled.unpolled, hSettled.uninitialized, fun frame hMem => ?_⟩, ?_,
        Or.inr ⟨rfl, Function.update_self ..⟩⟩
      · rcases List.mem_cons.mp hMem with rfl | hMem
        · exact ⟨nofun, nofun⟩
        · rcases List.mem_cons.mp hMem with rfl | hOld
          · exact ⟨nofun, nofun⟩
          · exact hSettled.spared frame hOld
      · rw [owed_call, if_neg hNot]
        rfl

/-- Where a process is taken off the list, the calls in progress and the states stay. -/
theorem spectates_unlink {x : ExitCall Process} (hDirected : Directed ev s) (hSettled : Settled p s)
    (hUnlink : unlink x s = some t) : Spectates p ev s t ∧ t.stack = s.stack ∧ t.state = s.state := by
  have hEnd (link : Option Process) (next : Process → Option Process) :
      Spectates p ev s (exitEnd x { s with
        processList := link, next := next, current := x.oldCurrent
        history := .unlinked x.p :: s.history }) :=
    Spectates.still hDirected hSettled rfl rfl rfl hDirected.delivered rfl hSettled.spared
  unfold unlink at hUnlink
  split at hUnlink
  · obtain rfl := Option.some.inj hUnlink
    exact ⟨hEnd _ _, rfl, rfl⟩
  · simp only [Option.bind_eq_bind, Option.bind_eq_some_iff] at hUnlink
    obtain ⟨found, -, hUnlink⟩ := hUnlink
    cases found with
    | some q =>
        obtain rfl := Option.some.inj hUnlink
        exact ⟨hEnd _ _, rfl, rfl⟩
    | none =>
        obtain rfl := Option.some.inj hUnlink
        exact ⟨hEnd _ _, rfl, rfl⟩

/-- `exit_process` calls no thread itself. It marks a process that it finds on the list. -/
theorem exitProcess_spec {fromprocess : Option Process} {byProcessExit : Bool}
    (hDirected : Directed ev s) (hSettled : Settled p s) (hOwn : q = p → fromprocess = some p)
    (hExit : exitProcess q fromprocess byProcessExit s = some t) :
    t.threads = s.threads ∧ owed p ev t ≤ owed p ev s ∧ Directed ev t ∧ Settled p t ∧
      (t.state p = s.state p ∨ q = p ∧ t.state p = .none) := by
  unfold exitProcess at hExit
  rw [Option.bind_eq_bind, Option.bind_eq_some_iff] at hExit
  obtain ⟨found, -, hExit⟩ := hExit
  cases found with
  | none =>
      obtain rfl := Option.some.inj hExit
      exact ⟨rfl, Nat.le_refl _, ⟨hDirected.queued, hDirected.delivered⟩,
        ⟨hSettled.unpolled, hSettled.uninitialized, hSettled.spared⟩, Or.inl rfl⟩
  | some _ =>
      simp only at hExit
      split_ifs at hExit with hState
      · obtain rfl := Option.some.inj hExit
        have hPushed : Spectates p ev s { s with
            stack := .notify ⟨q, fromprocess, s.current, byProcessExit⟩ s.processList :: s.stack } :=
          Spectates.push hDirected hSettled rfl
            ⟨fun x hx hSame => by
              obtain rfl := Option.some.inj hx
              exact hOwn hSame, nofun⟩
        refine ⟨rfl, hPushed.owed, ⟨hDirected.queued, hDirected.delivered⟩,
          ⟨hSettled.unpolled, hSettled.uninitialized, hPushed.settled.spared⟩, ?_⟩
        by_cases hSame : q = p
        · subst hSame
          exact Or.inr ⟨rfl, Function.update_self ..⟩
        · exact Or.inl (Function.update_of_ne (Ne.symm hSame) _ _)
      · obtain ⟨hView, hStack, hStates⟩ := spectates_unlink hDirected hSettled hExit
        exact ⟨by rw [Kernel.threads, hStack, Kernel.threads], hView.owed, hView.directed,
          hView.settled, Or.inl (congrFun hStates p)⟩

theorem spectates_exitProcess {fromprocess : Option Process} {byProcessExit : Bool}
    (hDirected : Directed ev s) (hSettled : Settled p s) (hOther : q ≠ p)
    (hExit : exitProcess q fromprocess byProcessExit s = some t) : Spectates p ev s t := by
  obtain ⟨hThreads, hOwed, hDirected', hSettled', hState⟩ :=
    exitProcess_spec hDirected hSettled (fun h => absurd h hOther) hExit
  exact ⟨Or.inl ⟨hThreads, hState.resolve_right fun h => hOther h.1⟩, hOwed, hDirected', hSettled'⟩

/-- A call of `process.c` goes on. -/
theorem spectates_resume {frame : Frame Process} {stack : List (Frame Process)}
    (hExited : ev ≠ processEventExited) (hDirected : Directed ev s) (hSettled : Settled p s)
    (hStack : s.stack = frame :: stack) (hResume : resume { s with stack } frame = some t) :
    Spectates p ev s t := by
  have hSpares := hSettled.spared frame (hStack ▸ List.mem_cons_self ..)
  have hBelow (frame' : Frame Process) (hMem : frame' ∈ stack) : frame'.Spares p :=
    hSettled.spared frame' (hStack ▸ List.mem_cons_of_mem _ hMem)
  -- The frame is popped, or another takes its place.
  have hReplaced (stack' : List (Frame Process)) (current : Option Process)
      (hThreads : stack'.filterMap Frame.thread = s.threads)
      (hSpared : ∀ frame' ∈ stack', frame'.Spares p) :
      Spectates p ev s { s with stack := stack', current } :=
    Spectates.still hDirected hSettled hThreads rfl rfl hDirected.delivered rfl hSpared
  have hPopped (hThread : frame.thread = none) : stack.filterMap Frame.thread = s.threads := by
    rw [Kernel.threads, hStack, List.filterMap_cons_none hThread]
  cases frame with
  | call q ev' => cases hResume
  | lastCall x => cases hResume
  | synch caller =>
      obtain rfl := Option.some.inj hResume
      exact hReplaced stack caller (hPopped rfl) hBelow
  | notified x q =>
      obtain rfl := Option.some.inj hResume
      refine hReplaced _ s.current (hPopped rfl) fun frame' hMem => ?_
      rcases List.mem_cons.mp hMem with rfl | hOld
      · exact ⟨hSpares.1, fun _ hLast => by cases hLast⟩
      · exact hBelow frame' hOld
  | notify x q =>
      cases q with
      | none =>
          simp only [Kernel.resume] at hResume
          split_ifs at hResume with hFrom
          · obtain rfl := Option.some.inj hResume
            have hOther : x.p ≠ p := by
              rintro rfl
              exact hFrom (hSpares.1 x rfl rfl)
            have hPushed : List.filterMap Frame.thread (.lastCall x :: stack) =
                (x.p, processEventExit) :: s.threads := by
              exact congrArg ((x.p, processEventExit) :: ·) (hPopped rfl)
            refine ⟨Or.inr ⟨x.p, processEventExit, hPushed, Or.inl ⟨hOther, rfl⟩⟩, ?_,
              ⟨hDirected.queued, hDirected.delivered⟩,
              ⟨hSettled.unpolled, hSettled.uninitialized, fun frame' hMem => ?_⟩⟩
            · have hNot : (x.p, processEventExit) ≠ (p, ev) := fun h => hOther (Prod.mk.inj h).1
              rw [owed, Kernel.threads, hPushed, List.count_cons_of_ne hNot]
              exact Nat.le_refl _
            · rcases List.mem_cons.mp hMem with rfl | hOld
              · exact ⟨hSpares.1, fun x' h => by
                  obtain rfl := Frame.lastCall.inj h
                  exact hOther⟩
              · exact hBelow frame' hOld
          · have hOver := hReplaced stack s.current (hPopped rfl) hBelow
            obtain ⟨hView, -, -⟩ := spectates_unlink hOver.directed hOver.settled hResume
            exact hOver.trans_still hView (hPopped rfl) rfl
      | some q =>
          obtain rfl := Option.some.inj hResume
          have hNext := hReplaced (.notified x q :: stack) s.current (hPopped rfl) fun frame' hMem => by
            rcases List.mem_cons.mp hMem with rfl | hOld
            · exact ⟨hSpares.1, fun _ hLast => by cases hLast⟩
            · exact hBelow frame' hOld
          dsimp only
          split_ifs
          · exact hNext.call (hPopped rfl) rfl (fun h => hExited (Prod.mk.inj h).2.symm) _
          · exact hNext

omit [Fintype Process] in
/-- An event is taken and passed on. -/
theorem spectates_doEvent {e : EventData Process}
    {events : RingQueue (EventData Process) processConfNumevents} (hDirected : Directed ev s)
    (hSettled : Settled p s) (hTake : s.events.take = some (e, events)) :
    Spectates p ev s (doEvent e { s with events, history := .taken e :: s.history }) := by
  have hContents : s.events.contents = e :: events.contents := RingQueue.contents_take hTake
  have hHead : e ∈ s.events.contents := hContents ▸ List.mem_cons_self ..
  have hRest {e' : EventData Process} (hMem : e' ∈ events.contents) : e' ∈ s.events.contents :=
    hContents ▸ List.mem_cons_of_mem _ hMem
  -- What is left in the queue, whatever the kernel goes on with.
  have hLeft (main : Main Process) (state : Process → ProcessState)
      (history : List (Moment Process)) (hState : state p = s.state p)
      (hDelivers : ∀ e ∈ main.delivering, e.ev ≠ ev) :
      Spectates p ev s { s with events, main, state, history } :=
    Spectates.quiet rfl hState (hContents ▸ List.sublist_cons_self ..)
      ⟨fun e' hMem => hDirected.queued e' (hRest hMem), hDelivers⟩
      ⟨hSettled.unpolled, fun e' hMem => hSettled.uninitialized e' (hRest hMem), hSettled.spared⟩
  unfold doEvent
  split
  · rename_i hAll
    exact hLeft _ s.state _ rfl fun e' hMem hSame => by
      obtain rfl := Option.some.inj hMem
      exact hDirected.queued e hHead ⟨hSame, hAll⟩
  · rename_i receiver hReceiver
    have hUpdated (hInit : e.ev = processEventInit) :
        Function.update s.state receiver .running p = s.state p := by
      apply Function.update_of_ne
      rintro rfl
      exact hSettled.uninitialized e hHead hReceiver hInit
    have hPass (state : Process → ProcessState) (history : List (Moment Process))
        (hState : state p = s.state p) : Spectates p ev s (callProcess receiver e.ev e.data
          { s with events, main := .idle, state, history }) := by
      refine (hLeft .idle state history hState (Main.not_delivering rfl)).callOwed rfl hState ?_ e.data
      have hCount : (decide (e.ev = ev ∧ e.p = some p) = true) ↔ (receiver, e.ev) = (p, ev) := by
        rw [decide_eq_true_iff, hReceiver, Prod.mk.injEq, Option.some.injEq, and_comm]
      simp only [owed, hContents, List.countP_cons, hCount, Kernel.threads]
      omega
    unfold doEvent.pass
    dsimp only
    split_ifs with hInit
    · exact hPass _ _ (hUpdated hInit)
    · exact hPass _ _ (hUpdated hInit)
    · exact hPass _ _ rfl
    · exact hPass _ _ rfl

omit [Fintype Process] in
/-- `process_run` goes on. -/
theorem spectates_processRun {main : Main Process} (hPoll : ev ≠ processEventPoll)
    (hDirected : Directed ev s) (hSettled : Settled p s) (hMain : s.main = main)
    (hRun : processRun s main = some t) : Spectates p ev s t := by
  have hMoves (main' : Main Process) (hDelivers : ∀ e ∈ main'.delivering, e.ev ≠ ev) :
      Spectates p ev s { s with main := main' } :=
    Spectates.still hDirected hSettled rfl rfl rfl hDelivers rfl hSettled.spared
  have hHere := hDirected.delivered
  rw [hMain] at hHere
  cases main with
  | idle => cases hRun
  | poll q delivery =>
      cases q with
      | none =>
          cases delivery with
          | none =>
              obtain rfl := Option.some.inj hRun
              exact hMoves _ (Main.not_delivering rfl)
          | some delivery =>
              obtain rfl := Option.some.inj hRun
              exact hMoves _ hHere
      | some q =>
          obtain rfl := Option.some.inj hRun
          dsimp only
          split_ifs with hNeeds
          · have hOther : q ≠ p := by
              rintro rfl
              rw [hSettled.unpolled] at hNeeds
              cases hNeeds
            have hPolled : Spectates p ev s { s with
                main := .polled q delivery
                state := Function.update s.state q .running
                needspoll := Function.update s.needspoll q false } :=
              Spectates.still hDirected hSettled rfl
                (Function.update_of_ne (Ne.symm hOther) _ _) rfl hHere
                (Function.update_of_ne (Ne.symm hOther) _ _) hSettled.spared
            exact hPolled.call rfl (Function.update_of_ne (Ne.symm hOther) _ _)
              (fun h => hPoll (Prod.mk.inj h).2.symm) _
          · exact hMoves _ hHere
  | polled q delivery =>
      obtain rfl := Option.some.inj hRun
      exact hMoves _ hHere
  | broadcast e q =>
      cases q with
      | none =>
          obtain rfl := Option.some.inj hRun
          exact Spectates.still hDirected hSettled rfl rfl rfl (Main.not_delivering rfl) rfl hSettled.spared
      | some q =>
          obtain rfl := Option.some.inj hRun
          split_ifs
          · exact Spectates.still hDirected hSettled rfl rfl rfl hHere rfl hSettled.spared
          · exact hMoves _ hHere
  | deliver e q =>
      obtain rfl := Option.some.inj hRun
      have hOther : (q, e.ev) ≠ (p, ev) := fun h => hHere e rfl (Prod.mk.inj h).2
      have hPassed : Spectates p ev s (record (.passed q e) { s with main := .delivered e q }) :=
        Spectates.still hDirected hSettled rfl rfl rfl hHere rfl hSettled.spared
      unfold doEvent.pass
      split_ifs
      · exact hPassed.call rfl rfl hOther _
      · exact (hMoves (.delivered e q) hHere).call rfl rfl hOther _
  | delivered e q =>
      obtain rfl := Option.some.inj hRun
      exact hMoves _ hHere
  | event =>
      simp only [Kernel.processRun] at hRun
      split at hRun
      · obtain rfl := Option.some.inj hRun
        exact hMoves _ (Main.not_delivering rfl)
      · rename_i e events hTake
        obtain rfl := Option.some.inj hRun
        exact spectates_doEvent hDirected hSettled hTake

/-- **What others do to a process.** A step that leaves it alone calls its thread only while it
runs, and for an event that it was owed. -/
theorem spectates_step {action : Action Process} (hPoll : ev ≠ processEventPoll)
    (hExited : ev ≠ processEventExited) (hDirected : Directed ev s) (hSettled : Settled p s)
    (hAlone : action.LeavesAlone p ev) (hStep : step s action = some t) : Spectates p ev s t := by
  cases action with
  | post q ev' data =>
      simp only [Kernel.step] at hStep
      split_ifs at hStep
      obtain rfl := Option.some.inj hStep
      exact spectates_processPost hDirected hSettled hAlone.1 hAlone.2
  | postSynch q ev' data =>
      simp only [Kernel.step] at hStep
      split_ifs at hStep
      obtain rfl := Option.some.inj hStep
      exact spectates_processPostSynch hDirected hSettled (fun h => hAlone (Prod.mk.inj h).1) data
  | start q data =>
      simp only [Kernel.step] at hStep
      split_ifs at hStep
      exact spectates_processStart hDirected hSettled hAlone hStep
  | exit q =>
      simp only [Kernel.step] at hStep
      split_ifs at hStep
      exact spectates_exitProcess hDirected hSettled hAlone hStep
  | context q =>
      simp only [Kernel.step] at hStep
      split_ifs at hStep
      obtain rfl := Option.some.inj hStep
      exact Spectates.still hDirected hSettled rfl rfl rfl hDirected.delivered rfl hSettled.spared
  | «return» result => exact hAlone.elim
  | run =>
      simp only [Kernel.step] at hStep
      split at hStep
      · obtain rfl := Option.some.inj hStep
        split_ifs
        · exact Spectates.still hDirected hSettled rfl rfl rfl (Main.not_delivering rfl) rfl hSettled.spared
        · exact Spectates.still hDirected hSettled rfl rfl rfl (Main.not_delivering rfl) rfl hSettled.spared
      · cases hStep
  | poll q =>
      obtain rfl := Option.some.inj hStep
      unfold processPoll
      split_ifs
      · exact Spectates.still hDirected hSettled rfl rfl rfl hDirected.delivered
          (Function.update_of_ne (Ne.symm hAlone) _ _) hSettled.spared
      · exact Spectates.refl hDirected hSettled
  | kernel =>
      simp only [Kernel.step, kernelStep] at hStep
      split at hStep
      · exact spectates_processRun hPoll hDirected hSettled rfl hStep
      · rename_i frame stack hStack
        exact spectates_resume hExited hDirected hSettled hStack hStep

/-- The thread that was called last returns. What its process was owed by the call is paid; a
process that its thread has ended does not run. -/
theorem threadReturns_spec {result : PtResult} (hDirected : Directed ev s) (hSettled : Settled p s)
    (hReturn : threadReturns result s = some t) :
    ∃ q ev', s.threads = (q, ev') :: t.threads ∧ Directed ev t ∧ Settled p t ∧
      owed p ev t + (if (q, ev') = (p, ev) then 1 else 0) ≤ owed p ev s ∧
      (q ≠ p → t.state p = s.state p) ∧
      (result = .ended → s.state p ≠ .running → t.state p ≠ .running) := by
  -- The frame of the call is popped.
  have hPopped {frame : Frame Process} {stack : List (Frame Process)} {q : Process}
      {ev' : ProcessEvent} (hStack : s.stack = frame :: stack) (hThread : frame.thread = some (q, ev')) :
      s.threads = (q, ev') :: threads { s with stack } ∧ Settled p { s with stack } ∧
        owed p ev { s with stack } + (if (q, ev') = (p, ev) then 1 else 0) = owed p ev s := by
    have hThreads : s.threads = (q, ev') :: threads { s with stack } := by
      rw [Kernel.threads, hStack, List.filterMap_cons_some hThread, Kernel.threads]
    refine ⟨hThreads, ⟨hSettled.unpolled, hSettled.uninitialized, fun frame' hMem => ?_⟩, ?_⟩
    · exact hSettled.spared frame' (hStack ▸ List.mem_cons_of_mem _ hMem)
    · rw [owed, owed, hThreads, List.count_cons]
      simp only [beq_iff_eq]
      omega
  unfold threadReturns at hReturn
  split at hReturn
  · rename_i q ev' stack hStack
    obtain ⟨hThreads, hSettled', hOwed⟩ := hPopped hStack rfl
    have hDirected' : Directed ev { s with stack } := ⟨hDirected.queued, hDirected.delivered⟩
    split_ifs at hReturn
    · obtain ⟨hSame, hLess, hDirected'', hSettled'', hState⟩ :=
        exitProcess_spec hDirected' hSettled' (fun h => congrArg some h) hReturn
      refine ⟨q, ev', hSame ▸ hThreads, hDirected'', hSettled'', by omega, ?_, ?_⟩
      · exact fun hOther => hState.resolve_right fun h => hOther h.1
      · intro _ hNot
        rcases hState with hState | ⟨-, hState⟩
        · rwa [hState]
        · simp [hState]
    · obtain rfl := Option.some.inj hReturn
      refine ⟨q, ev', hThreads, ⟨hDirected.queued, hDirected.delivered⟩,
        ⟨hSettled'.unpolled, hSettled'.uninitialized, hSettled'.spared⟩, ?_, ?_, ?_⟩
      · exact Nat.le_of_eq hOwed
      · exact fun hOther => Function.update_of_ne (Ne.symm hOther) _ _
      · intro hEnded
        rename_i hNot
        exact absurd (Or.inr (Or.inl hEnded)) hNot
  · rename_i x stack hStack
    obtain ⟨hThreads, hSettled', hOwed⟩ := hPopped hStack rfl
    have hDirected' : Directed ev { s with stack } := ⟨hDirected.queued, hDirected.delivered⟩
    obtain ⟨hView, hSame, hState⟩ := spectates_unlink hDirected' hSettled' hReturn
    have hLess := hView.owed
    refine ⟨x.p, processEventExit, ?_, hView.directed, hView.settled, by omega, ?_, ?_⟩
    · rw [hThreads, Kernel.threads, Kernel.threads, hSame]
    · exact fun _ => congrFun hState p
    · intro _ hNot
      rw [hState]
      exact hNot
  · cases hReturn

end Spectates

end Kernel

end Smarthome.Contiki
