import Smarthome.Contiki.Process

/-! Processes that were exited: their state, and the calls of their threads. -/
namespace Smarthome.Contiki

open Semantics

variable {Process : Type}

/-- `process_exit` has been called for the process and has not returned. -/
def Frame.Pending (p : Process) (frame : Frame Process) : Prop :=
  ∃ x ∈ frame.exitCall, x.p = p ∧ x.byProcessExit = true

/-- `exit_process` will call the thread of the process at its end. -/
def Frame.CallsLast (p : Process) : Frame Process → Prop
  | .notify x _ => x.p = p ∧ x.fromprocess ≠ some p
  | .notified x _ => x.p = p ∧ x.fromprocess ≠ some p
  | _ => False

namespace Kernel

variable [DecidableEq Process]

/-- `process_exit` has returned for the process, and it was not started since. -/
def exited (p : Process) : List (Moment Process) → Bool
  | [] => false
  | .exitReturned q :: earlier => q = p || exited p earlier
  | .started q :: earlier => q ≠ p && exited p earlier
  | _ :: earlier => exited p earlier

/-- At no call of a thread its process was exited. -/
def CallsUnexited : List (Moment Process) → Prop
  | [] => True
  | .called p _ _ :: earlier => exited p earlier = false ∧ CallsUnexited earlier
  | _ :: earlier => CallsUnexited earlier

/-- An exited process is not running, and its thread has not been called. -/
def StaysExited (s : Kernel Process) : Prop :=
  (∀ p, exited p s.history = true → s.state p = .none) ∧ CallsUnexited s.history

/-- A step that does not revive an exited process: a thread that was exited during its call
returns as one that has ended, no initialization event reaches an exited process and no
poll that it had requested. `process_exit` is called for a process that is on the list or
does not run, not while its exit notifies others before its last call, and the process is
not started before it returns. -/
def LeavesExited (s : Kernel Process) : Action Process → Prop
  | .return result =>
      match s.stack with
      | .call p ev :: _ => exited p s.history = true →
          result = .exited ∨ result = .ended ∨ ev = processEventExit
      | _ => True
  | .start p _ => linked p s.history = false → ∀ frame ∈ s.stack, ¬ frame.Pending p
  | .exit p => (linked p s.history = true ∨ s.state p = .none) ∧
      ∀ frame ∈ s.stack, ¬ frame.CallsLast p
  | .kernel =>
      match s.stack, s.main with
      | [], .poll (some p) _ => s.needspoll p = true → exited p s.history = false
      | [], .event => ∀ taken ∈ s.events.take, taken.1.ev = processEventInit →
          ∀ receiver ∈ taken.1.p, exited receiver s.history = false
      | _, _ => True
  | _ => True

/-- No thread runs above an exit of its process, and none is called last by an exit below
one that returns first. -/
def Nested (upper lower : Frame Process) : Prop :=
  ∀ p, (lower.Pending p → ∀ ev, upper ≠ .call p ev) ∧ (upper.Pending p → ¬ lower.CallsLast p)

structure Exits (s : Kernel Process) : Prop where
  exited : ∀ p, exited p s.history = true → s.state p = .none ∧ linked p s.history = false ∧
    ∀ frame ∈ s.stack, ¬ frame.CallsLast p
  calls : CallsUnexited s.history
  pending : ∀ p, ∀ frame ∈ s.stack, frame.Pending p → s.state p = .none
  nested : s.stack.Pairwise Nested

namespace Exits

variable {s t : Kernel Process} {p : Process} {x : ExitCall Process} {xs : List Process}
  {frame frame' : Frame Process} {stack : List (Frame Process)}

theorem staysExited (h : Exits s) : StaysExited s :=
  ⟨fun p hp => (h.exited p hp).1, h.calls⟩

theorem not_exited (h : Exits s) (hState : s.state p ≠ .none) : Kernel.exited p s.history = false :=
  Bool.eq_false_iff.mpr fun hExited => hState (h.exited p hExited).1

theorem callProcess (h : Exits s) (ev : ProcessEvent) (data : ProcessData Process) :
    Exits (callProcess p ev data s) := by
  unfold Kernel.callProcess
  split
  · rename_i hRunning
    have hNot := h.not_exited (p := p) (by simp [hRunning])
    have hOther {q : Process} (hq : Kernel.exited q s.history = true) : q ≠ p := by
      rintro rfl
      rw [hNot] at hq
      cases hq
    have hFree : ∀ frame ∈ s.stack, ¬ frame.Pending p := by
      intro frame hMem hPending
      have hNone := h.pending p frame hMem hPending
      rw [hRunning] at hNone
      cases hNone
    refine ⟨fun q hq => ?_, ⟨hNot, h.calls⟩, fun q frame hMem hPending => ?_,
      List.pairwise_cons.mpr ⟨fun frame hMem q => ⟨fun hPending ev' hSame => ?_, ?_⟩, h.nested⟩⟩
    · obtain ⟨hState, hLinked, hLast⟩ := h.exited q hq
      refine ⟨(Function.update_of_ne (hOther hq) _ _).trans hState, hLinked, fun frame hMem => ?_⟩
      rcases List.mem_cons.mp hMem with rfl | hMem
      · exact id
      · exact hLast frame hMem
    · rcases List.mem_cons.mp hMem with rfl | hMem
      · obtain ⟨x, hx, -⟩ := hPending
        cases hx
      · have hNe : q ≠ p := fun hSame => hFree frame hMem (hSame ▸ hPending)
        exact (Function.update_of_ne hNe _ _).trans (h.pending q frame hMem hPending)
    · obtain ⟨rfl, -⟩ := Frame.call.inj hSame
      exact hFree frame hMem hPending
    · rintro ⟨x, hx, -⟩
      cases hx
  · exact h

/-- A frame that is not part of an exit. -/
theorem push (frame : Frame Process) (h : Exits s) (hNone : frame.exitCall = none)
    (hCall : ∀ p ev, frame ≠ .call p ev) :
    Exits { s with stack := frame :: s.stack } := by
  have hPending (q : Process) : ¬ frame.Pending q := by
    rintro ⟨x, hx, -⟩
    rw [hNone] at hx
    cases hx
  have hLast (q : Process) : ¬ frame.CallsLast q := by
    cases frame with
    | notify x q => cases hNone
    | notified x q => cases hNone
    | call p ev => exact id
    | lastCall x => exact id
    | synch caller => exact id
  refine ⟨fun q hq => ?_, h.calls, fun q => ?_, ?_⟩
  · obtain ⟨hState, hLinked, hFrames⟩ := h.exited q hq
    exact ⟨hState, hLinked, List.forall_mem_cons.mpr ⟨hLast q, hFrames⟩⟩
  · exact List.forall_mem_cons.mpr ⟨fun hIs => absurd hIs (hPending q), h.pending q⟩
  · exact List.pairwise_cons.mpr ⟨fun g _ q => ⟨fun _ ev => hCall q ev,
      fun hIs => absurd hIs (hPending q)⟩, h.nested⟩

theorem pop (h : Exits s) (hStack : s.stack = frame :: stack) : Exits { s with stack } where
  exited q hq := by
    obtain ⟨hState, hLinked, hFrames⟩ := h.exited q hq
    rw [hStack] at hFrames
    exact ⟨hState, hLinked, (List.forall_mem_cons.mp hFrames).2⟩
  calls := h.calls
  pending q := by
    have hPending := h.pending q
    rw [hStack] at hPending
    exact (List.forall_mem_cons.mp hPending).2
  nested := by
    have hNested := h.nested
    rw [hStack] at hNested
    exact (List.pairwise_cons.mp hNested).2

/-- An exit goes on. -/
theorem replace (frame' : Frame Process) (h : Exits s) (hStack : s.stack = frame :: stack)
    (hExit : frame'.exitCall = frame.exitCall) (hCall : ∀ p ev, frame' ≠ .call p ev)
    (hLast : ∀ p, frame'.CallsLast p → frame.CallsLast p) :
    Exits { s with stack := frame' :: stack } := by
  have hPending {q : Process} (hIs : frame'.Pending q) : frame.Pending q := by
    obtain ⟨x, hx, hIs⟩ := hIs
    exact ⟨x, hExit ▸ hx, hIs⟩
  have hNested := h.nested
  rw [hStack, List.pairwise_cons] at hNested
  refine ⟨fun q hq => ?_, h.calls, fun q => List.forall_mem_cons.mpr ⟨fun hIs => ?_, ?_⟩,
    List.pairwise_cons.mpr ⟨fun g hg q => ⟨fun _ ev => hCall q ev, fun hIs => ?_⟩, hNested.2⟩⟩
  · obtain ⟨hState, hLinked, hFrames⟩ := h.exited q hq
    rw [hStack, List.forall_mem_cons] at hFrames
    exact ⟨hState, hLinked, List.forall_mem_cons.mpr ⟨fun hIs => hFrames.1 (hLast q hIs), hFrames.2⟩⟩
  · exact h.pending q frame (hStack ▸ List.mem_cons_self ..) (hPending hIs)
  · exact (h.pop hStack).pending q
  · exact (hNested.1 g hg q).2 (hPending hIs)

theorem runs (h : Exits s) (hNot : Kernel.exited p s.history = false)
    (hFree : ∀ frame ∈ s.stack, ¬ frame.Pending p) :
    Exits { s with state := Function.update s.state p .running } where
  exited q hq := by
    obtain ⟨hState, hLinked, hFrames⟩ := h.exited q hq
    refine ⟨(Function.update_of_ne ?_ _ _).trans hState, hLinked, hFrames⟩
    rintro rfl
    rw [hNot] at hq
    cases hq
  calls := h.calls
  pending q frame hMem hPending := by
    refine (Function.update_of_ne ?_ _ _).trans (h.pending q frame hMem hPending)
    rintro rfl
    exact hFree frame hMem hPending
  nested := h.nested

theorem link (h : Exits s) (hFree : ∀ frame ∈ s.stack, ¬ frame.Pending p) : Exits (link p s) where
  exited q hq := by
    simp only [Kernel.link, Kernel.exited, Bool.and_eq_true, decide_eq_true_eq] at hq
    obtain ⟨hState, hLinked, hFrames⟩ := h.exited q hq.2
    refine ⟨(Function.update_of_ne (Ne.symm hq.1) _ _).trans hState, ?_, hFrames⟩
    simp [Kernel.link, linked, hLinked, hq.1]
  calls := h.calls
  pending q frame hMem hPending := by
    refine (Function.update_of_ne ?_ _ _).trans (h.pending q frame hMem hPending)
    rintro rfl
    exact hFree frame hMem hPending
  nested := h.nested

/-- `exit_process` returns. -/
theorem exitEnd (h : Exits s) (hx : x.byProcessExit = true → s.state x.p = .none ∧
      linked x.p s.history = false ∧ ∀ frame ∈ s.stack, ¬ frame.CallsLast x.p) :
    Exits (exitEnd x s) := by
  unfold Kernel.exitEnd
  split
  · rename_i hBy
    refine ⟨fun q hq => ?_, h.calls, h.pending, h.nested⟩
    simp only [List.cons_append, List.nil_append, Kernel.exited, Bool.or_eq_true,
      decide_eq_true_eq] at hq
    rcases hq with rfl | hq
    · exact hx hBy
    · exact h.exited q hq
  · exact ⟨h.exited, h.calls, h.pending, h.nested⟩

variable [Fintype Process]

theorem unlink (h : Exits s) (hList : IsList s.next s.processList xs)
    (hx : x.byProcessExit = true → s.state x.p = .none ∧ ∀ frame ∈ s.stack, ¬ frame.CallsLast x.p)
    (hUnlink : unlink x s = some t) : Exits t := by
  obtain ⟨link, next, ys, hEq, -⟩ := unlink_eq hList x
  rw [hEq] at hUnlink
  obtain rfl := Option.some.inj hUnlink
  have hGone (q : Process) (hq : linked q s.history = false) :
      linked q (.unlinked x.p :: s.history) = false := by
    simp [linked, hq]
  refine exitEnd ⟨fun q hq => ?_, h.calls, h.pending, h.nested⟩ fun hBy => ?_
  · obtain ⟨hState, hLinked, hFrames⟩ := h.exited q hq
    exact ⟨hState, hGone q hLinked, hFrames⟩
  · exact ⟨(hx hBy).1, by simp [linked], (hx hBy).2⟩

theorem exitProcess {fromprocess : Option Process} {byProcessExit : Bool} (h : Exits s)
    (hList : IsList s.next s.processList xs) (hMembers : ∀ p, linked p s.history = true ↔ p ∈ xs)
    (hBy : byProcessExit = true → (linked p s.history = true ∨ s.state p = .none) ∧
      ∀ frame ∈ s.stack, ¬ frame.CallsLast p)
    (hExit : exitProcess p fromprocess byProcessExit s = some t) : Exits t := by
  rcases exitProcess_cases p fromprocess byProcessExit hList rfl with
    ⟨hNot, hEq⟩ | ⟨hMem, hState, hEq⟩ | ⟨hMem, hState, hEq⟩
  · rw [hEq] at hExit
    obtain rfl := Option.some.inj hExit
    have hLinked : linked p s.history = false := by
      rw [← hMembers] at hNot
      exact Bool.eq_false_iff.mpr hNot
    refine h.exitEnd fun hIs => ?_
    obtain ⟨hOr, hFrames⟩ := hBy hIs
    rw [hLinked] at hOr
    exact ⟨hOr.resolve_left Bool.false_ne_true, hLinked, hFrames⟩
  · rw [hEq] at hExit
    obtain rfl := Option.some.inj hExit
    refine ⟨fun q hq => ?_, h.calls, fun q => List.forall_mem_cons.mpr ⟨?_, fun frame hMem hIs => ?_⟩,
      List.pairwise_cons.mpr ⟨fun frame hFrame q => ⟨nofun, ?_⟩, h.nested⟩⟩
    · obtain ⟨hNone, hLinked, hFrames⟩ := h.exited q hq
      have hNe : q ≠ p := by
        rintro rfl
        exact hState hNone
      refine ⟨(Function.update_of_ne hNe _ _).trans hNone, hLinked,
        List.forall_mem_cons.mpr ⟨fun hLast => hNe hLast.1.symm, hFrames⟩⟩
    · rintro ⟨x, hx, hSame, -⟩
      obtain rfl := Option.some.inj hx
      obtain rfl := hSame
      exact Function.update_self ..
    · have hNone := h.pending q frame hMem hIs
      refine (Function.update_of_ne ?_ _ _).trans hNone
      rintro rfl
      exact hState hNone
    · rintro ⟨x, hx, hSame, hIs⟩
      obtain rfl := Option.some.inj hx
      obtain rfl := hSame
      exact (hBy hIs).2 frame hFrame
  · rw [hEq] at hExit
    exact h.unlink hList (fun hIs => ⟨hState, (hBy hIs).2⟩) hExit

theorem threadReturns {result : PtResult} (h : Exits s) (hLists : Lists s xs)
    (hLeaves : LeavesExited s (.return result)) (hReturn : threadReturns result s = some t) :
    Exits t := by
  unfold Kernel.threadReturns at hReturn
  split at hReturn
  · rename_i p ev stack hStack
    have hNested := h.nested
    rw [hStack, List.pairwise_cons] at hNested
    split_ifs at hReturn with hEnds
    · refine (h.pop hStack).exitProcess hLists.list hLists.members (fun hBy => ?_) hReturn
      cases hBy
    · obtain rfl := Option.some.inj hReturn
      refine (h.pop hStack).runs ?_ fun frame hMem hPending => ?_
      · simp only [LeavesExited, hStack] at hLeaves
        exact Bool.eq_false_iff.mpr fun hIs => hEnds (hLeaves hIs)
      · exact ((hNested.1 frame hMem) p).1 hPending ev rfl
  · rename_i x stack hStack
    have hNested := h.nested
    rw [hStack, List.pairwise_cons] at hNested
    refine (h.pop hStack).unlink hLists.list (fun hBy => ?_) hReturn
    have hPending : (Frame.lastCall x).Pending x.p := ⟨x, rfl, rfl, hBy⟩
    have hTop : Frame.lastCall x ∈ s.stack := hStack ▸ List.mem_cons_self ..
    exact ⟨h.pending _ _ hTop hPending, fun frame hMem => (hNested.1 frame hMem x.p).2 hPending⟩
  · cases hReturn

theorem resume (h : Exits s) (hLists : Lists s xs) (hStack : s.stack = frame :: stack)
    (hStep : resume { s with stack } frame = some t) : Exits t := by
  have hTop : frame ∈ s.stack := hStack ▸ List.mem_cons_self ..
  cases frame with
  | call p ev => cases hStep
  | lastCall x => cases hStep
  | synch caller =>
      obtain rfl := Option.some.inj hStep
      have hPopped := h.pop hStack
      exact ⟨hPopped.exited, hPopped.calls, hPopped.pending, hPopped.nested⟩
  | notified x q =>
      obtain rfl := Option.some.inj hStep
      exact h.replace _ hStack rfl (by simp) fun _ hLast => hLast
  | notify x q =>
      cases q with
      | none =>
          simp only [Kernel.resume] at hStep
          split_ifs at hStep with hFrom
          · -- The exit that calls the thread last has not returned.
            obtain rfl := Option.some.inj hStep
            have hNot : Kernel.exited x.p s.history = false :=
              Bool.eq_false_iff.mpr fun hIs => (h.exited _ hIs).2.2 _ hTop ⟨rfl, hFrom⟩
            have hLast := h.replace (.lastCall x) hStack rfl (by simp) fun _ hFalse => hFalse.elim
            exact ⟨hLast.exited, ⟨hNot, hLast.calls⟩, hLast.pending, hLast.nested⟩
          · have hNested := h.nested
            rw [hStack, List.pairwise_cons] at hNested
            refine (h.pop hStack).unlink hLists.list (fun hBy => ?_) hStep
            have hPending : (Frame.notify x none).Pending x.p := ⟨x, rfl, rfl, hBy⟩
            exact ⟨h.pending _ _ hTop hPending,
              fun frame hMem => (hNested.1 frame hMem x.p).2 hPending⟩
      | some q =>
          obtain rfl := Option.some.inj hStep
          have hNext := h.replace (.notified x q) hStack rfl (by simp) fun _ hLast => hLast
          split
          · exact hNext.callProcess _ _
          · exact hNext

omit [Fintype Process] in
theorem pass {e : EventData Process} (h : Exits s) : Exits (doEvent.pass p e s) := by
  refine Exits.callProcess ?_ e.ev e.data
  split
  · exact ⟨h.exited, h.calls, h.pending, h.nested⟩
  · exact h

omit [Fintype Process] in
theorem processRun (h : Exits s) (hStack : s.stack = []) (hLeaves : LeavesExited s .kernel)
    (hStep : processRun s s.main = some t) : Exits t := by
  have hMain (main : Main Process) : Exits { s with main } :=
    ⟨h.exited, h.calls, h.pending, h.nested⟩
  have hTaken (e : EventData Process) (events : RingQueue (EventData Process) processConfNumevents)
      (main : Main Process) :
      Exits { s with main, events, history := .taken e :: s.history } :=
    ⟨h.exited, h.calls, h.pending, h.nested⟩
  have hFree (p : Process) : ∀ frame ∈ s.stack, ¬ frame.Pending p := by simp [hStack]
  simp only [LeavesExited, hStack] at hLeaves
  refine processRun_cases (motive := fun t => Exits t) hStep hMain
    (fun p delivery hPoll hNeeds => ?_) hTaken (fun e events receiver hEvent hTake hReceiver => ?_)
    (fun delivery => ⟨h.exited, h.calls, h.pending, h.nested⟩)
    ⟨h.exited, h.calls, h.pending, h.nested⟩ (fun e p => (hMain _).pass)
  · rw [hPoll] at hLeaves
    have hRuns := h.runs (hLeaves hNeeds) (hFree p)
    refine Exits.callProcess ?_ _ _
    exact ⟨hRuns.exited, hRuns.calls, hRuns.pending, hRuns.nested⟩
  · rw [hEvent] at hLeaves
    apply Exits.pass
    by_cases hInit : e.ev = processEventInit
    · rw [if_pos hInit]
      have hNot := hLeaves (e, events) hTake hInit receiver hReceiver
      exact (hTaken e events .idle).runs hNot (hFree receiver)
    · rw [if_neg hInit]
      exact hTaken e events .idle

theorem step {action : Action Process} (h : Exits s) (hLists : Lists s xs)
    (hLeaves : LeavesExited s action) (hStep : step s action = some t) : Exits t := by
  have hSame {t : Kernel Process} (hHistory : t.history = s.history) (hState : t.state = s.state)
      (hStack : t.stack = s.stack) : Exits t := by
    refine ⟨?_, ?_, ?_, ?_⟩
    · rw [hHistory, hState, hStack]
      exact h.exited
    · rw [hHistory]
      exact h.calls
    · rw [hState, hStack]
      exact h.pending
    · rw [hStack]
      exact h.nested
  cases action with
  | post p ev data =>
      simp only [Kernel.step] at hStep
      split_ifs at hStep
      obtain rfl := Option.some.inj hStep
      unfold processPost
      split
      · exact h
      · exact ⟨h.exited, h.calls, h.pending, h.nested⟩
  | postSynch p ev data =>
      simp only [Kernel.step] at hStep
      split_ifs at hStep
      obtain rfl := Option.some.inj hStep
      exact (h.push (.synch s.current) rfl (by simp)).callProcess _ _
  | start p data =>
      simp only [Kernel.step, processStart_eq hLists.list] at hStep
      split_ifs at hStep with hRuns hMem
      · obtain rfl := Option.some.inj hStep
        exact h
      · obtain rfl := Option.some.inj hStep
        have hNotLinked : linked p s.history = false := by
          rw [← hLists.members] at hMem
          exact Bool.eq_false_iff.mpr hMem
        exact ((h.link (hLeaves hNotLinked)).push (.synch s.current) rfl (by simp)).callProcess _ _
  | exit p =>
      simp only [Kernel.step] at hStep
      split_ifs at hStep
      exact h.exitProcess hLists.list hLists.members (fun _ => hLeaves) hStep
  | context p =>
      simp only [Kernel.step] at hStep
      split_ifs at hStep
      obtain rfl := Option.some.inj hStep
      exact hSame rfl rfl rfl
  | «return» result => exact h.threadReturns hLists hLeaves hStep
  | run =>
      simp only [Kernel.step] at hStep
      split at hStep
      · obtain rfl := Option.some.inj hStep
        split
        · exact hSame rfl rfl rfl
        · exact hSame rfl rfl rfl
      · cases hStep
  | poll p =>
      obtain rfl := Option.some.inj hStep
      unfold processPoll
      split
      · exact hSame rfl rfl rfl
      · exact h
  | kernel =>
      simp only [Kernel.step, kernelStep] at hStep
      split at hStep
      · rename_i hStack
        exact h.processRun hStack hLeaves hStep
      · rename_i frame stack hStack
        exact h.resume hLists hStack hStep

end Exits

section

variable [Fintype Process]

/-- **When an exited process stays exited.** In a run whose steps revive no exited process,
it is not running in any state and its thread is not called before it is started again. -/
theorem stays_exited (slots : Nat → EventData Process) (actions : List (Action Process))
    (h : Along step LeavesExited (processInit slots) actions) :
    Throughout step StaysExited (processInit slots) actions :=
  Throughout.of_along (fun s => ∃ xs, Lists s xs ∧ Exits s)
    (fun _ ⟨_, _, hExits⟩ => hExits.staysExited)
    (fun _ _ _ ⟨_, hLists, hExits⟩ hLeaves hStep => by
      obtain ⟨ys, hNext⟩ := hLists.step hStep
      exact ⟨ys, hNext, hExits.step hLists hLeaves hStep⟩)
    ⟨[], lists_processInit slots, nofun, trivial, nofun, List.Pairwise.nil⟩ h

/-- All the steps that do not leave exited processes alone revive one at once, but for a
start during the exit and an exit during another. -/
theorem revives {s t : Kernel Process} {action : Action Process} {xs : List Process}
    (hLists : Lists s xs) (hStep : step s action = some t) (hNot : ¬ LeavesExited s action)
    (hStart : ∀ p data, action ≠ .start p data)
    (hExit : ∀ p, action = .exit p → ∀ frame ∈ s.stack, ¬ frame.CallsLast p) :
    ¬ StaysExited t := by
  have hCalled {p : Process} {ev : ProcessEvent} {data : ProcessData Process} {u : Kernel Process}
      (hState : u.state p = .running) (hExited : exited p u.history = true) :
      ¬ StaysExited (callProcess p ev data u) := by
    rintro ⟨-, hCalls⟩
    rw [callProcess, if_pos hState] at hCalls
    rw [hCalls.1] at hExited
    cases hExited
  cases action with
  | post p ev data => exact absurd trivial hNot
  | postSynch p ev data => exact absurd trivial hNot
  | start p data => exact absurd rfl (hStart p data)
  | context p => exact absurd trivial hNot
  | run => exact absurd trivial hNot
  | poll p => exact absurd trivial hNot
  | exit p =>
      simp only [LeavesExited, not_and_or, not_or] at hNot
      obtain ⟨hLinked, hState⟩ := hNot.resolve_right (not_not_intro (hExit p rfl))
      simp only [step] at hStep
      split_ifs at hStep
      rcases exitProcess_cases p s.current true hLists.list rfl with ⟨-, hEq⟩ | ⟨hMem, -⟩ | ⟨hMem, -⟩
      · rw [hEq] at hStep
        obtain rfl := Option.some.inj hStep
        rintro ⟨hStays, -⟩
        exact hState (hStays p (by simp [exitEnd, exited]))
      · exact absurd ((hLists.members p).mpr hMem) hLinked
      · exact absurd ((hLists.members p).mpr hMem) hLinked
  | «return» result =>
      simp only [LeavesExited] at hNot
      simp only [step, threadReturns] at hStep
      split at hNot
      · rename_i p ev stack hStack
        rw [Classical.not_imp] at hNot
        simp only [hStack, if_neg hNot.2] at hStep
        obtain rfl := Option.some.inj hStep
        rintro ⟨hStays, -⟩
        have hNone := hStays p hNot.1
        simp at hNone
      · exact absurd trivial hNot
  | kernel =>
      simp only [LeavesExited] at hNot
      simp only [step, kernelStep] at hStep
      split at hNot
      · rename_i p delivery hStack hMain
        rw [Classical.not_imp, Bool.not_eq_false] at hNot
        simp only [hStack, hMain, processRun, if_pos hNot.1] at hStep
        obtain rfl := Option.some.inj hStep
        exact hCalled (Function.update_self ..) hNot.2
      · rename_i hStack hMain
        simp only [not_forall, Bool.not_eq_false] at hNot
        obtain ⟨⟨e, events⟩, hTake, hInit, receiver, hReceiver, hExited⟩ := hNot
        have hDirected : e.p = some receiver := hReceiver
        rw [Option.mem_def] at hTake
        simp only [hStack, hMain, processRun, hTake, doEvent, hDirected, if_pos hInit] at hStep
        obtain rfl := Option.some.inj hStep
        refine hCalled ?_ ?_
        · simp [record]
        · simpa [record, exited] using hExited
      · exact absurd trivial hNot

end

instance (p : Process) (frame : Frame Process) : Decidable (frame.Pending p) :=
  inferInstanceAs (Decidable (∃ x ∈ frame.exitCall, x.p = p ∧ x.byProcessExit = true))

instance (p : Process) : (frame : Frame Process) → Decidable (frame.CallsLast p)
  | .notify x _ => inferInstanceAs (Decidable (x.p = p ∧ x.fromprocess ≠ some p))
  | .notified x _ => inferInstanceAs (Decidable (x.p = p ∧ x.fromprocess ≠ some p))
  | .call _ _ => isFalse id
  | .lastCall _ => isFalse id
  | .synch _ => isFalse id

instance (s : Kernel Process) : (action : Action Process) → Decidable (LeavesExited s action)
  | .return result =>
      match hStack : s.stack with
      | .call p ev :: _ =>
          decidable_of_iff (exited p s.history = true →
            result = .exited ∨ result = .ended ∨ ev = processEventExit)
            (by simp only [LeavesExited, hStack])
      | [] | .notify _ _ :: _ | .notified _ _ :: _ | .lastCall _ :: _ | .synch _ :: _ =>
          isTrue (by simp only [LeavesExited, hStack])
  | .start p _ =>
      inferInstanceAs (Decidable (linked p s.history = false → ∀ frame ∈ s.stack, ¬ frame.Pending p))
  | .exit p => inferInstanceAs (Decidable (_ ∧ ∀ frame ∈ s.stack, ¬ frame.CallsLast p))
  | .kernel =>
      match hStack : s.stack, hMain : s.main with
      | [], .poll (some p) _ =>
          decidable_of_iff (s.needspoll p = true → exited p s.history = false)
            (by simp only [LeavesExited, hStack, hMain])
      | [], .event =>
          decidable_of_iff (∀ taken ∈ s.events.take, taken.1.ev = processEventInit →
            ∀ receiver ∈ taken.1.p, exited receiver s.history = false)
            (by simp only [LeavesExited, hStack, hMain])
      | [], .idle | [], .poll none _ | [], .polled _ _ | [], .broadcast _ _ | [], .deliver _ _
      | [], .delivered _ _ | _ :: _, _ => isTrue (by simp only [LeavesExited, hStack, hMain])
  | .post .. | .postSynch .. | .context _ | .run | .poll _ => isTrue trivial

/-- A queue that has held no event. -/
def noEvents : Nat → EventData Unit := fun _ => ⟨0, .null, none⟩

/-- The main program starts a process and exits it. -/
def exitedByMain : List (Action Unit) :=
  [.start () .null, .return .waiting, .kernel, .exit (), .kernel, .kernel, .kernel,
    .return .ended]

theorem stays_exited_by_main :
    Throughout step StaysExited (processInit noEvents) exitedByMain :=
  stays_exited noEvents exitedByMain (by decide)

/-- A process exits itself when it gets an event, and waits for the next one. -/
def exitsItself : List (Action Unit) :=
  [.start () .null, .return .waiting, .kernel, .post (some ()) 0x85 .null, .run, .kernel, .exit (),
    .kernel, .kernel, .kernel, .return .waiting]

/-- It is running again. -/
theorem stays_exited_fails :
    ¬ Throughout step StaysExited (processInit noEvents) exitsItself := by
  intro h
  obtain ⟨t, hRun, hExited, hState⟩ : ∃ t, runAll step (processInit noEvents) exitsItself = some t ∧
      exited () t.history = true ∧ t.state () = .running := ⟨_, rfl, by decide, by decide⟩
  rw [(h.last hRun).1 () hExited] at hState
  cases hState

end Kernel

end Smarthome.Contiki
