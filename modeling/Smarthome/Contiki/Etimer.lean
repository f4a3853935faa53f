import Smarthome.Semantics.LinkedList
import Smarthome.Semantics.Runs
import Mathlib.Tactic.Common

/-! `etimer.c`: the event timers in a list that is linked through the timers themselves. -/
namespace Smarthome.Contiki

open Semantics

abbrev ClockTime := UInt32

/-- The variables of `etimer.c` and the fields of the timers. An owner is missing where
`p` is `PROCESS_NONE`. -/
structure Timers (Timer Process : Type) where
  timerlist : Option Timer
  nextExpiration : ClockTime
  next : Timer → Option Timer
  p : Timer → Option Process
  start : Timer → ClockTime
  interval : Timer → ClockTime
  /-- The `PROCESS_EVENT_TIMER` events posted; one without a receiver is a broadcast. -/
  posted : List (Option Process × Timer)
  /-- How often the clock has been read. -/
  readings : Nat

/-- The calls into `etimer.c`: those of its functions, with the value of
`PROCESS_CURRENT()`, and the two events that `etimer_process` looks at, the poll with the
number of events that the queue has room for. -/
inductive TimerCall (Timer Process : Type) where
  | set (et : Timer) (interval : ClockTime) (current : Option Process)
  | resetWithNewInterval (et : Timer) (interval : ClockTime) (current : Option Process)
  | reset (et : Timer) (current : Option Process)
  | restart (et : Timer) (current : Option Process)
  | adjust (et : Timer) (timediff : ClockTime)
  | stop (et : Timer)
  | exited (p : Process)
  | poll (room : Nat)

/-- The timer that a call arms, with the process that it gets. -/
def TimerCall.armed {Timer Process : Type} :
    TimerCall Timer Process → Option (Timer × Option Process)
  | .set et _ current => some (et, current)
  | .resetWithNewInterval et _ current => some (et, current)
  | .reset et current => some (et, current)
  | .restart et current => some (et, current)
  | _ => none

namespace Timers

-- The readings of the clock may be any.
variable {Timer Process : Type} [Fintype Timer] (clock : Nat → ClockTime)

/-- `clock_time`. -/
def clockTime (s : Timers Timer Process) : ClockTime × Timers Timer Process :=
  (clock s.readings, { s with readings := s.readings + 1 })

/-- `update_time`; there is no result if the loop does not end. -/
def updateTime (s : Timers Timer Process) : Option (Timers Timer Process) :=
  match s.timerlist with
  | none => some { s with nextExpiration := 0 }
  | some t =>
      let (now, s) := clockTime clock s
      let distance (t : Timer) := s.start t + s.interval t - now
      (foldLinks s.next (fun tdist t => if distance t < tdist then distance t else tdist)
        (Fintype.card Timer) (s.next t) (distance t)).map fun tdist =>
          { s with nextExpiration := now + tdist }

theorem updateTime_eq {s : Timers Timer Process} {xs : List Timer}
    (h : IsList s.next s.timerlist xs) :
    ∃ e r, updateTime clock s = some { s with nextExpiration := e, readings := r } := by
  cases hLink : s.timerlist with
  | none => exact ⟨0, s.readings, by simp only [updateTime, hLink]⟩
  | some t =>
      rw [hLink] at h
      obtain ⟨rest, rfl, hRest⟩ := IsList.some_iff.mp h
      have hFuel := Nat.le_of_lt h.length_le
      simp only [updateTime, hLink, clockTime, foldLinks_eq hRest hFuel]
      exact ⟨_, _, rfl⟩

theorem updateTime_eq_none {s : Timers Timer Process}
    (h : ∀ xs, ¬ IsList s.next s.timerlist xs) : updateTime clock s = none := by
  cases hLink : s.timerlist with
  | none => exact absurd hLink (h [])
  | some t =>
      have hRest (xs : List Timer) : ¬ IsList s.next (s.next t) xs :=
        fun hxs => h (t :: xs) ⟨hLink, hxs⟩
      simp only [updateTime, hLink, clockTime, foldLinks_eq_none hRest]
      rfl

variable [DecidableEq Timer]

/-- The end of `add_timer`, for a timer that is not on the list. -/
def insert (timer : Timer) (current : Option Process) (s : Timers Timer Process) :
    Option (Timers Timer Process) :=
  updateTime clock { s with
    p := Function.update s.p timer current
    next := Function.update s.next timer s.timerlist
    timerlist := some timer }

/-- `add_timer`. The list is searched only for a timer that has an owner. -/
def addTimer (timer : Timer) (current : Option Process) (s : Timers Timer Process) :
    Option (Timers Timer Process) :=
  if s.p timer = none then insert clock timer current s
  else do
    match ← findLinks s.next (fun t => t = timer) (Fintype.card Timer) s.timerlist with
    | some _ => updateTime clock { s with p := Function.update s.p timer current }
    | none => insert clock timer current s

/-- `etimer_stop`. -/
def etimerStop (et : Timer) (s : Timers Timer Process) : Option (Timers Timer Process) := do
  let s ←
    if s.timerlist = some et then updateTime clock { s with timerlist := s.next et }
    else do
      match ← findLinks s.next (fun t => s.next t = some et) (Fintype.card Timer) s.timerlist with
      | some t => updateTime clock { s with next := Function.update s.next t (s.next et) }
      | none => some s
  some { s with next := Function.update s.next et none, p := Function.update s.p et none }

section

variable (clock : Nat → ClockTime) {s : Timers Timer Process} {timer : Timer}
  (et : Timer) (current : Option Process) {xs : List Timer}

theorem insert_spec (h : IsList s.next s.timerlist xs) (hNew : timer ∉ xs) :
    ∃ s', insert clock timer current s = some s' ∧
      IsList s'.next s'.timerlist (timer :: xs) ∧ s'.p = Function.update s.p timer current := by
  have hPush : IsList (Function.update s.next timer s.timerlist) (some timer) (timer :: xs) :=
    h.push hNew
  obtain ⟨e, r, hUpdate⟩ := updateTime_eq clock (s := { s with
    p := Function.update s.p timer current
    next := Function.update s.next timer s.timerlist
    timerlist := some timer }) hPush
  exact ⟨_, hUpdate, h.push hNew, rfl⟩

/-- A timer that is on the list already is put before itself. -/
theorem insert_eq_none (h : IsList s.next s.timerlist xs) (hOld : timer ∈ xs) :
    insert clock timer current s = none :=
  updateTime_eq_none clock (h.not_isList_push hOld)

theorem addTimer_spec (h : IsList s.next s.timerlist xs) (hOwned : timer ∈ xs → s.p timer ≠ none) :
    ∃ s' ys, addTimer clock timer current s = some s' ∧ IsList s'.next s'.timerlist ys ∧
      (∀ t ∈ ys, t = timer ∨ t ∈ xs) ∧ s'.p = Function.update s.p timer current := by
  have hInsert (hNew : timer ∉ xs) : ∃ s' ys, insert clock timer current s = some s' ∧
      IsList s'.next s'.timerlist ys ∧ (∀ t ∈ ys, t = timer ∨ t ∈ xs) ∧
      s'.p = Function.update s.p timer current := by
    obtain ⟨s', hStep, hList, hOwner⟩ := insert_spec clock current h hNew
    exact ⟨s', timer :: xs, hStep, hList, fun _ ht => List.mem_cons.mp ht, hOwner⟩
  rw [addTimer]
  split
  · rename_i hNone
    exact hInsert fun hMem => hOwned hMem hNone
  · rw [findLinks_eq h h.length_le]
    cases hFind : xs.find? (fun t => t = timer) with
    | none =>
        refine hInsert fun hMem => ?_
        simpa using List.find?_eq_none.mp hFind timer hMem
    | some t =>
        obtain ⟨e, r, hUpdate⟩ := updateTime_eq clock
          (s := { s with p := Function.update s.p timer current }) h
        exact ⟨_, xs, hUpdate, h, fun _ ht => Or.inr ht, rfl⟩

theorem addTimer_eq_none (h : IsList s.next s.timerlist xs) (hOld : timer ∈ xs)
    (hNone : s.p timer = none) : addTimer clock timer current s = none := by
  rw [addTimer, if_pos hNone]
  exact insert_eq_none clock current h hOld

theorem etimerStop_spec (h : IsList s.next s.timerlist xs) :
    ∃ s' ys, etimerStop clock et s = some s' ∧ IsList s'.next s'.timerlist ys ∧
      (∀ t ∈ ys, t ∈ xs ∧ t ≠ et) ∧ s'.p = Function.update s.p et none := by
  have hClear {next : Timer → Option Timer} {link : Option Timer} {ys : List Timer}
      (hList : IsList next link ys) (hNot : et ∉ ys) :
      IsList (Function.update next et none) link ys := hList.update_of_notMem hNot
  rw [etimerStop]
  split
  · rename_i hFirst
    rw [hFirst] at h
    obtain ⟨rest, rfl, hRest⟩ := IsList.some_iff.mp h
    have hNot := (List.nodup_cons.mp h.nodup).1
    obtain ⟨e, r, hUpdate⟩ := updateTime_eq clock
      (s := { s with timerlist := s.next et }) hRest
    rw [hUpdate]
    refine ⟨_, rest, rfl, hClear hRest hNot, fun t ht => ?_, rfl⟩
    exact ⟨List.mem_cons_of_mem _ ht, ne_of_mem_of_not_mem ht hNot⟩
  · rename_i hFirst
    rw [findLinks_eq h h.length_le]
    rcases h.find?_before hFirst with ⟨hFind, hNot⟩ | ⟨front, u, after, rfl, hFind⟩
    · rw [hFind]
      exact ⟨_, xs, rfl, hClear h hNot, fun t ht => ⟨ht, ne_of_mem_of_not_mem ht hNot⟩, rfl⟩
    · have hList := h.unlink
      obtain ⟨e, r, hUpdate⟩ := updateTime_eq clock
        (s := { s with next := Function.update s.next u (s.next et) }) hList
      have hNot : et ∉ front ++ u :: after := by
        have hNodup := h.nodup
        simp only [List.nodup_append, List.nodup_cons, List.mem_cons] at hNodup
        simp only [List.mem_append, List.mem_cons]
        grind
      rw [hFind]
      simp only [Option.bind_eq_bind, Option.bind_some, hUpdate]
      refine ⟨_, front ++ u :: after, rfl, hClear hList hNot, fun t ht => ?_, rfl⟩
      refine ⟨?_, ne_of_mem_of_not_mem ht hNot⟩
      simp only [List.mem_append, List.mem_cons] at ht ⊢
      tauto

end

variable [DecidableEq Process]

/-- The second loop for `PROCESS_EVENT_EXITED`, from a timer that stays on the list. -/
def dropOwned (p : Process) (owner : Timer → Option Process) :
    Nat → (Timer → Option Timer) → Timer → Option (Timer → Option Timer)
  | fuel, next, t =>
      match next t with
      | none => some next
      | some t' =>
          match fuel with
          | 0 => none
          | fuel + 1 =>
              if owner t' = some p then
                dropOwned p owner fuel (Function.update next t (next t')) t
              else dropOwned p owner fuel next t'

/-- `PROCESS_EVENT_EXITED` for a process. -/
def exited (p : Process) (s : Timers Timer Process) : Option (Timers Timer Process) := do
  let timerlist ← findLinks s.next (fun t => s.p t ≠ some p) (Fintype.card Timer) s.timerlist
  match timerlist with
  | none => some { s with timerlist }
  | some t => do
      let next ← dropOwned p s.p (Fintype.card Timer) s.next t
      some { s with timerlist, next }

/-- `timer_expired`. -/
def timerExpired (t : Timer) (s : Timers Timer Process) : Bool × Timers Timer Process :=
  let (now, s) := clockTime clock s
  (s.interval t < now - s.start t + 1, s)

/-- The loop of `etimer_process` up to the first timer that has expired and whose event is
posted, together with the timer `u` before it. -/
def firstExpired (room : Nat) : Nat → Option Timer → Option Timer → Timers Timer Process →
    Option (Option (Option Timer × Timer) × Timers Timer Process)
  | _, _, none, s => some (none, s)
  | 0, _, some _, _ => none
  | fuel + 1, u, some t, s =>
      let (expired, s) := timerExpired clock t s
      if expired = true ∧ room ≠ 0 then some (some (u, t), s)
      else firstExpired room fuel (some t) (s.next t) s

/-- What is done with that timer. -/
def takeOut (u : Option Timer) (t : Timer) (s : Timers Timer Process) : Timers Timer Process :=
  let s := { s with posted := s.posted ++ [(s.p t, t)], p := Function.update s.p t none }
  let s := match u with
    | some u => { s with next := Function.update s.next u (s.next t) }
    | none => { s with timerlist := s.next t }
  { s with next := Function.update s.next t none }

/-- The loop over `again`. -/
def again : Nat → Nat → Timers Timer Process → Option (Timers Timer Process)
  | 0, _, _ => none
  | fuel + 1, room, s => do
      match ← firstExpired clock room (Fintype.card Timer) none s.timerlist s with
      | (none, s) => some s
      | (some (u, t), s) => do
          let s ← updateTime clock (takeOut u t s)
          again fuel (room - 1) s

/-- A call, with its effect if it returns. -/
def step (s : Timers Timer Process) : TimerCall Timer Process → Option (Timers Timer Process)
  | .set et interval current =>
      let (now, s) := clockTime clock s
      addTimer clock et current { s with
        interval := Function.update s.interval et interval
        start := Function.update s.start et now }
  | .resetWithNewInterval et interval current =>
      addTimer clock et current { s with
        start := Function.update s.start et (s.start et + s.interval et)
        interval := Function.update s.interval et interval }
  | .reset et current =>
      addTimer clock et current { s with
        start := Function.update s.start et (s.start et + s.interval et) }
  | .restart et current =>
      let (now, s) := clockTime clock s
      addTimer clock et current { s with start := Function.update s.start et now }
  | .adjust et timediff =>
      updateTime clock { s with start := Function.update s.start et (s.start et + timediff) }
  | .stop et => etimerStop clock et s
  | .exited p => exited p s
  | .poll room => again clock (Fintype.card Timer + 1) room s

/-- The beginning of `etimer_process`, whatever the fields of the timers are. -/
def started (s : Timers Timer Process) : Timers Timer Process := { s with timerlist := none }

variable {clock} {s : Timers Timer Process} {et t : Timer} {p : Process}
  {current : Option Process} {xs : List Timer}

/-- The list is finite, and no timer is on it twice. -/
def Intact (s : Timers Timer Process) : Prop := ∃ xs, IsList s.next s.timerlist xs ∧ xs.Nodup

omit [Fintype Timer] in
theorem dropOwned_spec (p : Process) (owner : Timer → Option Process) {next : Timer → Option Timer} {fuel : Nat}
    (h : IsList next (some t) (t :: xs)) (hFuel : xs.length ≤ fuel) :
    ∃ next', dropOwned p owner fuel next t = some next' ∧
      IsList next' (some t) (t :: xs.filter fun t' => owner t' ≠ some p) ∧
      ∀ y, y ∉ t :: xs → next' y = next y := by
  induction fuel generalizing next t xs with
  | zero =>
      obtain rfl := List.eq_nil_of_length_eq_zero (Nat.le_zero.mp hFuel)
      have hEnd : next t = none := h.2
      exact ⟨next, by rw [dropOwned, hEnd], h, fun _ _ => rfl⟩
  | succ fuel ih =>
      cases xs with
      | nil =>
          have hEnd : next t = none := h.2
          exact ⟨next, by rw [dropOwned, hEnd], h, fun _ _ => rfl⟩
      | cons t' rest =>
          have hNext : next t = some t' := h.2.1
          have hNodup := List.nodup_cons.mp h.nodup
          have hLess : rest.length ≤ fuel := Nat.le_of_succ_le_succ hFuel
          rw [dropOwned, hNext]
          dsimp only
          by_cases hOwner : owner t' = some p
          · have hFront : IsList next (some t) ([] ++ t :: t' :: rest) := h
            have hUnlinked : IsList (Function.update next t (next t')) (some t) (t :: rest) :=
              hFront.unlink
            obtain ⟨next', hDrop, hList, hSame⟩ := ih hUnlinked hLess
            refine ⟨next', by rw [if_pos hOwner, hDrop], ?_, fun y hy => ?_⟩
            · rw [List.filter_cons_of_neg (by simp [hOwner])]
              exact hList
            · simp only [List.mem_cons, not_or] at hy
              rw [hSame y (by simp [hy]), Function.update_of_ne hy.1]
          · have hTail : IsList next (some t') (t' :: rest) := ⟨rfl, h.2.2⟩
            obtain ⟨next', hDrop, hList, hSame⟩ := ih hTail hLess
            refine ⟨next', by rw [if_neg hOwner, hDrop], ?_, fun y hy => ?_⟩
            · rw [List.filter_cons_of_pos (by simp [hOwner])]
              refine ⟨rfl, ?_⟩
              rw [hSame t hNodup.1, hNext]
              exact hList
            · exact hSame y fun hMem => hy (List.mem_cons_of_mem _ hMem)

theorem exited_spec (h : IsList s.next s.timerlist xs) :
    ∃ s' ys, exited p s = some s' ∧ IsList s'.next s'.timerlist ys ∧ (∀ t ∈ ys, t ∈ xs) ∧
      s'.p = s.p := by
  rw [exited, findLinks_eq h h.length_le]
  cases hFind : xs.find? (fun t => s.p t ≠ some p) with
  | none => exact ⟨_, [], rfl, rfl, by simp, rfl⟩
  | some t =>
      obtain ⟨-, front, rest, rfl, -⟩ := List.find?_eq_some_iff_append.mp hFind
      have hRest := h.of_append
      obtain ⟨next', hDrop, hList, -⟩ := dropOwned_spec p s.p hRest
        (Nat.le_of_lt hRest.length_le)
      simp only [Option.bind_eq_bind, Option.bind_some, hDrop]
      refine ⟨_, _, rfl, hList, fun y hy => ?_, rfl⟩
      rw [List.mem_cons] at hy
      rcases hy with rfl | hy
      · simp
      · exact List.mem_append_right _ (List.mem_cons_of_mem _ (List.mem_of_mem_filter hy))

omit [Fintype Timer] [DecidableEq Timer] [DecidableEq Process] in
/-- The loop finds the first timer that has expired, if its event can be posted. -/
theorem firstExpired_spec (clock : Nat → ClockTime) (room : Nat) {fuel : Nat}
    (u : Option Timer) {link : Option Timer} (h : IsList s.next link xs)
    (hFuel : xs.length ≤ fuel) : ∃ r,
      firstExpired clock room fuel u link s = some (none, { s with readings := r }) ∨
      ∃ before t after, xs = before ++ t :: after ∧
        firstExpired clock room fuel u link s =
          some (some (before.getLast?.or u, t), { s with readings := r }) := by
  induction xs generalizing fuel u link s with
  | nil =>
      obtain rfl := h
      exact ⟨s.readings, Or.inl (by cases fuel <;> rfl)⟩
  | cons t rest ih =>
      obtain ⟨fuel, rfl⟩ := Nat.exists_eq_add_of_lt hFuel
      obtain rfl := h.1
      rw [firstExpired]
      dsimp only
      by_cases hHere : (timerExpired clock t s).1 = true ∧ room ≠ 0
      · rw [if_pos hHere]
        exact ⟨s.readings + 1, Or.inr ⟨[], t, rest, rfl, rfl⟩⟩
      · rw [if_neg hHere]
        obtain ⟨r, hNone | ⟨before, t', after, rfl, hFound⟩⟩ :=
          ih (some t) (s := { s with readings := s.readings + 1 }) h.2
            (Nat.le_add_right rest.length fuel)
        · exact ⟨r, Or.inl hNone⟩
        · refine ⟨r, Or.inr ⟨t :: before, t', after, rfl, hFound.trans ?_⟩⟩
          cases before with
          | nil => rfl
          | cons y ys => rw [List.getLast?_cons_cons, List.getLast?_cons]; rfl

omit [Fintype Timer] [DecidableEq Process] in
theorem takeOut_spec {before after : List Timer}
    (h : IsList s.next s.timerlist (before ++ t :: after)) :
    IsList (takeOut before.getLast? t s).next (takeOut before.getLast? t s).timerlist
      (before ++ after) := by
  have hNodup := List.nodup_middle.mp h.nodup
  have hNot := (List.nodup_cons.mp hNodup).1
  rcases List.eq_nil_or_concat' before with rfl | ⟨front, u, rfl⟩
  · exact h.2.update_of_notMem hNot
  · rw [List.append_assoc] at h hNot ⊢
    rw [List.getLast?_append_of_ne_nil _ (List.cons_ne_nil _ _)]
    exact h.unlink.update_of_notMem hNot

omit [DecidableEq Process] in
theorem again_spec (clock : Nat → ClockTime) (room : Nat) {fuel : Nat} (h : IsList s.next s.timerlist xs) (hFuel : xs.length < fuel) :
    ∃ s' ys, again clock fuel room s = some s' ∧ IsList s'.next s'.timerlist ys ∧
      ∀ t ∈ ys, t ∈ xs ∧ s'.p t = s.p t := by
  induction fuel generalizing room s xs with
  | zero => exact absurd hFuel (Nat.not_lt_zero _)
  | succ fuel ih =>
      rw [again]
      obtain ⟨r, hNone | ⟨before, t, after, rfl, hFound⟩⟩ :=
        firstExpired_spec clock room none h h.length_le
      · exact ⟨{ s with readings := r }, xs, by rw [hNone]; rfl, h, fun t ht => ⟨ht, rfl⟩⟩
      · have hTaken := takeOut_spec (s := { s with readings := r }) h
        obtain ⟨e, r', hUpdate⟩ := updateTime_eq clock hTaken
        have hLess : (before ++ after).length < fuel := by
          simp only [List.length_append, List.length_cons] at hFuel ⊢
          omega
        obtain ⟨s', ys, hAgain, hList, hSame⟩ := ih (room - 1) (s := { takeOut before.getLast?
          t { s with readings := r } with nextExpiration := e, readings := r' }) hTaken hLess
        have hNot := (List.nodup_cons.mp (List.nodup_middle.mp h.nodup)).1
        refine ⟨s', ys, ?_, hList, fun y hy => ?_⟩
        · rw [hFound, Option.or_none]
          simp only [Option.bind_eq_bind, Option.bind_some, hUpdate, hAgain]
        · have hIn := (hSame y hy).1
          have hOwner : s'.p y = Function.update s.p t none y := by
            rw [(hSame y hy).2]
            cases before.getLast? with
            | none => rfl
            | some u => rfl
          refine ⟨?_, hOwner.trans (Function.update_of_ne (ne_of_mem_of_not_mem hIn hNot) _ _)⟩
          simp only [List.mem_append, List.mem_cons] at hIn ⊢
          tauto

/-- A timer on the list has an owner when it is armed again. -/
def OwnedIfListed (s : Timers Timer Process) (call : TimerCall Timer Process) : Prop :=
  ∀ et current, call.armed = some (et, current) →
    ∀ xs, IsList s.next s.timerlist xs → et ∈ xs → s.p et ≠ none

theorem step_armed (clock : Nat → ClockTime) (s : Timers Timer Process)
    {call : TimerCall Timer Process} (h : call.armed = some (et, current)) :
    ∃ start interval readings, step clock s call = addTimer clock et current
      { s with start := start, interval := interval, readings := readings } := by
  cases call with
  | set et' interval current' =>
      obtain ⟨rfl, rfl⟩ := Prod.mk.inj (Option.some.inj h)
      exact ⟨_, _, _, rfl⟩
  | resetWithNewInterval et' interval current' =>
      obtain ⟨rfl, rfl⟩ := Prod.mk.inj (Option.some.inj h)
      exact ⟨_, _, s.readings, rfl⟩
  | reset et' current' =>
      obtain ⟨rfl, rfl⟩ := Prod.mk.inj (Option.some.inj h)
      exact ⟨_, s.interval, s.readings, rfl⟩
  | restart et' current' =>
      obtain ⟨rfl, rfl⟩ := Prod.mk.inj (Option.some.inj h)
      exact ⟨_, s.interval, _, rfl⟩
  | adjust et' timediff => cases h
  | stop et' => cases h
  | exited p => cases h
  | poll room => cases h

/-- A timer that is on the list after a call was armed by it, or was there before. -/
theorem step_spec (clock : Nat → ClockTime) {call : TimerCall Timer Process}
    (h : IsList s.next s.timerlist xs)
    (hOwned : OwnedIfListed s call) : ∃ s' ys, step clock s call = some s' ∧
      IsList s'.next s'.timerlist ys ∧
      ∀ t ∈ ys, call.armed = some (t, s'.p t) ∨ t ∈ xs ∧ s'.p t = s.p t := by
  cases hArmed : call.armed with
  | some armed =>
      obtain ⟨et, current⟩ := armed
      obtain ⟨start, interval, readings, hStep⟩ := step_armed clock s hArmed
      obtain ⟨s', ys, hAdd, hList, hFrom, hOwner⟩ := addTimer_spec clock current
        (s := { s with start := start, interval := interval, readings := readings })
        h (hOwned et current hArmed xs h)
      refine ⟨s', ys, hStep.trans hAdd, hList, fun t ht => ?_⟩
      by_cases hSame : t = et
      · subst hSame
        exact Or.inl (by rw [hOwner, Function.update_self])
      · exact Or.inr ⟨(hFrom t ht).resolve_left hSame, by rw [hOwner, Function.update_of_ne hSame]⟩
  | none =>
      cases call with
      | set et interval current => cases hArmed
      | resetWithNewInterval et interval current => cases hArmed
      | reset et current => cases hArmed
      | restart et current => cases hArmed
      | adjust et timediff =>
          obtain ⟨e, r, hUpdate⟩ := updateTime_eq clock
            (s := { s with start := Function.update s.start et (s.start et + timediff) }) h
          exact ⟨_, xs, hUpdate, h, fun t ht => Or.inr ⟨ht, rfl⟩⟩
      | stop et =>
          obtain ⟨s', ys, hStep, hList, hFrom, hOwner⟩ := etimerStop_spec clock et h
          refine ⟨s', ys, hStep, hList, fun t ht => Or.inr ⟨(hFrom t ht).1, ?_⟩⟩
          rw [hOwner, Function.update_of_ne (hFrom t ht).2]
      | exited p =>
          obtain ⟨s', ys, hStep, hList, hFrom, hOwner⟩ := exited_spec (p := p) h
          exact ⟨s', ys, hStep, hList, fun t ht => Or.inr ⟨hFrom t ht, by rw [hOwner]⟩⟩
      | poll room =>
          obtain ⟨s', ys, hStep, hList, hFrom⟩ := again_spec clock room h
            (Nat.lt_succ_of_le h.length_le)
          exact ⟨s', ys, hStep, hList, fun t ht => Or.inr (hFrom t ht)⟩

theorem step_intact {call : TimerCall Timer Process} (h : Intact s)
    (hOwned : OwnedIfListed s call) : ∃ s', step clock s call = some s' ∧ Intact s' := by
  obtain ⟨xs, hList, -⟩ := h
  obtain ⟨s', ys, hStep, hList', -⟩ := step_spec clock hList hOwned
  exact ⟨s', hStep, ys, hList', hList'.nodup⟩

/-- A timer that is on the list without an owner is put on it again, and `update_time` does
not end. -/
theorem step_eq_none {call : TimerCall Timer Process} (hOwned : ¬ OwnedIfListed s call) :
    step clock s call = none := by
  simp only [OwnedIfListed, not_forall, ne_eq, not_not] at hOwned
  obtain ⟨et, current, hArmed, xs, hList, hMem, hNone⟩ := hOwned
  obtain ⟨start, interval, readings, hStep⟩ := step_armed clock s hArmed
  rw [hStep]
  exact addTimer_eq_none clock current hList hMem hNone

/-- **When the timers stay in a list.** All calls of a sequence return and leave a list
behind if and only if none of them arms a timer that is on the list without an owner. -/
theorem timerlist_intact_iff (clock : Nat → ClockTime) (s : Timers Timer Process)
    (calls : List (TimerCall Timer Process)) :
    (∃ t, runAll (step clock) (started s) calls = some t ∧ Intact t) ↔
      Along (step clock) OwnedIfListed (started s) calls :=
  runAll_good_iff (fun _ => True) Intact (fun _ => False) (fun _ _ _ _ _ => trivial)
    (fun _ _ _ hIntact hOwned => step_intact hIntact hOwned)
    (fun s call t _ _ hOwned hStep => by
      rw [step_eq_none hOwned] at hStep
      cases hStep)
    (fun _ _ _ _ hFalse _ => hFalse) (fun _ hFalse => hFalse.elim) calls trivial
    ⟨[], rfl, List.nodup_nil⟩

/-- Calls from processes only: every timer on the list has an owner. -/
theorem intact_of_processes (calls : List (TimerCall Timer Process))
    (h : ∀ call ∈ calls, ∀ et, call.armed ≠ some (et, none)) (hList : IsList s.next s.timerlist xs)
    (hOwners : ∀ t ∈ xs, s.p t ≠ none) :
    ∃ t, runAll (step clock) s calls = some t ∧ Intact t := by
  induction calls generalizing s xs with
  | nil => exact ⟨s, rfl, xs, hList, hList.nodup⟩
  | cons call calls ih =>
      rw [List.forall_mem_cons] at h
      have hOwned : OwnedIfListed s call := by
        intro et current _ ys hYs hMem
        exact hOwners et (hYs.unique hList ▸ hMem)
      obtain ⟨s', ys, hStep, hList', hFrom⟩ := step_spec clock hList hOwned
      have hOwners' : ∀ t ∈ ys, s'.p t ≠ none := by
        intro t ht hNone
        rcases hFrom t ht with hArmed | ⟨hMem, hSame⟩
        · exact h.1 t (hNone ▸ hArmed)
        · exact hOwners t hMem (hSame ▸ hNone)
      rw [runAll, hStep]
      exact ih h.2 hList' hOwners'

/-- `maintenance_timer`, with nothing posted, before `etimer_process` starts. -/
def maintenanceTimer : Timers Unit Unit :=
  { timerlist := none, nextExpiration := 0, next := fun _ => none, p := fun _ => none
    start := fun _ => 0, interval := fun _ => 0, posted := [], readings := 0 }

/-- The maintenance process arms its timer, and two join confirmations arm it for no
process. -/
def joinConfirmedTwice : List (TimerCall Unit Unit) :=
  [.set () 76800 (some ()), .set () 0 none, .set () 0 none]

/-- The last of these calls does not return. -/
theorem timerlist_intact_fails :
    ¬ ∃ t, runAll (step fun _ => 0) (started maintenanceTimer) joinConfirmedTwice = some t ∧
      Intact t := by
  have hNone : runAll (step fun _ => 0) (started maintenanceTimer) joinConfirmedTwice = none := by
    decide
  rw [hNone]
  rintro ⟨t, h, -⟩
  cases h

end Timers

end Smarthome.Contiki
