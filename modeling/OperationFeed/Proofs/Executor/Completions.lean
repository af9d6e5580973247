import OperationFeed.Proofs.Executor.Histories
import OperationFeed.Proofs.Executor.Timers

/-!
# Results come once, and are not lost

`TimerMachine.after` carries a history out. One act does to every handle what it would do to this
handle alone (`TimerMachine.stepped`), so one induction over what was done since a handle was made
ties the handle to its outcome:

* `TimerMachine.Tracks` is the invariant: the task that is behind the handle, and what has become of
  the handle (`TimerMachine.Standing`);
* `TimerMachine.tracks` is the induction, with one lemma for acts that leave the task alone, one for
  turns, and one for a shutdown;
* `TimerMachine.completes` says what is to be known of all handles, and that drops do not matter.
-/

namespace OperationFeed

/-! ### One act, and one handle -/

namespace CompletionAct

variable {α : Type}

/-- What the act does to a handle that was made before. -/
def onView (handle : Handle) (now : Nat) (act : CompletionAct α) (v : TimerView α) : TimerView α :=
  match act with
  | .drop other => if handle = other then { v with state := v.state.map fun _ => .dropped } else v
  | .take => { v with state := v.state.map .take }
  | .shutdown => v.ended (.error .cancelled)
  | act => if act.reaches handle then v.turned now (now + act.milliseconds) else v

/-- What there is of the handle that the act makes. -/
def newView (alive : Bool) : CompletionAct α → TimerView α
  | .ready result => (Launch.ready result).view alive
  | .spawn delay result => (Launch.task (.after delay result)).view alive
  | _ => ⟨none, none⟩

end CompletionAct

namespace TimerMachine

open Machine CompletionHistory

variable {α : Type}

/-- What one act does, to each handle by itself. -/
structure Stepped (act : CompletionAct α) (m m' : TimerMachine α) : Prop where
  orderly : Orderly m'
  clock : m'.executor.clock = m.executor.clock + act.milliseconds
  alive : m'.executor.alive = (m.executor.alive && !act.isShutdown)
  length : m'.executor.handles.length = m.executor.handles.length + if act.isStart then 1 else 0
  view (handle : Handle) : m'.executor.view handle =
    if act.isStart = true ∧ handle = m.executor.handles.length then act.newView m.executor.alive
    else act.onView handle m.executor.clock (m.executor.view handle)

variable {m m' : TimerMachine α}

/-- An act that gives every task a turn at its beginning and one at its end. -/
theorem Stepped.of_ran {act : CompletionAct α} (h_now : ∀ handle v,
      act.onView handle m.executor.clock v =
        v.turned m.executor.clock (m.executor.clock + act.milliseconds))
    (h_start : act.isStart = false) (h_shutdown : act.isShutdown = false)
    (ran : Ran m.executor.clock (m.executor.clock + act.milliseconds) m m') : Stepped act m m' where
  orderly := ran.orderly
  clock := ran.clock
  alive := by rw [ran.alive, h_shutdown, Bool.not_false, Bool.and_true]
  length := by rw [ran.length, h_start]; rfl
  view handle := by rw [ran.view, h_now, h_start, if_neg (fun h => nomatch h.1)]

/-- An act that makes no handle and moves no clock. -/
theorem Stepped.of_view {act : CompletionAct α} (h_milliseconds : act.milliseconds = 0)
    (h_start : act.isStart = false) (h_orderly : Orderly m')
    (h_clock : m'.executor.clock = m.executor.clock)
    (h_alive : m'.executor.alive = (m.executor.alive && !act.isShutdown))
    (h_length : m'.executor.handles.length = m.executor.handles.length)
    (h_view : ∀ handle, m'.executor.view handle =
      act.onView handle m.executor.clock (m.executor.view handle)) : Stepped act m m' where
  orderly := h_orderly
  clock := by rw [h_clock, h_milliseconds, Nat.add_zero]
  alive := h_alive
  length := by rw [h_length, h_start]; rfl
  view handle := by rw [h_view, h_start, if_neg (fun h => nomatch h.1)]

/-- An act that starts something. -/
theorem Stepped.of_started {act : CompletionAct α} {launch : Launch (Timer α) (Except FeedError α)}
    (h_milliseconds : act.milliseconds = 0) (h_start : act.isStart = true)
    (h_shutdown : act.isShutdown = false) (h_onView : ∀ handle now v, act.onView handle now v = v)
    (h_newView : act.newView m.executor.alive = launch.view m.executor.alive)
    (started : Started launch m m') : Stepped act m m' where
  orderly := started.orderly
  clock := by rw [started.clock, h_milliseconds, Nat.add_zero]
  alive := by rw [started.alive, h_shutdown, Bool.not_false, Bool.and_true]
  length := by rw [started.length, h_start]; rfl
  view handle := by
    rw [started.view, h_onView, h_newView]
    simp only [h_start, true_and]

/-- Each act does to each handle what `CompletionAct.onView` says: one case per act, from what is
known of starts, turns, runs and shutdowns. -/
theorem stepped (h : Orderly m) (act : CompletionAct α) :
    Stepped act m (act.perform.effect m).2 := by
  have h_alive : m.executor.alive = (m.executor.alive && !false) := (Bool.and_true _).symm
  cases act with
  | ready result =>
    exact .of_started rfl rfl rfl (fun _ _ _ => rfl) rfl (started_start h (.ready result))
  | spawn delay result =>
    exact .of_started rfl rfl rfl (fun _ _ _ => rfl) rfl
      (started_start h (.task (.after delay result)))
  | drop handle =>
    exact .of_view rfl rfl ⟨h.sound.sameTasks (.drop _ handle), h.asleep⟩ rfl h_alive
      List.length_set (m.executor.view_drop handle)
  | take =>
    exact .of_view rfl rfl ⟨h.sound.sameTasks (.take _), h.asleep⟩ rfl h_alive (List.length_map _)
      m.executor.view_take
  | run =>
    simp only [CompletionAct.perform, Act.effect_bind, Act.effect_pure]
    exact .of_ran (fun _ _ => rfl) rfl rfl (ran_runAll h)
  | advance milliseconds =>
    simp only [CompletionAct.perform, Act.effect_bind, Act.effect_pure]
    exact .of_ran (fun _ _ => rfl) rfl rfl (ran_advance h milliseconds)
  | tick milliseconds =>
    have h_le : m.executor.clock ≤ m.executor.clock + milliseconds := Nat.le_add_right ..
    have h_view := view_settleAt h h_le
    refine ⟨orderly_settleAt h h_le, rfl, h_alive, rfl, fun handle => ?_⟩
    exact (h_view handle).trans (if_neg (fun h => nomatch h.1)).symm
  | turn handle =>
    have hadTurn := hadTurn_turnFor h handle
    refine .of_view rfl rfl hadTurn.orderly hadTurn.clock (hadTurn.alive.trans h_alive)
      hadTurn.length fun other => ?_
    refine (hadTurn.view other).trans ?_
    simp only [CompletionAct.onView, CompletionAct.reaches, decide_eq_true_eq]
    rfl
  | shutdown =>
    have shutDown := shutDown_shutdown h
    refine .of_view rfl rfl shutDown.orderly shutDown.clock ?_ shutDown.length shutDown.view
    exact shutDown.alive.trans (Bool.and_false _).symm

/-! ### A handle and its history -/

/-- The executor after what was done. -/
def after : CompletionHistory α → TimerMachine α
  | [] => ⟨(), .fresh⟩
  | act :: earlier => (act.perform.effect (after earlier)).2

/-- What an act is answered with, after what was done earlier. -/
def answerTo (act : CompletionAct α) (earlier : CompletionHistory α) : CompletionAnswer α :=
  (act.perform.effect (after earlier)).1

/-- The results that were given back, first one first, each with its handle. -/
def taken : CompletionHistory α → List (Handle × Except FeedError α)
  | [] => []
  | act :: earlier =>
    match answerTo act earlier with
    | .took results => taken earlier ++ results
    | _ => taken earlier

/-- A take gives back what the executor hands out. -/
theorem taken_take (earlier : CompletionHistory α) :
    taken (.take :: earlier) = taken earlier ++ (after earlier).executor.take.1 := rfl

/-- Whoever starts something has the next handle. -/
theorem answerTo_start {start : CompletionAct α} (h_start : start.isStart = true)
    (earlier : CompletionHistory α) :
    answerTo start earlier = .made (after earlier).executor.handles.length := by
  cases start with
  | ready result => rfl
  | spawn delay result =>
    have h_handle := (start_course (.task (Timer.after delay result)) (after earlier)).1
    exact congrArg CompletionAnswer.made h_handle
  | _ => cases h_start

/-- Whatever is done, tasks and handles fit together. -/
theorem orderly_after (history : CompletionHistory α) : Orderly (after history) := by
  induction history with
  | nil => exact orderly_fresh
  | cons act earlier ih => exact (stepped ih act).orderly

/-- One act more does to each handle what it does to it alone. -/
theorem stepped_after (act : CompletionAct α) (earlier : CompletionHistory α) :
    Stepped act (after earlier) (after (act :: earlier)) :=
  stepped (orderly_after earlier) act

/-- There are as many handles as were made. -/
theorem length_after (history : CompletionHistory α) :
    (after history).executor.handles.length = made history := by
  induction history with
  | nil => rfl
  | cons act earlier ih => rw [(stepped_after act earlier).length, ih, made_cons]

/-- The clock shows how much time has passed. -/
theorem clock_after (history : CompletionHistory α) :
    (after history).executor.clock = elapsed history := by
  induction history with
  | nil => rfl
  | cons act earlier ih => rw [(stepped_after act earlier).clock, ih, elapsed_cons]

/-- The executor is alive until it is shut down. -/
theorem alive_after (history : CompletionHistory α) :
    (after history).executor.alive = !shutsDown history := by
  induction history with
  | nil => rfl
  | cons act earlier ih =>
    rw [(stepped_after act earlier).alive, ih, shutsDown_cons, Bool.not_or, Bool.and_comm]

/-- What has become of a handle that has an outcome, or has none yet, and was dropped or was not. -/
inductive Standing (handle : Handle) (taken : List (Handle × Except FeedError α)) :
    (outcome : Option (Except FeedError α)) → (dropped : Bool) →
      Option (HandleState (Except FeedError α)) → Prop
  | waiting (notTaken : ∀ result, (handle, result) ∉ taken) :
      Standing handle taken none false (some .waiting)
  | resolved (result : Except FeedError α) (notTaken : ∀ result, (handle, result) ∉ taken) :
      Standing handle taken (some result) false (some (.resolved result))
  | taken (result : Except FeedError α)
      (isTaken : ∀ other, (handle, other) ∈ taken ↔ other = result) :
      Standing handle taken (some result) false (some .taken)
  | dropped (outcome : Option (Except FeedError α))
      (onlyTaken : ∀ result, (handle, result) ∈ taken → outcome = some result) :
      Standing handle taken outcome true (some .dropped)

namespace Standing

variable {handle : Handle} {results : List (Handle × Except FeedError α)}
  {outcome : Option (Except FeedError α)} {dropped : Bool}
  {state : Option (HandleState (Except FeedError α))}

/-- The outcome comes. -/
theorem resolve (h : Standing handle results none dropped state) (result : Except FeedError α) :
    Standing handle results (some result) dropped (state.map (HandleState.resolve result)) := by
  cases h with
  | waiting notTaken => exact .resolved result notTaken
  | dropped _ onlyTaken => exact .dropped _ fun other h_mem => nomatch onlyTaken other h_mem

/-- A handle that is dropped has been given its outcome already, or will never be. -/
theorem drop (h : Standing handle results outcome dropped state) :
    Standing handle results outcome true (state.map fun _ => .dropped) := by
  cases h with
  | waiting notTaken => exact .dropped _ fun result h_mem => absurd h_mem (notTaken result)
  | resolved result notTaken => exact .dropped _ fun other h_mem => absurd h_mem (notTaken other)
  | taken result isTaken =>
    exact .dropped _ fun other h_mem => congrArg some ((isTaken other).mp h_mem).symm
  | dropped _ onlyTaken => exact .dropped _ onlyTaken

/-- All results that are there are taken. -/
theorem take (h : Standing handle results outcome dropped state)
    {untaken : List (Handle × Except FeedError α)}
    (h_untaken : ∀ result, (handle, result) ∈ untaken ↔ state = some (.resolved result)) :
    Standing handle (results ++ untaken) outcome dropped (state.map HandleState.take) := by
  -- only a handle that is resolved is among those whose result is handed out
  cases h with
  | waiting notTaken =>
    refine .waiting fun result h_mem => ?_
    rcases List.mem_append.mp h_mem with h_mem | h_mem
    · exact notTaken result h_mem
    · cases (h_untaken result).mp h_mem
  | resolved result notTaken =>
    refine .taken result fun other => ?_
    rw [List.mem_append, h_untaken, or_iff_right (notTaken other), Option.some.injEq,
      HandleState.resolved.injEq, eq_comm]
  | taken result isTaken =>
    refine .taken result fun other => ?_
    rw [List.mem_append, h_untaken, isTaken]
    exact or_iff_left nofun
  | dropped _ onlyTaken =>
    refine .dropped _ fun result h_mem => ?_
    rcases List.mem_append.mp h_mem with h_mem | h_mem
    · exact onlyTaken result h_mem
    · cases (h_untaken result).mp h_mem

section Readings

variable (h : Standing handle results outcome dropped state) {result : Except FeedError α}

include h

/-- What was taken under the handle is its outcome. -/
theorem eq_of_mem (h_mem : (handle, result) ∈ results) : outcome = some result := by
  cases h with
  | waiting notTaken => exact absurd h_mem (notTaken result)
  | resolved _ notTaken => exact absurd h_mem (notTaken result)
  | taken _ isTaken => rw [(isTaken result).mp h_mem]
  | dropped _ onlyTaken => exact onlyTaken result h_mem

/-- A result that is there is the outcome, and was not taken. -/
theorem of_resolved (h_state : state = some (.resolved result)) :
    outcome = some result ∧ dropped = false ∧ ∀ other, (handle, other) ∉ results := by
  cases h with
  | resolved _ notTaken =>
    cases h_state
    exact ⟨rfl, rfl, notTaken⟩
  | _ => cases h_state

/-- The outcome was taken, or is there. -/
theorem kept (h_dropped : dropped = false) (h_outcome : outcome = some result) :
    (handle, result) ∈ results ∨ state = some (.resolved result) := by
  cases h with
  | waiting => cases h_outcome
  | resolved _ notTaken =>
    cases h_outcome
    exact .inr rfl
  | taken _ isTaken =>
    cases h_outcome
    exact .inl ((isTaken result).mpr rfl)
  | dropped => cases h_dropped

/-- A handle waits exactly as long as it has no outcome and was not dropped. -/
theorem waiting_iff : state = some .waiting ↔ outcome = none ∧ dropped = false := by
  cases h <;> simp

end Readings

end Standing

/-- The task that is expected behind a handle as long as there is no outcome. -/
def work? (start : CompletionAct α) (earlier since : CompletionHistory α) : Option (Timer α) :=
  match start with
  | .spawn delay result =>
    let wakeAt := (asleep? (made earlier) since).map fun slept =>
      elapsed (since ++ start :: earlier) - slept + delay.getD 0
    some ⟨delay, wakeAt, result⟩
  | _ => none

/-- A handle is as its history says. -/
structure Tracks (start : CompletionAct α) (earlier since : CompletionHistory α) : Prop where
  task : ((after (since ++ start :: earlier)).executor.view (made earlier)).task =
    match outcome? start earlier since with
    | some _ => none
    | none => work? start earlier since
  standing : Standing (made earlier) (taken (since ++ start :: earlier))
    (outcome? start earlier since) (drops (made earlier) since)
    ((after (since ++ start :: earlier)).executor.view (made earlier)).state

/-- A result that was taken belongs to a handle that was made. -/
theorem lt_made_of_mem_taken {history : CompletionHistory α} {handle : Handle}
    {result : Except FeedError α} (h : (handle, result) ∈ taken history) :
    handle < made history := by
  induction history with
  | nil => cases h
  | cons act earlier ih =>
    have h_earlier : (handle, result) ∈ taken earlier → handle < made (act :: earlier) := by
      intro h
      rw [made_cons]
      exact Nat.lt_add_right _ (ih h)
    cases act with
    | take =>
      rw [taken_take] at h
      rcases List.mem_append.mp h with h | h
      · exact h_earlier h
      -- what is handed out belongs to a handle in the list of the executor
      · have h_lt := (List.getElem?_eq_some_iff.mp ((Executor.mem_take_fst _).mp h)).1
        rwa [length_after] at h_lt
    | _ => exact h_earlier h

/-- A handle has just been made. -/
theorem tracks_start {start : CompletionAct α} (h_start : start.isStart = true)
    (earlier : CompletionHistory α) : Tracks start earlier [] := by
  have h_view := (stepped_after start earlier).view (made earlier)
  rw [if_pos ⟨h_start, (length_after earlier).symm⟩, alive_after] at h_view
  -- the handle is new, so nothing was taken under its number
  have notTaken : ∀ result, (made earlier, result) ∉ taken earlier :=
    fun _ h_mem => Nat.lt_irrefl _ (lt_made_of_mem_taken h_mem)
  cases start with
  | ready result => exact ⟨congrArg HandleView.task h_view, by
      rw [List.nil_append, h_view]; exact .resolved result notTaken⟩
  | spawn delay result =>
    -- after a shutdown the work is cancelled on the spot
    cases h_dead : shutsDown earlier with
    | true =>
      have h_outcome : outcome? (.spawn delay result) earlier [] = some (.error .cancelled) := by
        simp [outcome?, h_dead]
      rw [h_dead] at h_view
      refine ⟨?_, ?_⟩
      · rw [List.nil_append, h_view, h_outcome]
        rfl
      · rw [List.nil_append, h_view, h_outcome]
        exact .resolved _ notTaken
    | false =>
      have h_outcome : outcome? (.spawn delay result) earlier [] = none := by
        simp [outcome?, finishes, h_dead]
      rw [h_dead] at h_view
      refine ⟨?_, ?_⟩
      · rw [List.nil_append, h_view, h_outcome]
        rfl
      · rw [List.nil_append, h_view, h_outcome]
        exact .waiting notTaken
  | _ => cases h_start

section Step

variable {start act : CompletionAct α} {earlier since : CompletionHistory α}

/-- Work that has no turn sleeps on. -/
theorem work?_cons_of_not_reaches (h : act.reaches (made earlier) = false) :
    work? start earlier (act :: since) = work? start earlier since := by
  cases start with
  | spawn delay result =>
    rw [work?, work?, asleep?]
    cases asleep? (made earlier) since with
    | none => simp [h]
    | some slept =>
      simp only [Option.map_some, List.cons_append, elapsed_cons, Nat.add_sub_add_right]
  | _ => rfl

/-- Work that has a turn sleeps from then on at the latest. Whether it is over by the end of the act
is a matter of how long it has slept by then. -/
theorem work?_cons_of_reaches (delay : Option Nat) (result : Except FeedError α)
    (since : CompletionHistory α) (h : act.reaches (made earlier) = true) : ∃ t, t.result = result ∧
      work? (.spawn delay result) earlier since = some t ∧
      work? (.spawn delay result) earlier (act :: since) =
        some (t.begin (elapsed (since ++ .spawn delay result :: earlier))) ∧
      (asleep? (made earlier) (act :: since)).any (delay.getD 0 ≤ ·) =
        decide (t.wakeTime (elapsed (since ++ .spawn delay result :: earlier)) ≤
          elapsed (since ++ .spawn delay result :: earlier) + act.milliseconds) := by
  refine ⟨_, rfl, rfl, ?_⟩
  rw [work?, asleep?, List.cons_append, elapsed_cons]
  cases h_slept : asleep? (made earlier) since with
  | none =>
    simp [Timer.begin, Timer.wakeTime, h]
  | some slept =>
    -- the time at which it fell asleep is the same, whether it is reckoned from now or from the end
    -- of the act
    have h_le : slept ≤ elapsed (since ++ .spawn delay result :: earlier) :=
      Nat.le_trans (le_elapsed_of_asleep? h_slept) (elapsed_le_elapsed_append ..)
    generalize elapsed (since ++ .spawn delay result :: earlier) = now at h_le ⊢
    have h_due : delay.getD 0 ≤ slept + act.milliseconds ↔
        now - slept + delay.getD 0 ≤ now + act.milliseconds := by omega
    refine ⟨?_, decide_eq_decide.mpr h_due⟩
    simp [Timer.begin, Timer.wakeTime, Nat.add_sub_add_right]

/-- What an act does to a handle that was made before it. -/
theorem view_cons (h_start : start.isStart = true) (act : CompletionAct α)
    (earlier since : CompletionHistory α) :
    (after (act :: (since ++ start :: earlier))).executor.view (made earlier) =
      act.onView (made earlier) (elapsed (since ++ start :: earlier))
        ((after (since ++ start :: earlier)).executor.view (made earlier)) := by
  -- the handle was made before the act, so it is not the one that the act makes
  have h_lt : made earlier < made (since ++ start :: earlier) := by
    rw [made, made, List.countP_append, List.countP_cons, h_start, if_pos rfl]
    omega
  rw [(stepped_after act _).view, length_after, clock_after, if_neg fun h => Nat.ne_of_lt h_lt h.2]

namespace Tracks

variable (tracks : Tracks start earlier since)

include tracks

/-- Whatever neither gives the task a turn nor ends it leaves the task and the outcome. -/
theorem unmoved (h_reaches : act.reaches (made earlier) = false)
    (h_shutdown : act.isShutdown = false)
    (h_task : ((after (act :: (since ++ start :: earlier))).executor.view (made earlier)).task =
      ((after (since ++ start :: earlier)).executor.view (made earlier)).task)
    (h_standing : Standing (made earlier) (taken (act :: (since ++ start :: earlier)))
      (outcome? start earlier since) (drops (made earlier) (act :: since))
      ((after (act :: (since ++ start :: earlier))).executor.view (made earlier)).state) :
    Tracks start earlier (act :: since) := by
  -- the outcome is decided by turns and shutdowns alone
  have h_outcome : outcome? start earlier (act :: since) = outcome? start earlier since :=
    outcome?_cons_of_not h_reaches h_shutdown
  refine ⟨?_, h_outcome ▸ h_standing⟩
  rw [h_outcome, work?_cons_of_not_reaches h_reaches, List.cons_append, h_task]
  exact tracks.task

/-- When the task is over already, neither turns nor a shutdown make a difference. -/
theorem settled {result : Except FeedError α}
    (h_outcome : outcome? start earlier since = some result)
    (h_view : (after (act :: (since ++ start :: earlier))).executor.view (made earlier) =
      (after (since ++ start :: earlier)).executor.view (made earlier))
    (h_taken : taken (act :: (since ++ start :: earlier)) = taken (since ++ start :: earlier))
    (h_drops : act.drops (made earlier) = false) : Tracks start earlier (act :: since) := by
  have h_task := tracks.task
  have h_standing := tracks.standing
  rw [h_outcome] at h_task h_standing
  refine ⟨?_, ?_⟩
  · rw [outcome?_cons_of_some h_outcome, List.cons_append, h_view, h_task]
  · rw [outcome?_cons_of_some h_outcome, List.cons_append, h_view, h_taken, drops_cons, h_drops,
      Bool.false_or]
    exact h_standing

/-- The task has a turn, and is over with its own result, or begins to sleep or sleeps on. -/
theorem reached (h_start : start.isStart = true) (h_reaches : act.reaches (made earlier) = true)
    (h_view : (after (act :: (since ++ start :: earlier))).executor.view (made earlier) =
      ((after (since ++ start :: earlier)).executor.view (made earlier)).turned
        (elapsed (since ++ start :: earlier))
        (elapsed (since ++ start :: earlier) + act.milliseconds))
    (h_taken : taken (act :: (since ++ start :: earlier)) = taken (since ++ start :: earlier))
    (h_drops : act.drops (made earlier) = false) (h_shutdown : act.isShutdown = false) :
    Tracks start earlier (act :: since) := by
  have h_task := tracks.task
  have h_standing := tracks.standing
  cases h_outcome : outcome? start earlier since with
  | some result =>
    rw [h_outcome] at h_task
    exact tracks.settled h_outcome (h_view.trans (HandleView.turned_of_none h_task)) h_taken h_drops
  | none =>
    -- it is spawned work, and either its sleep is over by the end of the act or it is not
    obtain ⟨delay, result, rfl⟩ := exists_spawn h_start h_outcome
    obtain ⟨t, h_result, h_work, h_begin, h_over⟩ :=
      work?_cons_of_reaches delay result since h_reaches
    rw [h_outcome] at h_task h_standing
    rw [h_work] at h_task
    have h_drops' : drops (made earlier) (act :: since) = drops (made earlier) since := by
      rw [drops_cons, h_drops, Bool.false_or]
    have h_outcome' := outcome?_spawn_cons delay result act earlier since
    rw [h_outcome, h_reaches, Bool.true_and, h_over, h_shutdown, Option.none_or] at h_outcome'
    -- its sleep goes beyond the end of the act, or is over by then
    rcases Nat.lt_or_ge (elapsed (since ++ .spawn delay result :: earlier) + act.milliseconds)
      (t.wakeTime (elapsed (since ++ .spawn delay result :: earlier))) with h_lt | h_due
    · rw [decide_eq_false (Nat.not_le_of_lt h_lt)] at h_outcome'
      -- it sleeps on: there is no outcome, and the handle stands as it did
      rw [HandleView.turned_of_lt h_task h_lt] at h_view
      refine ⟨?_, ?_⟩
      · rw [h_outcome', List.cons_append, h_view]
        exact h_begin.symm
      · rw [h_outcome', List.cons_append, h_view, h_taken, h_drops']
        exact h_standing
    · rw [decide_eq_true h_due] at h_outcome'
      -- it is over: the outcome is its own result, and the handle is resolved with it
      rw [HandleView.turned_of_le h_task h_due, HandleView.ended_of_some h_task, h_result] at h_view
      refine ⟨?_, ?_⟩
      · rw [h_outcome', List.cons_append, h_view]
        rfl
      · rw [h_outcome', List.cons_append, h_view, h_taken, h_drops']
        exact h_standing.resolve result

/-- A task that is not over ends with the cancelled result. -/
theorem shutdown (h_start : start.isStart = true) : Tracks start earlier (.shutdown :: since) := by
  have h_view := view_cons h_start .shutdown earlier since
  have h_task := tracks.task
  have h_standing := tracks.standing
  cases h_outcome : outcome? start earlier since with
  | some result =>
    rw [h_outcome] at h_task
    exact tracks.settled h_outcome (h_view.trans (HandleView.ended_of_none h_task _)) rfl rfl
  | none =>
    -- it is spawned work that has not finished, so the outcome is the cancelled one
    obtain ⟨delay, result, rfl⟩ := exists_spawn h_start h_outcome
    have h_outcome' := outcome?_spawn_cons delay result .shutdown earlier since
    rw [h_outcome] at h_outcome' h_task h_standing
    have h_over := h_view.trans (HandleView.ended_of_some h_task _)
    refine ⟨?_, ?_⟩
    · rw [h_outcome', List.cons_append, h_over]
      rfl
    · rw [h_outcome', List.cons_append, h_over]
      exact h_standing.resolve _

/-- One act more, be it a start, a drop, a take, a turn or a shutdown. -/
theorem step (h_start : start.isStart = true) (act : CompletionAct α) :
    Tracks start earlier (act :: since) := by
  have h_view := view_cons h_start act earlier since
  have h_standing := tracks.standing
  cases act with
  -- neither the task nor the handle takes part
  | ready | spawn | tick =>
    exact tracks.unmoved rfl rfl (congrArg HandleView.task h_view)
      (congrArg HandleView.state h_view ▸ h_standing)
  -- the handle is dropped, and the task goes on
  | drop other =>
    rw [CompletionAct.onView] at h_view
    by_cases h_eq : made earlier = other
    · rw [if_pos h_eq] at h_view
      refine tracks.unmoved rfl rfl (by rw [h_view]) ?_
      rw [h_view, drops_cons, CompletionAct.drops, decide_eq_true h_eq]
      exact h_standing.drop
    · rw [if_neg h_eq] at h_view
      refine tracks.unmoved rfl rfl (congrArg HandleView.task h_view) ?_
      rw [h_view, drops_cons, CompletionAct.drops, decide_eq_false h_eq]
      exact h_standing
  -- the result is handed out, if it is there
  | take =>
    rw [CompletionAct.onView] at h_view
    refine tracks.unmoved rfl rfl (by rw [h_view]) ?_
    rw [h_view]
    exact h_standing.take fun _ => Executor.mem_take_fst _
  -- every task has a turn
  | run | advance => exact tracks.reached h_start rfl h_view rfl rfl rfl
  | turn other =>
    cases h_reaches : (CompletionAct.turn other : CompletionAct α).reaches (made earlier) with
    | true =>
      exact tracks.reached h_start h_reaches (h_view.trans (if_pos h_reaches)) rfl rfl rfl
    | false =>
      have h_same := h_view.trans (if_neg (Bool.eq_false_iff.mp h_reaches))
      exact tracks.unmoved h_reaches rfl (congrArg HandleView.task h_same)
        (congrArg HandleView.state h_same ▸ h_standing)
  | shutdown => exact tracks.shutdown h_start

end Tracks

end Step

/-- Whatever is done after a handle was made. -/
theorem tracks {start : CompletionAct α} (h_start : start.isStart = true)
    (earlier since : CompletionHistory α) : Tracks start earlier since := by
  -- what was done before the start counts for the number of the handle, and if it was a shutdown
  induction since with
  | nil => exact tracks_start h_start earlier
  | cons act since ih => exact ih.step h_start act

/-! ### Results -/

/-- All results that there have been, whether they were taken or are there for the next one who
comes by: those that will have been given back if they are taken now. -/
def results (history : CompletionHistory α) : List (Handle × Except FeedError α) :=
  taken (.take :: history)

/-- A result that was taken is not handed out any more. -/
theorem not_mem_take_of_mem_taken {history : CompletionHistory α} {handle : Handle}
    {result result' : Except FeedError α} (h : (handle, result) ∈ taken history) :
    (handle, result') ∉ (after history).executor.take.1 := by
  obtain ⟨since, start, earlier, rfl, h_start, rfl⟩ := exists_start (lt_made_of_mem_taken h)
  have standing := (tracks h_start earlier since).standing
  -- were it handed out, the handle would be resolved, and nothing would have been taken under it
  intro h_take
  exact (standing.of_resolved ((Executor.mem_take_fst _).mp h_take)).2.2 result h

/-- No handle is given two results. -/
theorem nodup_taken (history : CompletionHistory α) : ((taken history).map (·.1)).Nodup := by
  induction history with
  | nil => exact .nil
  | cons act earlier ih =>
    cases act with
    | take =>
      rw [taken_take, List.map_append, List.nodup_append]
      refine ⟨ih, Executor.nodup_take_fst _, ?_⟩
      -- what is handed out is not among what was taken
      rintro handle h_taken _ h_take rfl
      obtain ⟨p, h_p, rfl⟩ := List.mem_map.mp h_taken
      obtain ⟨⟨handle, result⟩, h_q, h_eq⟩ := List.mem_map.mp h_take
      obtain rfl : handle = p.1 := h_eq
      exact not_mem_take_of_mem_taken h_p h_q
    | _ => exact ih

/-- What has become of the handle that was made by `start`, after what was done `earlier`, by the
end of what was done `since`. -/
structure Stands (start : CompletionAct α) (earlier since : CompletionHistory α) : Prop where
  /-- It has no other result than its outcome. -/
  only : ∀ result, (made earlier, result) ∈ results (since ++ start :: earlier) →
    outcome? start earlier since = some result
  /-- Unless it was dropped, it has its outcome. -/
  kept : drops (made earlier) since = false → ∀ result, outcome? start earlier since = some result →
    (made earlier, result) ∈ results (since ++ start :: earlier)
  /-- Once it was dropped, there is nothing to take. -/
  dropped : drops (made earlier) since = true → ∀ result,
    (made earlier, result) ∉ (after (since ++ start :: earlier)).executor.take.1
  unresolved : made earlier ∈ (after (since ++ start :: earlier)).executor.unresolved ↔
    outcome? start earlier since = none ∧ drops (made earlier) since = false
  /-- Whether it was dropped or not, the work goes on as long as there is no outcome. -/
  works : (∃ task, (made earlier, task) ∈ (after (since ++ start :: earlier)).executor.tasks) ↔
    outcome? start earlier since = none

/-- All of it is read off what the handle and its task have come to. -/
theorem stands {start : CompletionAct α} (h_start : start.isStart = true)
    (earlier since : CompletionHistory α) : Stands start earlier since := by
  have h_task := (tracks h_start earlier since).task
  have standing := (tracks h_start earlier since).standing
  refine ⟨?_, ?_, ?_, ?_, ?_⟩
  · intro result h_mem
    rcases List.mem_append.mp h_mem with h_mem | h_mem
    · exact standing.eq_of_mem h_mem
    · exact (standing.of_resolved ((Executor.mem_take_fst _).mp h_mem)).1
  · intro h_dropped result h_outcome
    rcases standing.kept h_dropped h_outcome with h_mem | h_state
    · exact List.mem_append_left _ h_mem
    · exact List.mem_append_right _ ((Executor.mem_take_fst _).mpr h_state)
  · intro h_dropped result h_mem
    have h_not := (standing.of_resolved ((Executor.mem_take_fst _).mp h_mem)).2.1
    rw [h_dropped] at h_not
    cases h_not
  · exact (Executor.mem_unresolved _).trans standing.waiting_iff
  -- there is a task behind the handle exactly if the task is expected
  · have h_sound := (orderly_after (since ++ start :: earlier)).sound
    constructor
    · rintro ⟨t, h_mem⟩
      rw [Executor.view, h_sound.lookup_eq_some.mpr h_mem] at h_task
      cases h_outcome : outcome? start earlier since with
      | none => rfl
      | some result =>
        -- there would be no task
        rw [h_outcome] at h_task
        cases h_task
    · intro h_outcome
      obtain ⟨delay, result, rfl⟩ := exists_spawn h_start h_outcome
      rw [h_outcome] at h_task
      exact ⟨_, h_sound.lookup_eq_some.mp h_task⟩

/-! ### Without the drops -/

/-- What becomes of a task has nothing to do with what becomes of its handle. -/
theorem task_onView_congr (act : CompletionAct α) (handle : Handle) (now : Nat) {v w : TimerView α}
    (h : v.task = w.task) : (act.onView handle now v).task = (act.onView handle now w).task := by
  have h_ended : ∀ result, (v.ended result).task = (w.ended result).task := by
    intro result
    rw [HandleView.ended, HandleView.ended, h]
    split
    · exact h
    · rfl
  -- a turn looks at the task alone, and so does its end
  have h_turned : ∀ start now, (v.turned start now).task = (w.turned start now).task := by
    intro start now
    rw [HandleView.turned, HandleView.turned, h]
    split
    · exact h
    · split
      · exact h_ended _
      · rfl
  cases act with
  | drop other => simp only [CompletionAct.onView]; split <;> exact h
  | turn other =>
    simp only [CompletionAct.onView]
    split
    · exact h_turned _ _
    · exact h
  | run | advance => exact h_turned _ _
  | shutdown => exact h_ended _
  | ready | spawn | take | tick => exact h

/-- After one history as after another, but for what becomes of the handles that were dropped. -/
structure SameButDrops (history history' : CompletionHistory α) : Prop where
  clock : (after history).executor.clock = (after history').executor.clock
  alive : (after history).executor.alive = (after history').executor.alive
  length : (after history).executor.handles.length = (after history').executor.handles.length
  task (handle : Handle) : ((after history).executor.view handle).task =
    ((after history').executor.view handle).task
  state (handle : Handle) (kept : drops handle history = false) :
    (after history).executor.handles[handle]? = (after history').executor.handles[handle]?
  taken (handle : Handle) (kept : drops handle history = false) (result : Except FeedError α) :
    (handle, result) ∈ taken history ↔ (handle, result) ∈ taken history'

namespace SameButDrops

variable {history history' : CompletionHistory α} (same : SameButDrops history history')

include same

theorem view {handle : Handle} (kept : drops handle history = false) :
    (after history).executor.view handle = (after history').executor.view handle := by
  rw [Executor.view, Executor.view, same.state handle kept]
  exact congrArg (HandleView.mk · _) (same.task handle)

/-- One drop more. -/
theorem drop (other : Handle) : SameButDrops (.drop other :: history) history' := by
  have stepped := stepped_after (.drop other) history
  have h_view : ∀ handle, (after (.drop other :: history)).executor.view handle =
      CompletionAct.onView handle (after history).executor.clock (.drop other)
        ((after history).executor.view handle) :=
    fun handle => (stepped.view handle).trans (if_neg fun h => nomatch h.1)
  refine ⟨same.clock, stepped.alive.trans ((Bool.and_true _).trans same.alive),
    stepped.length.trans same.length, fun handle => ?_, fun handle kept => ?_,
    fun handle kept => ?_⟩
  · rw [h_view, ← same.task, CompletionAct.onView]
    split <;> rfl
  -- a handle that was not dropped is another one
  · rw [drops_cons, Bool.or_eq_false_iff] at kept
    have h_ne : handle ≠ other := of_decide_eq_false kept.1
    have h_same := h_view handle
    rw [CompletionAct.onView, if_neg h_ne] at h_same
    exact (congrArg HandleView.state h_same).trans (same.state handle kept.2)
  · rw [drops_cons, Bool.or_eq_false_iff] at kept
    exact same.taken handle kept.2

/-- The same is done in both, and does the same to every handle. -/
theorem step (act : CompletionAct α) : SameButDrops (act :: history) (act :: history') := by
  have stepped := stepped_after act history
  have stepped' := stepped_after act history'
  -- what an act does to a handle depends on the clock, on whether the executor is alive, on the
  -- number of handles and on the handle itself, and all of this is the same in both
  refine ⟨?_, ?_, ?_, fun handle => ?_, fun handle kept => ?_, fun handle kept result => ?_⟩
  · rw [stepped.clock, stepped'.clock, same.clock]
  · rw [stepped.alive, stepped'.alive, same.alive]
  · rw [stepped.length, stepped'.length, same.length]
  -- the handle is the one that the act makes, or an old one
  · rw [stepped.view, stepped'.view, same.length, same.alive, same.clock]
    split
    · rfl
    · exact task_onView_congr _ _ _ (same.task handle)
  · rw [drops_cons, Bool.or_eq_false_iff] at kept
    -- a handle that was not dropped is the same in both, so the act leaves the same of it
    have h_view : (after (act :: history)).executor.view handle =
        (after (act :: history')).executor.view handle := by
      rw [stepped.view, stepped'.view, same.length, same.alive, same.clock, same.view kept.2]
    exact congrArg HandleView.state h_view
  · rw [drops_cons, Bool.or_eq_false_iff] at kept
    cases act with
    -- the same is handed out under the handle, as it is in the same state
    | take =>
      rw [taken_take, taken_take, List.mem_append, List.mem_append, same.taken handle kept.2,
        Executor.mem_take_fst, Executor.mem_take_fst, same.state handle kept.2]
    | _ => exact same.taken handle kept.2 result

end SameButDrops

/-- Drops stop no work, and are nothing to other handles. -/
theorem sameButDrops_withoutDrops (history : CompletionHistory α) :
    SameButDrops history (withoutDrops history) := by
  induction history with
  | nil => exact ⟨rfl, rfl, rfl, fun _ => rfl, fun _ _ => rfl, fun _ _ _ => .rfl⟩
  | cons act earlier ih =>
    cases act with
    -- a drop is left out, and everything else is done in both
    | drop other => exact ih.drop other
    | _ => exact ih.step _

/-! ### Completions -/

/-- What is to be known of the handles of a history. -/
structure Completes (history : CompletionHistory α) : Prop where
  /-- The handles are numbered as they are made. -/
  handles : (after history).executor.handles.length = made history
  /-- Whoever starts something is given the handle with the next number. -/
  numbered : ∀ since start earlier, history = since ++ start :: earlier → start.isStart = true →
    answerTo start earlier = .made (made earlier)
  /-- No handle has two results, be they taken or not. -/
  oneShot : ((results history).map (·.1)).Nodup
  /-- Every handle has its outcome, as soon as there is one, and waits for it until then. -/
  stands : ∀ since start earlier, history = since ++ start :: earlier → start.isStart = true →
    Stands start earlier since
  /-- A result that is there is the outcome from the first. -/
  ready : ∀ since result earlier, history = since ++ .ready result :: earlier →
    outcome? (.ready result) earlier since = some result
  /-- Work that finishes while the executor is alive has its own result. -/
  finished : ∀ since delay result earlier, history = since ++ .spawn delay result :: earlier →
    shutsDown earlier = false → finishes (made earlier) delay since = true →
      outcome? (.spawn delay result) earlier since = some result
  /-- Spawned work has its own result, if it finishes while the executor is alive, and that is not
  before its sleep is over; otherwise it is cancelled by a shutdown. -/
  spawned : ∀ since delay result earlier, history = since ++ .spawn delay result :: earlier →
    ∀ outcome, outcome? (.spawn delay result) earlier since = some outcome →
      (outcome = result ∧ shutsDown earlier = false ∧ finishes (made earlier) delay since = true ∧
        delay.getD 0 ≤ elapsed since) ∨
      (outcome = .error .cancelled ∧ shutsDown history = true ∧
        (shutsDown earlier = true ∨ finishes (made earlier) delay since = false))
  /-- Spawned work that has a turn at the end of its sleep has its own result. -/
  slept : ∀ since delay result earlier, history = since ++ .spawn delay result :: earlier →
    ∀ act ∈ since, act.reaches (made earlier) = true → delay.getD 0 ≤ act.milliseconds →
      shutsDown history = false → outcome? (.spawn delay result) earlier since = some result
  /-- After a shutdown there is an outcome for every handle. -/
  ended : shutsDown history = true → ∀ since start earlier, history = since ++ start :: earlier →
    start.isStart = true → outcome? start earlier since ≠ none
  /-- Without the drops, the same work would go on, and the handles that were not dropped would
  stand as they do. -/
  drops : SameButDrops history (withoutDrops history)

/-- Whatever is done with an executor, each handle has one result at most, and it is not lost. -/
theorem completes (history : CompletionHistory α) : Completes history where
  handles := length_after history
  numbered _ start earlier _ h_start := by rw [answerTo_start h_start, length_after]
  oneShot := nodup_taken (.take :: history)
  stands := by
    rintro since start earlier rfl h_start
    exact stands h_start earlier since
  ready _ _ _ _ := rfl
  finished _ _ _ _ _ h_alive h_finishes := by
    rw [outcome?, h_alive, h_finishes]
    rfl
  spawned := by
    rintro since delay result earlier rfl outcome h
    rw [outcome?] at h
    split at h
    · next h_finishes =>
      rw [Bool.and_eq_true, Bool.not_eq_true'] at h_finishes
      exact .inl ⟨(Option.some.inj h).symm, h_finishes.1, h_finishes.2,
        delay_le_of_finishes h_finishes.2⟩
    · next h_not =>
      split at h
      · next h_dead =>
        refine .inr ⟨(Option.some.inj h).symm, ?_, ?_⟩
        · rw [shutsDown_append] at h_dead ⊢
          exact h_dead
        · cases h_earlier : shutsDown earlier with
          | true => exact .inl rfl
          | false =>
            rw [h_earlier, Bool.not_false, Bool.true_and] at h_not
            exact .inr (Bool.eq_false_iff.mpr h_not)
      · cases h
  slept := by
    rintro since delay result earlier rfl act h_mem h_reaches h_le h_alive
    rw [shutsDown_append, Bool.or_eq_false_iff] at h_alive
    have h_earlier : shutsDown earlier = false := h_alive.2
    have h_finishes := finishes_of_mem h_mem h_reaches h_le h_alive.1
    simp [outcome?, h_earlier, h_finishes]
  ended := by
    rintro h_dead since start earlier rfl h_start h_none
    obtain ⟨delay, result, rfl⟩ := exists_spawn h_start h_none
    have h_dead' : shutsDown (since ++ earlier) = true := by
      rw [shutsDown_append] at h_dead ⊢
      exact h_dead
    rw [outcome?, h_dead', if_pos rfl] at h_none
    split at h_none <;> cases h_none
  drops := sameButDrops_withoutDrops history

/-- One result is there at once, one piece of work sleeps for long enough, and one is cancelled.
Nobody has the result of the one that was dropped. -/
example : results [.shutdown, .take, .advance 4, .drop 1, .spawn (some 5) (.ok (3 : Nat)),
    .spawn (some 4) (.ok 2), .spawn none (.ok 1), .ready (.ok 0)] =
      [(0, .ok 0), (2, .ok 2), (3, .error .cancelled)] := rfl

end TimerMachine

end OperationFeed
