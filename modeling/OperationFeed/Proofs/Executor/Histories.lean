import OperationFeed.Executor.Timer
import OperationFeed.Proofs.Executor.Moves

/-!
# Histories of an executor of timed work

Whoever starts timed work, or asks for a result that is there, gets a handle. What was done with an
executor is a history (`CompletionHistory`), latest act first, and functions of the history alone
say what is to be expected of a handle:

* `CompletionHistory.asleep?` is how long ago the work had its first turn;
* `CompletionHistory.finishes` says whether it had a turn once its sleep was over,
  before a shutdown;
* `CompletionHistory.outcome?` is the result: that of the work if it finishes, the cancelled one if
  the executor is shut down before, and none as long as neither has happened.

A drop appears in none of them.
-/

namespace OperationFeed

/-! ### What is done -/

/-- Something that is done with an executor of timed work and the handles on it. -/
inductive CompletionAct (α : Type) where
  -- Make a handle whose result is there, be it a success or a failure.
  | ready (result : Except FeedError α)
  -- Start work that sleeps for some milliseconds, if it is told to, and then has a result.
  | spawn (delay : Option Nat) (result : Except FeedError α)
  | drop (handle : Handle)
  -- Take all results that are there.
  | take
  -- Give turns until no task is due one.
  | run
  -- Move the clock by some milliseconds, and run what becomes due on the way.
  | advance (milliseconds : Nat)
  -- Time passes, and no task has a turn.
  | tick (milliseconds : Nat)
  -- The task behind a handle has a turn, be it due one or not.
  | turn (handle : Handle)
  | shutdown

/-- What an act gives back. -/
inductive CompletionAnswer (α : Type) where
  -- The handle that was made.
  | made (handle : Handle)
  -- The results that were taken, each with its handle.
  | took (results : List (Handle × Except FeedError α))
  -- Nothing.
  | nothing

/-- What was done, latest act first. -/
abbrev CompletionHistory (α : Type) : Type := List (CompletionAct α)

namespace CompletionAct

variable {α : Type}

/-- Do it. -/
def perform : CompletionAct α → Act (TimerMachine α) (CompletionAnswer α)
  | .ready result => do return .made (← Machine.start (.ready result))
  | .spawn delay result => do return .made (← Machine.start (.task (.after delay result)))
  | .drop handle => do
    Machine.onExecutor (·.drop handle)
    return .nothing
  | .take => do return .took (← Machine.takeResults)
  | .run => do
    Machine.runAll
    return .nothing
  | .advance milliseconds => do
    Machine.advance milliseconds
    return .nothing
  | .tick milliseconds => do
    Machine.onExecutor fun e => { e with clock := e.clock + milliseconds }
    Machine.settle
    return .nothing
  | .turn handle => do
    Machine.turnFor handle
    return .nothing
  | .shutdown => do
    Machine.shutdown
    return .nothing

/-- How far the clock moves. -/
def milliseconds : CompletionAct α → Nat
  | .advance milliseconds | .tick milliseconds => milliseconds
  | .ready _ | .spawn .. | .drop _ | .take | .run | .turn _ | .shutdown => 0

/-- Whether the task behind a handle has a turn, as long as there is one. -/
def reaches (handle : Handle) : CompletionAct α → Bool
  | .run | .advance _ => true
  | .turn other => handle = other
  | .ready _ | .spawn .. | .drop _ | .take | .tick _ | .shutdown => false

/-- Whether a handle is made. -/
def isStart : CompletionAct α → Bool
  | .ready _ | .spawn .. => true
  | _ => false

def isShutdown : CompletionAct α → Bool
  | .shutdown => true
  | _ => false

/-- Whether a handle is dropped. -/
def drops (handle : Handle) : CompletionAct α → Bool
  | .drop other => handle = other
  | _ => false

/-- Whether any handle is dropped. -/
def isDrop : CompletionAct α → Bool
  | .drop _ => true
  | _ => false

end CompletionAct

/-! ### What is to be expected -/

namespace CompletionHistory

variable {α : Type}

/-- How many handles were made. The next one has this number. -/
def made (history : CompletionHistory α) : Nat := history.countP (·.isStart)

/-- How far the clock has moved. -/
def elapsed : CompletionHistory α → Nat
  | [] => 0
  | act :: earlier => elapsed earlier + act.milliseconds

/-- Whether the executor was shut down. -/
def shutsDown (history : CompletionHistory α) : Bool := history.any (·.isShutdown)

/-- Whether a handle was dropped. -/
def drops (handle : Handle) (history : CompletionHistory α) : Bool := history.any (·.drops handle)

/-- The same, but nothing is dropped. -/
def withoutDrops (history : CompletionHistory α) : CompletionHistory α := history.filter (!·.isDrop)

/-- How long ago the task behind a handle had its first turn, since when it sleeps. -/
def asleep? (handle : Handle) : CompletionHistory α → Option Nat
  | [] => none
  | act :: earlier =>
    match asleep? handle earlier with
    | some slept => some (slept + act.milliseconds)
    | none => if act.reaches handle then some act.milliseconds else none

/-- Whether the task behind a handle is over: it had a turn when it had slept for long enough, and
the executor had not been shut down. -/
def finishes (handle : Handle) (delay : Option Nat) : CompletionHistory α → Bool
  | [] => false
  | act :: earlier =>
    finishes handle delay earlier ||
      (act.reaches handle && !shutsDown earlier &&
        (asleep? handle (act :: earlier)).any (delay.getD 0 ≤ ·))

/-- The result of the handle that was made by `start`, after what was done `earlier`, if there is
one after what was done `since`. -/
def outcome? (start : CompletionAct α) (earlier since : CompletionHistory α) :
    Option (Except FeedError α) :=
  match start with
  | .ready result => some result
  | .spawn delay result =>
    if !shutsDown earlier && finishes (made earlier) delay since then some result
    else if shutsDown (since ++ earlier) then some (.error .cancelled)
    else none
  | _ => none

variable {earlier since : CompletionHistory α}

@[simp] theorem made_cons (act : CompletionAct α) (earlier : CompletionHistory α) :
    made (act :: earlier) = made earlier + if act.isStart then 1 else 0 := List.countP_cons

@[simp] theorem elapsed_cons (act : CompletionAct α) (earlier : CompletionHistory α) :
    elapsed (act :: earlier) = elapsed earlier + act.milliseconds := rfl

/-- What happened earlier adds to the time that has passed. -/
theorem elapsed_le_elapsed_append (since earlier : CompletionHistory α) :
    elapsed since ≤ elapsed (since ++ earlier) := by
  induction since with
  | nil => exact Nat.zero_le _
  | cons act since ih => exact Nat.add_le_add_right ih _

@[simp] theorem shutsDown_cons (act : CompletionAct α) (earlier : CompletionHistory α) :
    shutsDown (act :: earlier) = (act.isShutdown || shutsDown earlier) := rfl

@[simp] theorem shutsDown_append (since earlier : CompletionHistory α) :
    shutsDown (since ++ earlier) = (shutsDown since || shutsDown earlier) := List.any_append

@[simp] theorem drops_cons (handle : Handle) (act : CompletionAct α)
    (earlier : CompletionHistory α) :
    drops handle (act :: earlier) = (act.drops handle || drops handle earlier) := rfl

/-- A handle that was made has a number of its own. -/
theorem exists_start {history : CompletionHistory α} {handle : Handle} (h : handle < made history) :
    ∃ since start earlier, history = since ++ start :: earlier ∧ start.isStart = true ∧
      made earlier = handle := by
  induction history with
  | nil => cases h
  | cons act earlier ih =>
    -- the handle was made earlier, or by the latest act
    by_cases h_lt : handle < made earlier
    · obtain ⟨since, start, earlier', rfl, h_start, h_made⟩ := ih h_lt
      exact ⟨act :: since, start, earlier', rfl, h_start, h_made⟩
    · rw [made_cons] at h
      cases h_start : act.isStart with
      | false =>
        rw [h_start] at h
        exact absurd h h_lt
      | true =>
        rw [h_start, if_pos rfl] at h
        exact ⟨[], act, earlier, rfl, h_start,
          Nat.le_antisymm (Nat.le_of_not_lt h_lt) (Nat.le_of_lt_succ h)⟩

/-- Nobody has slept longer than time has passed. -/
theorem le_elapsed_of_asleep? {handle : Handle} {slept : Nat}
    (h : asleep? handle since = some slept) : slept ≤ elapsed since := by
  induction since generalizing slept with
  | nil => cases h
  | cons act since ih =>
    rw [elapsed_cons]
    rw [asleep?] at h
    split at h
    · next earlier h_earlier =>
      have h_le := ih h_earlier
      have h_eq := Option.some.inj h
      omega
    · split at h
      · have h_eq := Option.some.inj h
        omega
      · cases h

/-- Work is not over before its sleep. -/
theorem delay_le_of_finishes {handle : Handle} {delay : Option Nat}
    (h : finishes handle delay since = true) : delay.getD 0 ≤ elapsed since := by
  induction since with
  | nil => cases h
  | cons act since ih =>
    rw [finishes, Bool.or_eq_true] at h
    -- it was over already, or the latest act finds it slept long enough
    rcases h with h | h
    · exact Nat.le_trans (ih h) (Nat.le_add_right ..)
    · obtain ⟨-, h⟩ := Bool.and_eq_true_iff.mp h
      obtain ⟨slept, h_slept, h_le⟩ := (Option.any_eq_true _ _).mp h
      exact Nat.le_trans (of_decide_eq_true h_le) (le_elapsed_of_asleep? h_slept)

/-- A task that has a turn sleeps from then on at the latest. -/
theorem asleep?_of_reaches {handle : Handle} {act : CompletionAct α}
    (h : act.reaches handle = true) (since : CompletionHistory α) :
    ∃ slept, asleep? handle (act :: since) = some slept ∧ act.milliseconds ≤ slept := by
  rw [asleep?]
  cases asleep? handle since with
  | none => exact ⟨_, if_pos h, Nat.le_refl _⟩
  | some slept => exact ⟨_, rfl, Nat.le_add_left ..⟩

/-- Work is over after an act that gives it a turn and takes as long as the sleep, unless there was
a shutdown. -/
theorem finishes_of_mem {handle : Handle} {delay : Option Nat} {act : CompletionAct α}
    (h_mem : act ∈ since) (h_reaches : act.reaches handle = true)
    (h_le : delay.getD 0 ≤ act.milliseconds) (h_alive : shutsDown since = false) :
    finishes handle delay since = true := by
  induction since with
  | nil => cases h_mem
  | cons latest since ih =>
    rw [shutsDown_cons, Bool.or_eq_false_iff] at h_alive
    rw [finishes, Bool.or_eq_true]
    -- the act is the latest one, or the work was over before
    rcases List.mem_cons.mp h_mem with rfl | h_mem
    · obtain ⟨slept, h_slept, h_le'⟩ := asleep?_of_reaches h_reaches since
      have h_over : delay.getD 0 ≤ slept := Nat.le_trans h_le h_le'
      exact .inr (by simp [h_reaches, h_alive.2, h_slept, h_over])
    · exact .inl (ih h_mem h_alive.2)

/-- What happens next makes no difference for a handle that has its outcome, and otherwise finishes
or cancels its work, or does not. -/
theorem outcome?_spawn_cons (delay : Option Nat) (result : Except FeedError α)
    (act : CompletionAct α) (earlier since : CompletionHistory α) :
    outcome? (.spawn delay result) earlier (act :: since) =
      (outcome? (.spawn delay result) earlier since).or
        (if act.reaches (made earlier) &&
            (asleep? (made earlier) (act :: since)).any (delay.getD 0 ≤ ·) then some result
          else if act.isShutdown then some (.error .cancelled)
          else none) := by
  simp only [outcome?, finishes, List.cons_append, shutsDown_cons, shutsDown_append]
  -- all that the two sides depend on is a matter of four truth values
  cases shutsDown earlier
  · cases finishes (made earlier) delay since
    · cases shutsDown since
      · simp
      · simp
    · simp
  · simp

section Outcome

variable {start act : CompletionAct α}

/-- What gives the task no turn, and does not end it, makes no difference. -/
theorem outcome?_cons_of_not (h_reaches : act.reaches (made earlier) = false)
    (h_shutdown : act.isShutdown = false) :
    outcome? start earlier (act :: since) = outcome? start earlier since := by
  cases start with
  | spawn delay result => simp [outcome?_spawn_cons, h_reaches, h_shutdown]
  | _ => rfl

/-- There is one outcome. -/
theorem outcome?_cons_of_some {result : Except FeedError α}
    (h : outcome? start earlier since = some result) :
    outcome? start earlier (act :: since) = some result := by
  cases start with
  | spawn delay result' => rw [outcome?_spawn_cons, h, Option.some_or]
  | _ => exact h

/-- Only spawned work may have to wait for its outcome. -/
theorem exists_spawn (h_start : start.isStart = true) (h : outcome? start earlier since = none) :
    ∃ delay result, start = .spawn delay result := by
  cases start with
  | ready result => cases h
  | spawn delay result => exact ⟨delay, result, rfl⟩
  | _ => cases h_start

end Outcome

end CompletionHistory

end OperationFeed
