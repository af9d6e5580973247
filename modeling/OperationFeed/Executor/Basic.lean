/-!
# Executors

An executor runs *tasks* and keeps the results of what they were started for. A task has a *turn*
from time to time. After a turn it is either finished, with a result, or *parked* until something
that it waits for has happened. Tasks that are due a turn stand in a queue, first in, first out.

Whoever starts a task holds a *handle* on its result, a number. A handle is resolved at most once,
its result is taken at most once, and dropping it does not touch the task.

Time is virtual: milliseconds since the executor was made, moved only on request.
-/

namespace OperationFeed

/-- The number of a handle, counted from zero. -/
abbrev Handle : Type := Nat

/-- What became of a handle. -/
inductive HandleState (ρ : Type) where
  -- There is no result yet.
  | waiting
  -- The result is there, and nobody has taken it.
  | resolved (result : ρ)
  -- The result was taken.
  | taken
  -- Nobody will take a result.
  | dropped

/-- Tasks of type `τ` and the handles on their results, which are of type `ρ`. -/
structure Executor (τ ρ : Type) where
  clock : Nat
  /-- Whether tasks still get turns. -/
  alive : Bool
  /-- The tasks due a turn, each with its handle, next one first. -/
  queue : List (Handle × τ)
  /-- The tasks that wait, each with its handle, in the order in which they began to. -/
  parked : List (Handle × τ)
  handles : List (HandleState ρ)

namespace Executor

variable {τ ρ : Type}

/-- No tasks, no handles, time zero. -/
def fresh : Executor τ ρ := ⟨0, true, [], [], []⟩

/-! ### Handles -/

/-- Make the next handle, in a given state. -/
def newHandle (e : Executor τ ρ) (state : HandleState ρ) : Handle × Executor τ ρ :=
  (e.handles.length, { e with handles := e.handles ++ [state] })

/-- Resolve a handle that waits for its result. -/
def resolve (e : Executor τ ρ) (handle : Handle) (result : ρ) : Executor τ ρ :=
  match e.handles[handle]? with
  | some .waiting => { e with handles := e.handles.set handle (.resolved result) }
  | _ => e

/-- Drop a handle. -/
def drop (e : Executor τ ρ) (handle : Handle) : Executor τ ρ :=
  { e with handles := e.handles.set handle .dropped }

/-- The results that nobody has taken, each with its handle, in the order of the handles. -/
def untaken (e : Executor τ ρ) : List (Handle × ρ) :=
  e.handles.zipIdx.filterMap fun (state, handle) =>
    match state with
    | .resolved result => some (handle, result)
    | _ => none

/-- Take all results that are there. -/
def take (e : Executor τ ρ) : List (Handle × ρ) × Executor τ ρ :=
  (e.untaken, { e with
    handles := e.handles.map fun state =>
      match state with
      | .resolved _ => .taken
      | other => other })

/-- The handles that still wait for a result. -/
def unresolved (e : Executor τ ρ) : List Handle :=
  e.handles.zipIdx.filterMap fun (state, handle) =>
    match state with
    | .waiting => some handle
    | _ => none

/-! ### Tasks -/

/-- Put a task at the end of the queue. -/
def enqueue (e : Executor τ ρ) (handle : Handle) (task : τ) : Executor τ ρ :=
  { e with queue := e.queue ++ [(handle, task)] }

/-- Let a task wait. -/
def park (e : Executor τ ρ) (handle : Handle) (task : τ) : Executor τ ρ :=
  { e with parked := e.parked ++ [(handle, task)] }

/-- Put the waiting tasks that satisfy `ready` at the end of the queue, in the order in which they
began to wait. -/
def wake (e : Executor τ ρ) (ready : τ → Bool) : Executor τ ρ :=
  { e with
    queue := e.queue ++ e.parked.filter (fun p => ready p.2)
    parked := e.parked.filter (fun p => !ready p.2) }

end Executor

end OperationFeed
