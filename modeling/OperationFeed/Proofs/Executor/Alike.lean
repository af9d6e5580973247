import OperationFeed.Proofs.Executor.Moves

/-!
# Executors that do the same

Two machines are alike if their states are related and their executors are the same
(`Machine.Alike`). If turns respect the relation, and related states make the same tasks ready
(`Machine.Indifferent`), then whatever is done with the two machines goes the same way in both: the
same tasks get their turns, with the same results, and the machines are alike afterwards.
-/

namespace OperationFeed

namespace Machine

variable {σ τ ρ α : Type} {R : σ → σ → Prop}

/-- Related states, and the same executor. -/
def Alike (R : σ → σ → Prop) (m m' : Machine σ τ ρ) : Prop :=
  ∃ state, R m.state state ∧ m' = { m with state }

/-- What is done to the state alone respects the relation if it does so by itself. -/
theorem respects_onState {a : Act σ α} (h : a.Respects R) :
    (onState a : Act (Machine σ τ ρ) α).Respects (Alike R) := by
  refine h.onPart ?_ ?_
  · rintro m _ ⟨state, h_rel, rfl⟩
    exact h_rel
  · rintro m _ ⟨state, h_rel, rfl⟩ x y h_xy
    exact ⟨y, h_xy, rfl⟩

/-- An act that has to do with the executor alone. -/
theorem respects_of_executor {a : Act (Machine σ τ ρ) α}
    (h : ∀ m state, a.effect { m with state } = ((a.effect m).1, { (a.effect m).2 with state }))
    (h_state : ∀ m, (a.effect m).2.state = m.state) : a.Respects (Alike R) := by
  rintro m _ ⟨state, h_rel, rfl⟩
  rw [h m state]
  exact ⟨rfl, state, (h_state m).symm ▸ h_rel, rfl⟩

/-- A change of the executor does not look at the state. -/
theorem respects_onExecutor (f : Executor τ ρ → Executor τ ρ) :
    (onExecutor f : Act (Machine σ τ ρ) Unit).Respects (Alike R) :=
  respects_of_executor (fun _ _ => rfl) fun _ => rfl

variable [Work σ τ ρ]

variable (σ τ ρ) in
/-- The work does not depend on anything in which related states differ. -/
structure Indifferent (R : σ → σ → Prop) : Prop where
  turn (now : Nat) (task : τ) : (Work.turn now task : Act σ (Turn τ ρ)).Respects R
  isReady {s t : σ} (h : R s t) (now : Nat) (task : τ) :
    Work.isReady s now task = Work.isReady t now task
  abandon (task : τ) : (Work.abandon task : Act σ Unit).Respects R

namespace Indifferent

variable (h : Indifferent σ τ ρ R)

include h

/-- Related states make the same tasks ready, so the same ones are queued. -/
theorem respects_settle : (settle : Act (Machine σ τ ρ) Unit).Respects (Alike R) := by
  rintro m _ ⟨state, h_rel, rfl⟩
  refine ⟨rfl, state, h_rel, ?_⟩
  have h_ready : Work.isReady (τ := τ) m.state = Work.isReady state := by
    funext now task
    exact h.isReady h_rel now task
  rw [effect_settle, effect_settle, ← h_ready]

/-- What is started has the same handle, be it a result that is there or a task. -/
theorem respects_start (launch : Launch τ ρ) :
    (start launch : Act (Machine σ τ ρ) Handle).Respects (Alike R) := by
  have newHandle : ∀ state : HandleState ρ, (modifyGet fun m =>
      ((m.executor.newHandle state).1, { m with executor := (m.executor.newHandle state).2 }) :
        Act (Machine σ τ ρ) Handle).Respects (Alike R) :=
    fun _ => respects_of_executor (fun _ _ => rfl) fun _ => rfl
  cases launch with
  | ready result => exact newHandle _
  | task task =>
    refine .of_get (fun m => .ite ?_ ?_) (by rintro m _ ⟨state, -, rfl⟩; rfl)
    -- alive, the task is queued; after a shutdown, it ends with what its end does to the state
    · exact .bind (newHandle _) fun _ => .bind (respects_onExecutor _) fun _ => .pure _
    · exact .bind (respects_onState (h.abandon task)) fun _ => newHandle _

/-- A turn finishes the task in both machines, with one result, or parks one and the same task. -/
theorem respects_turnOf (handle : Handle) (task : τ) :
    (turnOf handle task : Act (Machine σ τ ρ) Unit).Respects (Alike R) := by
  refine .of_get (fun m => ?_) (by rintro m _ ⟨state, -, rfl⟩; rfl)
  refine .bind (respects_onState (h.turn _ task)) fun turn => ?_
  cases turn with
  | finished result => exact .bind (respects_onExecutor _) fun _ => h.respects_settle
  | parked task => exact .bind (respects_onExecutor _) fun _ => h.respects_settle

/-- The queues are the same, so the task at the head is the same. -/
theorem respects_turn : (Machine.turn : Act (Machine σ τ ρ) Bool).Respects (Alike R) := by
  rintro m _ ⟨state, h_rel, rfl⟩
  obtain ⟨state', executor⟩ := m
  rw [Machine.turn, Act.effect_bind, Act.effect_bind, Act.effect_get, Act.effect_get]
  dsimp only
  -- nothing depends on the state before the turn itself
  cases executor.queue with
  | nil => exact ⟨rfl, state, h_rel, rfl⟩
  | cons p rest =>
    have h_rest :
        (do Machine.turnOf p.1 p.2; return true : Act (Machine σ τ ρ) Bool).Respects (Alike R) :=
      .bind (h.respects_turnOf p.1 p.2) fun _ => .pure _
    exact h_rest _ _ ⟨state, h_rel, rfl⟩

/-- Turns go on in both machines or in neither, as the turn before has the same answer. -/
theorem respects_turns (fuel : Nat) :
    (turns fuel : Act (Machine σ τ ρ) Unit).Respects (Alike R) := by
  induction fuel with
  | zero => exact .pure _
  | succ fuel ih => exact .bind h.respects_turn fun more => .ite ih (.pure _)

/-- The fuel is counted off the executor, so it is the same. -/
theorem respects_runAll : (runAll : Act (Machine σ τ ρ) Unit).Respects (Alike R) :=
  .of_get (fun _ => h.respects_turns _) (by rintro m _ ⟨state, -, rfl⟩; rfl)

theorem respects_moveTo (time : Nat) :
    (moveTo time : Act (Machine σ τ ρ) Unit).Respects (Alike R) :=
  .bind (respects_onExecutor _) fun _ => .bind h.respects_settle fun _ => h.respects_runAll

/-- The next deadline is that of a task, and the tasks are the same. -/
theorem respects_moveThrough (target fuel : Nat) :
    (moveThrough target fuel : Act (Machine σ τ ρ) Unit).Respects (Alike R) := by
  induction fuel with
  | zero => exact .pure _
  | succ fuel ih =>
    refine .of_get (fun m => ?_) (by rintro m _ ⟨state, -, rfl⟩; rfl)
    cases m.nextDeadline? target with
    | none => exact .pure _
    | some deadline => exact .bind (h.respects_moveTo deadline) fun _ => ih

/-- Both machines stop at the same deadlines on the way. -/
theorem respects_advance (milliseconds : Nat) :
    (advance milliseconds : Act (Machine σ τ ρ) Unit).Respects (Alike R) := by
  refine .bind h.respects_runAll fun _ => .of_get (fun m => ?_) (by rintro m _ ⟨state, -, rfl⟩; rfl)
  exact .bind (h.respects_moveThrough _ _) fun _ => h.respects_moveTo _

/-- A handle has the same task behind it, or has none. -/
theorem respects_turnFor (handle : Handle) :
    (turnFor handle : Act (Machine σ τ ρ) Unit).Respects (Alike R) := by
  refine .of_get (fun m => ?_) (by rintro m _ ⟨state, -, rfl⟩; rfl)
  cases m.executor.tasks.lookup handle with
  | none => exact .pure _
  | some task => exact .bind (respects_onExecutor _) fun _ => h.respects_turnOf handle task

/-- The same tasks end, one after another, each with what its end does to the state. -/
theorem respects_endTasks (tasks : List (Handle × τ)) :
    (endTasks tasks : Act (Machine σ τ ρ) Unit).Respects (Alike R) := by
  induction tasks with
  | nil => exact .pure _
  | cons p rest ih =>
    exact .bind (respects_onState (h.abandon p.2)) fun _ =>
      .bind (respects_onExecutor _) fun _ => ih

/-- The tasks that a shutdown ends are listed before the first one ends. -/
theorem respects_shutdown : (shutdown : Act (Machine σ τ ρ) Unit).Respects (Alike R) :=
  .of_get (fun _ => .bind (respects_onExecutor _) fun _ => h.respects_endTasks _)
    (by rintro m _ ⟨state, -, rfl⟩; rfl)

/-- So every move of the executor goes the same way in both machines. -/
theorem respects_move (move : ExecutorMove) :
    (Machine.move move : Act (Machine σ τ ρ) Unit).Respects (Alike R) := by
  cases move with
  | settle => exact h.respects_settle
  | turn handle => exact h.respects_turnFor handle
  | tick | drop | take => exact respects_onExecutor _
  | shutdown => exact h.respects_shutdown

end Indifferent

end Machine

end OperationFeed
