import OperationFeed.Proofs.Executor.Moves

/-!
# Turns in another order

Tasks that are over after one turn each, and whose turns commute, may have their turns in any order:
the states that they leave are related, the handles have the same results, and the same tasks are
left (`Machine.SameButOrder`). Where only some of the turns commute, the others have to stay in
their order.

Which ones commute is said by keys: a task may have a key, and two tasks with the same
key keep their order (`Reordering`). A list that is reordered in this way is reached by
swaps of neighbours that do not have the same key (`Reordering.swaps`), and no such swap
makes a difference (`Rearrangeable.afterTurn_comm`).
-/

namespace OperationFeed

/-! ### Lists in another order -/

section Lists

variable {α κ : Type}

/-- The second list has the elements of the first one in some order, in which those that have the
same key stand as in the first. -/
structure Reordering [DecidableEq κ] (key : α → Option κ) (first second : List α) : Prop where
  perm : second.Perm first
  sameKey : ∀ k, second.filter (fun a => key a = some k) = first.filter (fun a => key a = some k)

/-- The two do not have the same key. -/
def Apart (key : α → Option κ) (a b : α) : Prop := ∀ k, key a = some k → key b ≠ some k

/-- Swaps of neighbours that are apart lead from one list to another. -/
inductive Swaps (apart : α → α → Prop) : List α → List α → Prop
  | refl (l : List α) : Swaps apart l l
  | cons (a : α) {l l' : List α} (rest : Swaps apart l l') : Swaps apart (a :: l) (a :: l')
  | swap {a b : α} (h : apart a b) (l : List α) : Swaps apart (a :: b :: l) (b :: a :: l)
  | trans {l l' l'' : List α} (left : Swaps apart l l') (right : Swaps apart l' l'') :
    Swaps apart l l''

namespace Swaps

variable {apart : α → α → Prop} {l l' : List α}

/-- Swaps bring nothing in and take nothing out. -/
theorem perm (h : Swaps apart l l') : l'.Perm l := by
  induction h with
  | refl l => exact .refl l
  | cons a rest ih => exact ih.cons a
  | swap h l => exact .swap ..
  | trans left right ih ih' => exact ih'.trans ih

/-- An element moves past a front that it is apart from. -/
theorem past {a : α} (front : List α) (h : ∀ b ∈ front, apart a b) (l : List α) :
    Swaps apart (a :: (front ++ l)) (front ++ a :: l) := by
  induction front with
  | nil => exact .refl _
  | cons b front ih =>
    -- one swap brings it past the first of them, and the induction past the others
    have h_rest := ih fun c h_c => h c (List.mem_cons_of_mem b h_c)
    exact .trans (.swap (h b (List.mem_cons_self ..)) _) (.cons b h_rest)

end Swaps

namespace Reordering

variable [DecidableEq κ] {key : α → Option κ} {a : α} {first second : List α}

/-- What comes before the first element of the other list is apart from it, and without it the rests
are reordered. -/
theorem split (h : Reordering key (a :: first) second) : ∃ front back, second = front ++ a :: back ∧
    (∀ b ∈ front, Apart key a b) ∧ Reordering key first (front ++ back) := by
  obtain ⟨front, back, rfl, h_not⟩ :=
    List.eq_append_cons_of_mem (h.perm.mem_iff.mpr (List.mem_cons_self ..))
  -- of the elements with the key of the first one, it is the first here as well
  have h_front : ∀ k, key a = some k → front.filter (fun b => key b = some k) = [] := by
    intro k h_k
    have h_filter := h.sameKey k
    rw [List.filter_append, List.filter_cons_of_pos (by simpa using h_k)] at h_filter
    cases h_eq : front.filter (fun b => key b = some k) with
    | nil => rfl
    | cons b rest =>
      rw [h_eq, List.filter_cons_of_pos (by simpa using h_k), List.cons_append] at h_filter
      obtain rfl := (List.cons.inj h_filter).1
      have h_mem : b ∈ front.filter (fun b => key b = some k) := h_eq ▸ List.mem_cons_self ..
      exact absurd (List.mem_filter.mp h_mem).1 h_not
  -- without the element, the two lists still agree key by key: it was the first one of its own
  -- key in both
  refine ⟨front, back, rfl, ?_, (List.perm_middle.symm.trans h.perm).cons_inv, ?_⟩
  · intro b h_b k h_k h_k'
    have h_none := List.filter_eq_nil_iff.mp (h_front k h_k) b h_b
    exact h_none (decide_eq_true h_k')
  · intro k
    have h_filter := h.sameKey k
    rw [List.filter_append] at h_filter ⊢
    by_cases h_k : key a = some k
    · rw [h_front k h_k, List.filter_cons_of_pos (by simpa using h_k),
        List.filter_cons_of_pos (by simpa using h_k)] at h_filter
      rw [h_front k h_k]
      exact (List.cons.inj h_filter).2
    · rw [List.filter_cons_of_neg (by simpa using h_k),
        List.filter_cons_of_neg (by simpa using h_k)] at h_filter
      exact h_filter

/-- Only neighbours that are apart have to be swapped. -/
theorem swaps (h : Reordering key first second) : Swaps (Apart key) first second := by
  induction first generalizing second with
  | nil =>
    rw [h.perm.eq_nil]
    exact .refl []
  | cons a first ih =>
    obtain ⟨front, back, rfl, h_apart, h_rest⟩ := h.split
    exact .trans (.cons a (ih h_rest)) (.past front h_apart back)

end Reordering

end Lists

/-! ### Executors -/

namespace Executor

variable {τ ρ : Type}

/-- The same tasks in some order, and the same results. -/
structure SameButOrder (e e' : Executor τ ρ) : Prop where
  tasks : e'.tasks.Perm e.tasks
  handles : e'.handles = e.handles
  clock : e'.clock = e.clock
  alive : e'.alive = e.alive

namespace SameButOrder

variable {e e' e'' : Executor τ ρ}

theorem refl (e : Executor τ ρ) : SameButOrder e e := ⟨.refl _, rfl, rfl, rfl⟩

theorem symm (h : SameButOrder e e') : SameButOrder e' e :=
  ⟨h.tasks.symm, h.handles.symm, h.clock.symm, h.alive.symm⟩

theorem trans (h : SameButOrder e e') (h' : SameButOrder e' e'') : SameButOrder e e'' :=
  ⟨h'.tasks.trans h.tasks, h'.handles.trans h.handles, h'.clock.trans h.clock,
    h'.alive.trans h.alive⟩

/-- To queue a task is to change the order. -/
theorem wake (e : Executor τ ρ) (ready : τ → Bool) : SameButOrder e (e.wake ready) :=
  ⟨(SameTasks.wake e ready).tasks, rfl, rfl, rfl⟩

/-- Soundness is no matter of the order of the tasks. -/
theorem sound (h : SameButOrder e e') (h_sound : e.Sound) : e'.Sound where
  distinct := (h.tasks.map _).nodup_iff.mpr h_sound.distinct
  mayHaveTask p h_mem := by
    rw [MayHaveTask, h.handles]
    exact h_sound.mayHaveTask p (h.tasks.mem_iff.mp h_mem)
  hasTask handle h_wait := by
    rw [h.handles] at h_wait
    exact (h.tasks.map _).mem_iff.mpr (h_sound.hasTask handle h_wait)
  idle h_dead := by
    have h_tasks := h.tasks
    rw [h_sound.idle (h.alive.symm.trans h_dead)] at h_tasks
    exact h_tasks.eq_nil

end SameButOrder

/-! #### Ending tasks -/

/-- The task behind a handle ends with a result. -/
def finish (e : Executor τ ρ) (handle : Handle) (result : ρ) : Executor τ ρ :=
  (e.withdraw handle).resolve handle result

variable {e e' : Executor τ ρ} {handle handle' : Handle} {result : ρ}

/-- All tasks are left but the one that ended. -/
theorem tasks_finish :
    (e.finish handle result).tasks = e.tasks.filter (fun p => !(p.1 == handle)) := by
  rw [finish, tasks_resolve, tasks_withdraw]

theorem mem_tasks_finish {p : Handle × τ} :
    p ∈ (e.finish handle result).tasks ↔ p ∈ e.tasks ∧ p.1 ≠ handle := by
  rw [finish, tasks_resolve, mem_tasks_withdraw]

@[simp] theorem clock_finish : (e.finish handle result).clock = e.clock := clock_resolve ..

@[simp] theorem alive_finish : (e.finish handle result).alive = e.alive := alive_resolve ..

/-- Only the handle itself changes. -/
theorem getElem?_finish_of_ne (h : handle ≠ handle') :
    (e.finish handle result).handles[handle']? = e.handles[handle']? := by
  rcases (e.withdraw handle).handles_resolve handle result handle' with h_same | ⟨h_eq, -⟩
  · exact h_same
  · exact absurd h_eq.symm h

/-- A handle that waits has the result of its task. -/
theorem getElem?_finish_of_waiting (h : e.handles[handle]? = some .waiting) :
    (e.finish handle result).handles[handle]? = some (.resolved result) := by
  have h_wait : (e.withdraw handle).handles[handle]? = some .waiting := h
  rw [finish, resolve, h_wait]
  exact List.getElem?_set_self (List.getElem?_eq_some_iff.mp h_wait).1

/-- A handle that does not wait, since it was dropped, stays as it is. -/
theorem getElem?_finish_of_not_waiting (h : e.handles[handle]? ≠ some .waiting) :
    (e.finish handle result).handles[handle]? = e.handles[handle]? := by
  rcases (e.withdraw handle).handles_resolve handle result handle with h_same | ⟨-, h_wait, -⟩
  · exact h_same
  · exact absurd h_wait h

/-- What becomes of the handle depends on its own state. -/
theorem getElem?_finish_self (h : e.handles[handle]? = e'.handles[handle]?) :
    (e.finish handle result).handles[handle]? = (e'.finish handle result).handles[handle]? := by
  by_cases h_wait : e.handles[handle]? = some .waiting
  · rw [getElem?_finish_of_waiting h_wait, getElem?_finish_of_waiting (h.symm.trans h_wait)]
  · rw [getElem?_finish_of_not_waiting h_wait, getElem?_finish_of_not_waiting (h ▸ h_wait)]
    exact h

/-- Whatever the order, the end of a task leaves the same tasks and the same results. -/
theorem SameButOrder.finish (h : SameButOrder e e') (handle : Handle) (result : ρ) :
    SameButOrder (e.finish handle result) (e'.finish handle result) where
  tasks := by
    rw [tasks_finish, tasks_finish]
    exact h.tasks.filter _
  handles := by
    -- the handle of the task depends on its own state, and no other one changes
    apply List.ext_getElem?
    intro other
    by_cases h_other : handle = other
    · subst h_other
      exact getElem?_finish_self (by rw [h.handles])
    · rw [getElem?_finish_of_ne h_other, getElem?_finish_of_ne h_other, h.handles]
  clock := by rw [clock_finish, clock_finish, h.clock]
  alive := by rw [alive_finish, alive_finish, h.alive]

/-- Two tasks may end in either order. -/
theorem SameButOrder.finish_comm (e : Executor τ ρ) (h : handle ≠ handle') (result result' : ρ) :
    SameButOrder ((e.finish handle result).finish handle' result')
      ((e.finish handle' result').finish handle result) where
  tasks := by
    simp only [tasks_finish, List.filter_filter, Bool.and_comm]
    exact .refl _
  handles := by
    -- a handle is that of the one task, or of the other one, or of none of them
    apply List.ext_getElem?
    intro other
    by_cases h_other : handle = other
    · subst h_other
      rw [getElem?_finish_of_ne h.symm]
      exact getElem?_finish_self (getElem?_finish_of_ne h.symm)
    · rw [getElem?_finish_of_ne h_other]
      by_cases h_other' : handle' = other
      · subst h_other'
        exact getElem?_finish_self (getElem?_finish_of_ne h).symm
      · rw [getElem?_finish_of_ne h_other', getElem?_finish_of_ne h_other',
          getElem?_finish_of_ne h_other]
  clock := by simp
  alive := by simp

end Executor

/-! ### Machines -/

namespace Machine

variable {σ τ ρ κ : Type}

/-- Related states, the same tasks in some order, and the same results. -/
structure SameButOrder (R : σ → σ → Prop) (m m' : Machine σ τ ρ) : Prop where
  state : R m.state m'.state
  executor : m.executor.SameButOrder m'.executor

/-- Machines may be changed one after another, if the relation of their states allows it. -/
theorem SameButOrder.trans {R : σ → σ → Prop} (equivalence : Equivalence R)
    {m m' m'' : Machine σ τ ρ}
    (h : SameButOrder R m m') (h' : SameButOrder R m' m'') : SameButOrder R m m'' :=
  ⟨equivalence.trans h.state h'.state, h.executor.trans h'.executor⟩

/-- Tasks of some kind that are there, none of them twice. -/
structure Pending (kind : τ → Prop) (m : Machine σ τ ρ) (batch : List (Handle × τ)) : Prop where
  nodup : batch.Nodup
  live : ∀ p ∈ batch, p ∈ m.executor.tasks
  kind : ∀ p ∈ batch, kind p.2

namespace Pending

variable {kind : τ → Prop} {m : Machine σ τ ρ} {p : Handle × τ} {batch batch' : List (Handle × τ)}

theorem head (pending : m.Pending kind (p :: batch)) : p ∈ m.executor.tasks ∧ kind p.2 :=
  ⟨pending.live p (List.mem_cons_self ..), pending.kind p (List.mem_cons_self ..)⟩

/-- Different tasks have different handles. -/
theorem handle_ne (pending : m.Pending kind (p :: batch)) (h_sound : m.executor.Sound) :
    ∀ q ∈ batch, q.1 ≠ p.1 := by
  rintro ⟨handle, task⟩ h_q h_eq
  obtain rfl : handle = p.1 := h_eq
  have h_task := h_sound.eq_of_mem (pending.live _ (List.mem_cons_of_mem p h_q)) pending.head.1
  subst h_task
  exact (List.nodup_cons.mp pending.nodup).1 h_q

/-- In another order they are there as well. -/
theorem perm (pending : m.Pending kind batch) (h : batch'.Perm batch) : m.Pending kind batch' where
  nodup := h.nodup_iff.mpr pending.nodup
  live p h_p := pending.live p (h.mem_iff.mp h_p)
  kind p h_p := pending.kind p (h.mem_iff.mp h_p)

end Pending

variable [Work σ τ ρ]

/-- Give the tasks behind some handles their turns, one after another. -/
def turnsFor : List Handle → Act (Machine σ τ ρ) Unit
  | [] => return
  | handle :: rest => do
    turnFor handle
    turnsFor rest

/-- The machine after the turns of some tasks. -/
def afterTurns (m : Machine σ τ ρ) (batch : List (Handle × τ)) : Machine σ τ ρ :=
  ((turnsFor (batch.map (·.1))).effect m).2

/-- The machine after the turn of a task. -/
def afterTurn (m : Machine σ τ ρ) (p : Handle × τ) : Machine σ τ ρ := ((turnFor p.1).effect m).2

/-- The first task has its turn, and then the others have theirs. -/
theorem afterTurns_cons (m : Machine σ τ ρ) (p : Handle × τ) (batch : List (Handle × τ)) :
    m.afterTurns (p :: batch) = (m.afterTurn p).afterTurns batch := rfl

variable (σ) in
/-- Tasks of a kind that are over after one turn each, whose turns go the same way in related
states, and commute unless they have the same key. -/
structure Rearrangeable (R : σ → σ → Prop) (kind : τ → Prop) (key : τ → Option κ) : Prop where
  equivalence : Equivalence R
  finishes {task : τ} (h : kind task) (now : Nat) (s : σ) :
    ∃ result, ((Work.turn now task : Act σ (Turn τ ρ)).effect s).1 = .finished result
  respects {task : τ} (h : kind task) (now : Nat) :
    (Work.turn now task : Act σ (Turn τ ρ)).Respects R
  commute {task task' : τ} (h : kind task) (h' : kind task') (apart : Apart key task task')
    (now : Nat) :
    (Work.turn now task : Act σ (Turn τ ρ)).Commute R (Work.turn now task' : Act σ (Turn τ ρ))

namespace Rearrangeable

variable {R : σ → σ → Prop} {kind : τ → Prop} {key : τ → Option κ} {m m' : Machine σ τ ρ}
  {p q : Handle × τ} {batch : List (Handle × τ)}

section Turn

variable (h : Rearrangeable σ R kind key) (h_sound : m.executor.Sound)
  (live : p ∈ m.executor.tasks) (h_kind : kind p.2)

include h h_sound live h_kind

/-- The turn of a task does to the state what the task says, and ends it. -/
theorem exists_afterTurn : ∃ result,
    ((Work.turn m.executor.clock p.2 : Act σ (Turn τ ρ)).effect m.state).1 = .finished result ∧
    (m.afterTurn p).state = ((Work.turn m.executor.clock p.2 : Act σ (Turn τ ρ)).effect m.state).2 ∧
    (m.executor.finish p.1 result).SameButOrder (m.afterTurn p).executor := by
  obtain ⟨result, h_turn⟩ := h.finishes h_kind m.executor.clock m.state
  obtain ⟨ready, h_after⟩ := turnFor_finished (h_sound.lookup_eq_some.mpr live) h_turn
  refine ⟨result, h_turn, ?_, ?_⟩
  · rw [afterTurn, h_after]
  · rw [afterTurn, h_after]
    exact .wake _ ready

/-- Tasks and handles still fit together. -/
theorem sound_afterTurn : (m.afterTurn p).executor.Sound := by
  obtain ⟨result, -, -, h_executor⟩ := h.exists_afterTurn h_sound live h_kind
  exact h_executor.sound (h_sound.finish p.1 result)

/-- The task is over, and all others are left. -/
theorem mem_tasks_afterTurn :
    q ∈ (m.afterTurn p).executor.tasks ↔ q ∈ m.executor.tasks ∧ q.1 ≠ p.1 := by
  obtain ⟨result, -, -, h_executor⟩ := h.exists_afterTurn h_sound live h_kind
  rw [h_executor.tasks.mem_iff, Executor.mem_tasks_finish]

/-- A turn takes no time. -/
theorem clock_afterTurn : (m.afterTurn p).executor.clock = m.executor.clock := by
  obtain ⟨result, -, -, h_executor⟩ := h.exists_afterTurn h_sound live h_kind
  rw [h_executor.clock, Executor.clock_finish]

/-- No other handle changes. -/
theorem getElem?_afterTurn_of_ne {handle : Handle} (h_ne : p.1 ≠ handle) :
    (m.afterTurn p).executor.handles[handle]? = m.executor.handles[handle]? := by
  obtain ⟨result, -, -, h_executor⟩ := h.exists_afterTurn h_sound live h_kind
  rw [h_executor.handles, Executor.getElem?_finish_of_ne h_ne]

/-- The task's handle has its result, if it waited for one. -/
theorem exists_result_afterTurn (h_wait : m.executor.handles[p.1]? = some .waiting) :
    ∃ result, (m.afterTurn p).executor.handles[p.1]? = some (.resolved result) := by
  obtain ⟨result, -, -, h_executor⟩ := h.exists_afterTurn h_sound live h_kind
  refine ⟨result, ?_⟩
  rw [h_executor.handles, Executor.getElem?_finish_of_waiting h_wait]

/-- A turn goes the same way in two machines that are the same but for the order of the tasks. -/
theorem afterTurn_congr (same : m.SameButOrder R m') :
    (m.afterTurn p).SameButOrder R (m'.afterTurn p) := by
  have h_sound' : m'.executor.Sound := same.executor.sound h_sound
  have live' : p ∈ m'.executor.tasks := same.executor.tasks.mem_iff.mpr live
  obtain ⟨result, h_turn, h_state, h_executor⟩ := h.exists_afterTurn h_sound live h_kind
  obtain ⟨result', h_turn', h_state', h_executor'⟩ := h.exists_afterTurn h_sound' live' h_kind
  -- the turn has one result in both, since the states are related and the clocks are the same
  obtain ⟨h_value, h_related⟩ := h.respects h_kind m.executor.clock _ _ same.state
  rw [same.executor.clock] at h_turn' h_state'
  obtain rfl : result = result' := Turn.finished.inj (h_turn.symm.trans (h_value.trans h_turn'))
  refine ⟨?_, ?_⟩
  · rw [h_state, h_state']
    exact h_related
  · exact h_executor.symm.trans ((same.executor.finish p.1 result).trans h_executor')

/-- Tasks that do not have the same key may have their turns in either order. -/
theorem afterTurn_comm (live' : q ∈ m.executor.tasks) (h_kind' : kind q.2) (h_ne : p.1 ≠ q.1)
    (apart : Apart key p.2 q.2) :
    ((m.afterTurn p).afterTurn q).SameButOrder R ((m.afterTurn q).afterTurn p) := by
  have commute := h.commute h_kind h_kind' apart m.executor.clock
  obtain ⟨result, h_turn, h_state, h_executor⟩ := h.exists_afterTurn h_sound live h_kind
  obtain ⟨result', h_turn', h_state', h_executor'⟩ := h.exists_afterTurn h_sound live' h_kind'
  -- the second turns, with the results that they would have had as first ones
  obtain ⟨second', h_turn₂', h_state₂', h_executor₂'⟩ :=
    h.exists_afterTurn (h.sound_afterTurn h_sound live h_kind)
      ((h.mem_tasks_afterTurn h_sound live h_kind).mpr ⟨live', h_ne.symm⟩) h_kind'
  obtain ⟨second, h_turn₂, h_state₂, h_executor₂⟩ :=
    h.exists_afterTurn (h.sound_afterTurn h_sound live' h_kind')
      ((h.mem_tasks_afterTurn h_sound live' h_kind').mpr ⟨live, h_ne⟩) h_kind
  rw [h.clock_afterTurn h_sound live h_kind, h_state] at h_turn₂' h_state₂'
  rw [h.clock_afterTurn h_sound live' h_kind', h_state'] at h_turn₂ h_state₂
  obtain rfl : result' = second' :=
    Turn.finished.inj (h_turn'.symm.trans ((commute.right m.state).symm.trans h_turn₂'))
  obtain rfl : result = second :=
    Turn.finished.inj (h_turn.symm.trans ((commute.left m.state).symm.trans h_turn₂))
  -- the results do not depend on the order, so the executors differ in the order of two ends only
  refine ⟨?_, ?_⟩
  · rw [h_state₂, h_state₂']
    exact commute.states m.state
  · have h_left : ((m.executor.finish p.1 result).finish q.1 result').SameButOrder
        ((m.afterTurn p).afterTurn q).executor := (h_executor.finish q.1 result').trans h_executor₂'
    have h_right : ((m.executor.finish q.1 result').finish p.1 result).SameButOrder
        ((m.afterTurn q).afterTurn p).executor := (h_executor'.finish p.1 result).trans h_executor₂
    have h_comm := Executor.SameButOrder.finish_comm m.executor h_ne result result'
    exact h_left.symm.trans (h_comm.trans h_right)

end Turn

/-! #### Many turns -/

section Turns

variable (h : Rearrangeable σ R kind key)

include h

/-- The other tasks stay. -/
theorem pending_afterTurn (h_sound : m.executor.Sound) (pending : m.Pending kind (p :: batch)) :
    (m.afterTurn p).Pending kind batch where
  nodup := (List.nodup_cons.mp pending.nodup).2
  live q h_q := by
    apply (h.mem_tasks_afterTurn h_sound pending.head.1 pending.head.2).mpr
    exact ⟨pending.live q (List.mem_cons_of_mem p h_q), pending.handle_ne h_sound q h_q⟩
  kind q h_q := pending.kind q (List.mem_cons_of_mem p h_q)

/-- Many turns go the same way in two machines that are the same but for the order of the tasks. -/
theorem afterTurns_congr (h_sound : m.executor.Sound) (pending : m.Pending kind batch)
    (same : m.SameButOrder R m') : (m.afterTurns batch).SameButOrder R (m'.afterTurns batch) := by
  induction batch generalizing m m' with
  | nil => exact same
  | cons p batch ih =>
    -- after one turn in both machines, the relation and what is left to do are as before
    obtain ⟨live, h_kind⟩ := pending.head
    exact ih (h.sound_afterTurn h_sound live h_kind) (h.pending_afterTurn h_sound pending)
      (h.afterTurn_congr h_sound live h_kind same)

/-- The other tasks are left. -/
theorem mem_tasks_afterTurns (h_sound : m.executor.Sound) (pending : m.Pending kind batch) :
    q ∈ (m.afterTurns batch).executor.tasks ↔
      q ∈ m.executor.tasks ∧ q.1 ∉ batch.map (·.1) := by
  induction batch generalizing m with
  | nil => simp [afterTurns, turnsFor]
  | cons p batch ih =>
    obtain ⟨live, h_kind⟩ := pending.head
    rw [afterTurns_cons, ih (h.sound_afterTurn h_sound live h_kind)
      (h.pending_afterTurn h_sound pending), h.mem_tasks_afterTurn h_sound live h_kind,
      List.map_cons, List.mem_cons, not_or, and_assoc]

/-- Handles of other tasks see nothing of it. -/
theorem getElem?_afterTurns_of_not_mem (h_sound : m.executor.Sound)
    (pending : m.Pending kind batch) {handle : Handle} (h_not : handle ∉ batch.map (·.1)) :
    (m.afterTurns batch).executor.handles[handle]? = m.executor.handles[handle]? := by
  induction batch generalizing m with
  | nil => rfl
  | cons p batch ih =>
    obtain ⟨live, h_kind⟩ := pending.head
    rw [List.map_cons, List.mem_cons, not_or] at h_not
    rw [afterTurns_cons, ih (h.sound_afterTurn h_sound live h_kind)
      (h.pending_afterTurn h_sound pending) h_not.2,
      h.getElem?_afterTurn_of_ne h_sound live h_kind (Ne.symm h_not.1)]

/-- The handles of the tasks have their results, if they waited for them. -/
theorem exists_result_afterTurns (h_sound : m.executor.Sound) (pending : m.Pending kind batch)
    (h_p : p ∈ batch) (h_wait : m.executor.handles[p.1]? = some .waiting) :
    ∃ result, (m.afterTurns batch).executor.handles[p.1]? = some (.resolved result) := by
  induction batch generalizing m with
  | nil => cases h_p
  | cons q batch ih =>
    obtain ⟨live, h_kind⟩ := pending.head
    have h_sound' := h.sound_afterTurn h_sound live h_kind
    have pending' := h.pending_afterTurn h_sound pending
    rw [afterTurns_cons]
    -- the task has its turn now, or later while its handle still waits
    rcases List.mem_cons.mp h_p with rfl | h_p
    · -- the turns of the others leave the result there
      obtain ⟨result, h_result⟩ := h.exists_result_afterTurn h_sound live h_kind h_wait
      have h_not : p.1 ∉ batch.map (·.1) := by
        intro h_mem
        obtain ⟨q, h_q, h_eq⟩ := List.mem_map.mp h_mem
        exact pending.handle_ne h_sound q h_q h_eq
      rw [h.getElem?_afterTurns_of_not_mem h_sound' pending' h_not]
      exact ⟨result, h_result⟩
    · refine ih h_sound' pending' h_p ?_
      rw [h.getElem?_afterTurn_of_ne h_sound live h_kind (pending.handle_ne h_sound p h_p).symm]
      exact h_wait

/-- Swaps of tasks that do not have the same key make no difference. -/
theorem afterTurns_swaps {first second : List (Handle × τ)}
    (swaps : Swaps (Apart fun p : Handle × τ => key p.2) first second) (h_sound : m.executor.Sound)
    (pending : m.Pending kind first) :
    (m.afterTurns first).SameButOrder R (m.afterTurns second) := by
  -- the induction is on the swaps; what is carried along is that the tasks are still there
  induction swaps generalizing m with
  | refl l => exact ⟨h.equivalence.refl _, .refl _⟩
  | cons p rest ih =>
    obtain ⟨live, h_kind⟩ := pending.head
    exact ih (h.sound_afterTurn h_sound live h_kind) (h.pending_afterTurn h_sound pending)
  | @swap p q apart l =>
    obtain ⟨live, h_kind⟩ := pending.head
    have pending' := h.pending_afterTurn h_sound pending
    have h_sound' := h.sound_afterTurn h_sound live h_kind
    obtain ⟨live', h_kind'⟩ := pending'.head
    have h_q : q ∈ q :: l := List.mem_cons_self ..
    have h_comm := h.afterTurn_comm h_sound live h_kind
      (pending.live q (List.mem_cons_of_mem p h_q)) h_kind' (pending.handle_ne h_sound q h_q).symm
      apart
    -- the rest goes the same way
    rw [afterTurns_cons, afterTurns_cons, afterTurns_cons, afterTurns_cons]
    exact h.afterTurns_congr (h.sound_afterTurn h_sound' live' h_kind')
      (h.pending_afterTurn h_sound' pending') h_comm
  | trans left right ih ih' =>
    exact (ih h_sound pending).trans h.equivalence (ih' h_sound (pending.perm left.perm))

/-- Tasks may have their turns in any order in which those that have the same key stay in theirs. -/
theorem afterTurns_reordering [DecidableEq κ] {first second : List (Handle × τ)}
    (reordering : Reordering (fun p : Handle × τ => key p.2) first second)
    (h_sound : m.executor.Sound) (pending : m.Pending kind first) :
    (m.afterTurns first).SameButOrder R (m.afterTurns second) :=
  h.afterTurns_swaps reordering.swaps h_sound pending

end Turns

end Rearrangeable

end Machine

end OperationFeed
