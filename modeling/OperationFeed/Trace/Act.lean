import OperationFeed.Trace.Event
import OperationFeed.Error

/-!
# Acts

An *act* on a state is a computation that reads and changes the state, gives a value, and tells what
it does through events. Acts on a part of a state are acts on the whole (`Act.onPart`).

An *attempt* is an act that may fail. What a failed attempt changed before it failed stays changed,
and what it told stays told.
-/

namespace OperationFeed

/-- What an act leads to. -/
structure Outcome (σ α : Type) where
  value : α
  state : σ
  /-- What it told, in order. -/
  events : List Event

/-- A computation that reads and changes a state and emits events. -/
def Act (σ α : Type) : Type := σ → Outcome σ α

namespace Act

variable {σ ρ α β : Type}

/-- What an act leads to from a state. -/
def run (a : Act σ α) (s : σ) : Outcome σ α := a s

instance : Monad (Act σ) where
  pure x := fun s => ⟨x, s, []⟩
  bind a f := fun s =>
    let first := a s
    let second := f first.value first.state
    ⟨second.value, second.state, first.events ++ second.events⟩

instance : MonadStateOf σ (Act σ) where
  get := fun s => ⟨s, s, []⟩
  set s := fun _ => ⟨⟨⟩, s, []⟩
  modifyGet f := fun s => ⟨(f s).1, (f s).2, []⟩

/-- Tell of an event. -/
def emit (e : Event) : Act σ Unit := fun s => ⟨(), s, [e]⟩

/-- Do something inside a span: all that it tells is told within the span. -/
def within (span : Span) (a : Act σ α) : Act σ α := fun s =>
  let out := a s
  ⟨out.value, out.state, out.events.map (Event.within span)⟩

/-- Act on a part of a state, which is read by `view` and written back by `put`. -/
def onPart (view : ρ → σ) (put : ρ → σ → ρ) (a : Act σ α) : Act ρ α := fun s =>
  let out := a (view s)
  ⟨out.value, put s out.state, out.events⟩

/-! ### What each act leads to -/

@[simp] theorem run_pure (x : α) (s : σ) : (pure x : Act σ α).run s = ⟨x, s, []⟩ := rfl

@[simp] theorem run_bind (a : Act σ α) (f : α → Act σ β) (s : σ) :
    (a >>= f).run s =
      ⟨((f (a.run s).value).run (a.run s).state).value,
        ((f (a.run s).value).run (a.run s).state).state,
        (a.run s).events ++ ((f (a.run s).value).run (a.run s).state).events⟩ := rfl

@[simp] theorem run_get (s : σ) : (get : Act σ σ).run s = ⟨s, s, []⟩ := rfl

@[simp] theorem run_set (s t : σ) : (set t : Act σ PUnit).run s = ⟨⟨⟩, t, []⟩ := rfl

@[simp] theorem run_modifyGet (f : σ → α × σ) (s : σ) :
    (modifyGet f : Act σ α).run s = ⟨(f s).1, (f s).2, []⟩ := rfl

@[simp] theorem run_modify (f : σ → σ) (s : σ) :
    (modify f : Act σ PUnit).run s = ⟨⟨⟩, f s, []⟩ := rfl

@[simp] theorem run_emit (e : Event) (s : σ) : (emit e : Act σ Unit).run s = ⟨(), s, [e]⟩ := rfl

@[simp] theorem run_within (span : Span) (a : Act σ α) (s : σ) :
    (within span a).run s =
      ⟨(a.run s).value, (a.run s).state, (a.run s).events.map (Event.within span)⟩ := rfl

@[simp] theorem run_onPart (view : ρ → σ) (put : ρ → σ → ρ) (a : Act σ α) (s : ρ) :
    (onPart view put a).run s =
      ⟨(a.run (view s)).value, put s (a.run (view s)).state, (a.run (view s)).events⟩ := rfl

/-- Acts that lead to the same from every state are the same. -/
@[ext] theorem ext {a b : Act σ α} (h : ∀ s, a.run s = b.run s) : a = b := funext h

instance : LawfulMonad (Act σ) :=
  LawfulMonad.mk' (Act σ)
    (fun a => funext fun s => by
      change Outcome.mk (a s).value (a s).state ((a s).events ++ []) = a s
      rw [List.append_nil])
    (fun _ _ => rfl)
    (fun a f g => by ext s; simp [List.append_assoc])

@[simp] theorem run_map (f : α → β) (a : Act σ α) (s : σ) :
    (f <$> a).run s = ⟨f (a.run s).value, (a.run s).state, (a.run s).events⟩ := by
  rw [map_eq_pure_bind]
  simp only [run_bind, run_pure, List.append_nil]

end Act

/-- An act that may fail. -/
structure Attempt (σ α : Type) where
  /-- The act that gives success or failure as a value. -/
  tryOut : Act σ (Except FeedError α)

namespace Attempt

variable {σ α β : Type}

/-- What an attempt leads to from a state. -/
def run (a : Attempt σ α) (s : σ) : Outcome σ (Except FeedError α) := a.tryOut.run s

instance : Monad (Attempt σ) where
  pure x := ⟨pure (.ok x)⟩
  bind a f := ⟨do
    match ← a.tryOut with
    | .ok x => (f x).tryOut
    | .error e => return .error e⟩

instance : MonadExceptOf FeedError (Attempt σ) where
  throw e := ⟨pure (.error e)⟩
  tryCatch a f := ⟨do
    match ← a.tryOut with
    | .ok x => return .ok x
    | .error e => (f e).tryOut⟩

instance : MonadLift (Act σ) (Attempt σ) where
  monadLift a := ⟨do return .ok (← a)⟩

instance : MonadStateOf σ (Attempt σ) where
  get := ⟨fun s => ⟨.ok s, s, []⟩⟩
  set s := ⟨fun _ => ⟨.ok ⟨⟩, s, []⟩⟩
  modifyGet f := ⟨fun s => ⟨.ok (f s).1, (f s).2, []⟩⟩

/-! ### What each attempt leads to -/

@[simp] theorem run_tryOut (a : Attempt σ α) (s : σ) : a.tryOut.run s = a.run s := rfl

@[simp] theorem run_mk (a : Act σ (Except FeedError α)) (s : σ) :
    (Attempt.mk a).run s = a.run s := rfl

@[simp] theorem run_pure (x : α) (s : σ) : (pure x : Attempt σ α).run s = ⟨.ok x, s, []⟩ := rfl

@[simp] theorem run_throw (e : FeedError) (s : σ) :
    (throw e : Attempt σ α).run s = ⟨.error e, s, []⟩ := rfl

@[simp] theorem run_get (s : σ) : (get : Attempt σ σ).run s = ⟨.ok s, s, []⟩ := rfl

@[simp] theorem run_set (s t : σ) : (set t : Attempt σ PUnit).run s = ⟨.ok ⟨⟩, t, []⟩ := rfl

@[simp] theorem run_modify (f : σ → σ) (s : σ) :
    (modify f : Attempt σ PUnit).run s = ⟨.ok ⟨⟩, f s, []⟩ := rfl

@[simp] theorem run_lift (a : Act σ α) (s : σ) :
    (liftM a : Attempt σ α).run s = ⟨.ok (a.run s).value, (a.run s).state, (a.run s).events⟩ := by
  change (do return Except.ok (← a) : Act σ (Except FeedError α)).run s = _
  simp

/-- A failure ends the attempt; a success goes on, from the state it left. -/
theorem run_bind (a : Attempt σ α) (f : α → Attempt σ β) (s : σ) :
    (a >>= f).run s =
      match (a.run s).value with
      | .error e => ⟨.error e, (a.run s).state, (a.run s).events⟩
      | .ok x =>
        ⟨((f x).run (a.run s).state).value, ((f x).run (a.run s).state).state,
          (a.run s).events ++ ((f x).run (a.run s).state).events⟩ := by
  change (a.tryOut >>= _ : Act σ (Except FeedError β)).run s = _
  rw [Act.run_bind, run_tryOut]
  cases h : (a.run s).value with
  | error e => simp [h]
  | ok x => simp [h]

end Attempt

end OperationFeed
