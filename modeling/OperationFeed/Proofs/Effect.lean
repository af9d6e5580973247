import OperationFeed.Trace.Act

/-!
# Effects

The *effect* of an act is its value together with the state it leaves; the events are dropped. Most
properties of the feed are about effects alone, and an effect composes without them:

* `Act.effect` and its `simp` lemmas, one for each way to make an act;
* `Attempt.effect`, with `Attempt.effect_bind` for the one place where a failure ends the attempt;
* `Act.Keeps` and `Attempt.Keeps` say that some part of the state, which is seen through a
  function of it, comes out as it went in. That is so of whatever is put together from parts of
  which it is so;
* `Act.Respects` and `Attempt.Respects` say that states which are related to each other make no
  difference for the value, and are related afterwards. That can be put together in the same way;
* `Act.Commute` says of two acts that their order makes no difference.

The lemmas that hold by definition are stated by `(rfl)`: `simp` then rewrites with them as
propositions, also in the condition of an `if`, whose `Decidable` instance has to change along.
-/

namespace OperationFeed

variable {σ ρ α β γ : Type}

namespace Act

/-- The value of an act and the state it leaves. -/
def effect (a : Act σ α) (s : σ) : α × σ := ((a.run s).value, (a.run s).state)

@[simp] theorem effect_pure (x : α) (s : σ) : (pure x : Act σ α).effect s = (x, s) := (rfl)

@[simp] theorem effect_bind (a : Act σ α) (f : α → Act σ β) (s : σ) :
    (a >>= f).effect s = (f (a.effect s).1).effect (a.effect s).2 := (rfl)

/-- A function of the value changes nothing of the state. This one does not hold by definition: the
events of the two sides are appended in another way. -/
@[simp] theorem effect_map (f : α → β) (a : Act σ α) (s : σ) :
    (f <$> a).effect s = (f (a.effect s).1, (a.effect s).2) := by
  simp [effect]

@[simp] theorem effect_get (s : σ) : (get : Act σ σ).effect s = (s, s) := (rfl)

@[simp] theorem effect_set (s t : σ) : (set t : Act σ PUnit).effect s = (⟨⟩, t) := (rfl)

@[simp] theorem effect_modifyGet (f : σ → α × σ) (s : σ) :
    (modifyGet f : Act σ α).effect s = f s := (rfl)

@[simp] theorem effect_modify (f : σ → σ) (s : σ) :
    (modify f : Act σ PUnit).effect s = (⟨⟩, f s) := (rfl)

@[simp] theorem effect_emit (e : Event) (s : σ) : (emit e : Act σ Unit).effect s = ((), s) := (rfl)

@[simp] theorem effect_within (span : Span) (a : Act σ α) (s : σ) :
    (within span a).effect s = a.effect s := (rfl)

@[simp] theorem effect_onPart (view : ρ → σ) (put : ρ → σ → ρ) (a : Act σ α) (s : ρ) :
    (onPart view put a).effect s = ((a.effect (view s)).1, put s (a.effect (view s)).2) := (rfl)

/-- Which of two acts is taken does not depend on the state, so the effects may be told apart before
they are run. -/
@[simp] theorem effect_ite (c : Prop) [Decidable c] (a b : Act σ α) (s : σ) :
    (if c then a else b).effect s = if c then a.effect s else b.effect s := by
  split <;> rfl

end Act

namespace Attempt

/-- The success or failure of an attempt and the state it leaves. -/
def effect (a : Attempt σ α) (s : σ) : Except FeedError α × σ := a.tryOut.effect s

@[simp] theorem effect_tryOut (a : Attempt σ α) (s : σ) : a.tryOut.effect s = a.effect s := (rfl)

@[simp] theorem effect_pure (x : α) (s : σ) : (pure x : Attempt σ α).effect s = (.ok x, s) := (rfl)

@[simp] theorem effect_throw (e : FeedError) (s : σ) :
    (throw e : Attempt σ α).effect s = (.error e, s) := (rfl)

@[simp] theorem effect_get (s : σ) : (get : Attempt σ σ).effect s = (.ok s, s) := (rfl)

@[simp] theorem effect_set (s t : σ) : (set t : Attempt σ PUnit).effect s = (.ok ⟨⟩, t) := (rfl)

@[simp] theorem effect_modify (f : σ → σ) (s : σ) :
    (modify f : Attempt σ PUnit).effect s = (.ok ⟨⟩, f s) := (rfl)

@[simp] theorem effect_lift (a : Act σ α) (s : σ) :
    (liftM a : Attempt σ α).effect s = (.ok (a.effect s).1, (a.effect s).2) := (rfl)

@[simp] theorem effect_ite (c : Prop) [Decidable c] (a b : Attempt σ α) (s : σ) :
    (if c then a else b).effect s = if c then a.effect s else b.effect s := by
  split <;> rfl

/-- A failure ends the attempt; a success goes on, from the state it left. -/
theorem effect_bind (a : Attempt σ α) (f : α → Attempt σ β) (s : σ) :
    (a >>= f).effect s =
      match a.effect s with
      | (.ok x, t) => (f x).effect t
      | (.error e, t) => (.error e, t) := by
  change (a.tryOut >>= _ : Act σ (Except FeedError β)).effect s = _
  rw [Act.effect_bind]
  simp only [effect_tryOut]
  rcases a.effect s with ⟨_ | _, t⟩ <;> rfl

end Attempt

/-! ### What an act keeps -/

/-- Whatever state the act starts from, it leaves what is seen of it through `view`. -/
def Act.Keeps (view : σ → γ) (a : Act σ α) : Prop := ∀ s, view (a.effect s).2 = view s

/-- The attempt leaves what is seen through `view`, whether it succeeds or fails. -/
def Attempt.Keeps (view : σ → γ) (a : Attempt σ α) : Prop := a.tryOut.Keeps view

namespace Act.Keeps

variable {view : σ → γ} {a : Act σ α} {f : α → Act σ β}

/-- A value leaves the state alone. -/
theorem pure (x : α) : (Pure.pure x : Act σ α).Keeps view := fun _ => rfl

/-- What both parts keep is kept by the one after the other. -/
theorem bind (h : a.Keeps view) (h' : ∀ x, (f x).Keeps view) : (a >>= f).Keeps view := by
  intro s
  calc view ((a >>= f).effect s).2
    _ = view (a.effect s).2 := h' (a.effect s).1 (a.effect s).2
    _ = view s := h s

theorem get : (MonadState.get : Act σ σ).Keeps view := fun _ => rfl

/-- An act that reads the state at its beginning: what it does with the state depends on it. -/
theorem of_get {f : σ → Act σ β} (h : ∀ s, view ((f s).effect s).2 = view s) :
    (MonadState.get >>= f).Keeps view := h

/-- A change of the state has to be looked at itself. -/
theorem of_modify {f : σ → σ} (h : ∀ s, view (f s) = view s) :
    (modify f : Act σ PUnit).Keeps view := h

theorem of_modifyGet {f : σ → α × σ} (h : ∀ s, view (f s).2 = view s) :
    (modifyGet f : Act σ α).Keeps view := h

/-- Whatever is done to a part is not seen from where the part is not. -/
theorem onPart {part : ρ → σ} {put : ρ → σ → ρ} {view : ρ → γ}
    (h : ∀ s t, view (put s t) = view s) : (Act.onPart part put a).Keeps view :=
  fun s => h s _

end Act.Keeps

namespace Attempt.Keeps

variable {view : σ → γ} {a b : Attempt σ α} {f : α → Attempt σ β}

theorem pure (x : α) : (Pure.pure x : Attempt σ α).Keeps view := fun _ => rfl

theorem throw (e : FeedError) : (MonadExcept.throw e : Attempt σ α).Keeps view := fun _ => rfl

/-- An act that cannot fail keeps as an attempt what it keeps as an act. -/
theorem lift {a : Act σ α} (h : a.Keeps view) : (liftM a : Attempt σ α).Keeps view := h

/-- What both parts keep is kept, also if the first part fails and the second one is never run. -/
theorem bind (h : a.Keeps view) (h' : ∀ x, (f x).Keeps view) : (a >>= f).Keeps view := by
  -- a bind of attempts is a bind of acts that looks at the first result
  refine Act.Keeps.bind h ?_
  intro result
  cases result with
  | ok x => exact h' x
  | error e => exact Act.Keeps.pure _

theorem get : (MonadState.get : Attempt σ σ).Keeps view := fun _ => rfl

theorem of_modify {f : σ → σ} (h : ∀ s, view (f s) = view s) :
    (modify f : Attempt σ PUnit).Keeps view := h

theorem ite {c : Prop} [Decidable c] (h : a.Keeps view) (h' : b.Keeps view) :
    (if c then a else b).Keeps view := by
  split
  · exact h
  · exact h'

end Attempt.Keeps

/-! ### What makes no difference to an act -/

/-- From related states the act has the same value, and leaves related states. -/
def Act.Respects (R : σ → σ → Prop) (a : Act σ α) : Prop :=
  ∀ s t, R s t → (a.effect s).1 = (a.effect t).1 ∧ R (a.effect s).2 (a.effect t).2

/-- From related states the attempt succeeds with the same value or fails with the same error, and
leaves related states. -/
def Attempt.Respects (R : σ → σ → Prop) (a : Attempt σ α) : Prop := a.tryOut.Respects R

namespace Act.Respects

variable {R : σ → σ → Prop} {a b : Act σ α} {f : α → Act σ β}

theorem pure (x : α) : (Pure.pure x : Act σ α).Respects R := fun _ _ h => ⟨rfl, h⟩

/-- The first part gives both runs one value, so they go on with the same second part. -/
theorem bind (h : a.Respects R) (h' : ∀ x, (f x).Respects R) : (a >>= f).Respects R := by
  intro s t h_rel
  obtain ⟨h_value, h_rel'⟩ := h s t h_rel
  -- from here on both runs are those of one act, from related states
  rw [effect_bind, effect_bind, ← h_value]
  exact h' _ _ _ h_rel'

/-- An act that reads the state at its beginning, and goes on alike from related states. -/
theorem of_get {f : σ → Act σ β} (h : ∀ s, (f s).Respects R) (h_alike : ∀ s t, R s t → f s = f t) :
    (get >>= f).Respects R := by
  intro s t h_rel
  rw [effect_bind, effect_bind, effect_get, effect_get, ← h_alike s t h_rel]
  exact h s s t h_rel

theorem of_modify {f : σ → σ} (h : ∀ s t, R s t → R (f s) (f t)) :
    (modify f : Act σ PUnit).Respects R := fun s t h_rel => ⟨rfl, h s t h_rel⟩

theorem of_modifyGet {f : σ → α × σ} (h : ∀ s t, R s t → (f s).1 = (f t).1 ∧ R (f s).2 (f t).2) :
    (modifyGet f : Act σ α).Respects R := h

theorem emit (e : Event) : (Act.emit e : Act σ Unit).Respects R := fun _ _ h => ⟨rfl, h⟩

/-- Both branches have to respect the relation, since the condition is no matter of the states. -/
theorem ite {c : Prop} [Decidable c] (h : a.Respects R) (h' : b.Respects R) :
    (if c then a else b).Respects R := by
  split
  · exact h
  · exact h'

/-- An act on a part respects whatever relation between the wholes relates the parts, and is kept
when related parts are put back. -/
theorem onPart {S : ρ → ρ → Prop} {view : ρ → σ} {put : ρ → σ → ρ} (h : a.Respects R)
    (h_view : ∀ s t, S s t → R (view s) (view t))
    (h_put : ∀ s t, S s t → ∀ x y, R x y → S (put s x) (put t y)) :
    (Act.onPart view put a).Respects S := by
  intro s t h_rel
  obtain ⟨h_value, h_rel'⟩ := h _ _ (h_view s t h_rel)
  exact ⟨h_value, h_put s t h_rel _ _ h_rel'⟩

end Act.Respects

namespace Attempt.Respects

variable {R : σ → σ → Prop} {a b : Attempt σ α} {f : α → Attempt σ β}

theorem pure (x : α) : (Pure.pure x : Attempt σ α).Respects R := fun _ _ h => ⟨rfl, h⟩

theorem throw (e : FeedError) : (MonadExcept.throw e : Attempt σ α).Respects R :=
  fun _ _ h => ⟨rfl, h⟩

/-- An act that cannot fail respects as an attempt what it respects as an act. -/
theorem lift {a : Act σ α} (h : a.Respects R) : (liftM a : Attempt σ α).Respects R := by
  intro s t h_rel
  obtain ⟨h_value, h_rel'⟩ := h s t h_rel
  exact ⟨congrArg Except.ok h_value, h_rel'⟩

/-- From related states the first part fails in both runs, with one error, or succeeds in both. -/
theorem bind (h : a.Respects R) (h' : ∀ x, (f x).Respects R) : (a >>= f).Respects R := by
  refine Act.Respects.bind h ?_
  intro result
  cases result with
  | ok x => exact h' x
  | error e => exact Act.Respects.pure _

/-- An attempt that reads the state at its beginning, and goes on alike from related states. -/
theorem of_get {f : σ → Attempt σ β} (h : ∀ s, (f s).Respects R)
    (h_alike : ∀ s t, R s t → f s = f t) : (get >>= f).Respects R := by
  intro s t h_rel
  have h_effect := h s s t h_rel
  rw [effect_tryOut, effect_tryOut] at h_effect ⊢
  -- reading succeeds, so the second part is run, and in both runs it is the same one
  rw [effect_bind, effect_bind, effect_get, effect_get]
  dsimp only
  rwa [← h_alike s t h_rel]

theorem ite {c : Prop} [Decidable c] (h : a.Respects R) (h' : b.Respects R) :
    (if c then a else b).Respects R := by
  split
  · exact h
  · exact h'

end Attempt.Respects

/-! ### Acts in either order -/

/-- In either order the two acts have the same values, and leave related states. -/
structure Act.Commute (R : σ → σ → Prop) (a : Act σ α) (b : Act σ β) : Prop where
  left (s : σ) : (a.effect (b.effect s).2).1 = (a.effect s).1
  right (s : σ) : (b.effect (a.effect s).2).1 = (b.effect s).1
  states (s : σ) : R (b.effect (a.effect s).2).2 (a.effect (b.effect s).2).2

theorem Act.Commute.symm {R : σ → σ → Prop} {a : Act σ α} {b : Act σ β} (h : a.Commute R b)
    (h_symm : ∀ {s t : σ}, R s t → R t s) : b.Commute R a :=
  ⟨h.right, h.left, fun s => h_symm (h.states s)⟩

end OperationFeed
