import OperationFeed.Proofs.Feed.Core

/-!
# Faults

A call of the feed comes through its fault points one after another, and whether an injector strikes
there depends on how often the injector was called before, from wherever.

* `InjectorBank.get?_check` and `Feed.get?_counted` say what one call at a point leaves of every
  injector, and `Feed.get?_through` what the calls at a list of points leave;
* `Feed.strike_eq` says when there is a strike, and with what;
* `Feed.Spares` says that nothing strikes on the way through a list of points, and then no injector
  counts a strike (`Feed.Spares.injected_eq`);
* `Feed.InjectsOnly` says that whatever strikes is an injected failure.
-/

namespace OperationFeed

/-! ### Injectors -/

namespace Injector

variable (i : Injector)

/-- A call leaves the error of an injector as it is. -/
@[simp] theorem error_check : i.check.2.error = i.error := by
  unfold check
  dsimp only
  split <;> rfl

/-- An injector strikes with its error. -/
theorem eq_error_of_check {i : Injector} {e : FeedError} (h : i.check.1 = some e) :
    i.error = e := by
  unfold check at h
  dsimp only at h
  split at h
  · exact Option.some.inj h
  · cases h

/-- A call that does not strike is not counted as one that does. -/
theorem injected_check_of_none {i : Injector} (h : i.check.1 = none) :
    i.check.2.injected = i.injected := by
  unfold check at h ⊢
  dsimp only at h ⊢
  split at h
  · cases h
  · next h_not => rw [if_neg h_not]

/-- The injector once it has been called some more times. -/
def called (i : Injector) : (times : Nat) → Injector
  | 0 => i
  | times + 1 => (i.called times).check.2

@[simp] theorem called_zero : i.called 0 = i := rfl

/-- However often it is called, an injector keeps its error. -/
@[simp] theorem error_called (times : Nat) : (i.called times).error = i.error := by
  induction times with
  | zero => rfl
  | succ times ih => rw [called, error_check, ih]

/-- The first call may be taken apart from the others, and not only the last. -/
theorem called_succ (times : Nat) : i.called (times + 1) = i.check.2.called times := by
  induction times with
  | zero => rfl
  | succ times ih => rw [called, ih, called]

end Injector

namespace InjectorBank

/-- A call changes the injector that is called, and no other. -/
theorem get?_check (bank : InjectorBank) (id other : InjectorId) :
    (bank.check id).2.get? other =
      if id = other then (bank.get? other).map (fun i => i.check.2) else bank.get? other := by
  -- an injector that is not there is not called, so nothing changes
  cases h_get : bank.get? id with
  | none =>
    rw [check, h_get]
    dsimp only
    split
    · next h_eq => rw [← h_eq, h_get, Option.map_none]
    · rfl
  | some i =>
    have h_lt : id.index < bank.injectors.length := (List.getElem?_eq_some_iff.mp h_get).1
    rw [check, h_get]
    dsimp only [get?]
    rw [List.getElem?_set]
    -- the injectors have their place in a list, so the place is what tells them apart
    by_cases h_eq : id = other
    · subst h_eq
      change bank.injectors[id.index]? = some i at h_get
      rw [if_pos rfl, if_pos h_lt, if_pos rfl, h_get, Option.map_some]
    · have h_ne : ¬ id.index = other.index := fun h => h_eq (congrArg InjectorId.mk h)
      rw [if_neg h_ne, if_neg h_eq]

/-- A call strikes if the injector is there and strikes. -/
theorem check_eq (bank : InjectorBank) (id : InjectorId) :
    (bank.check id).1 = (bank.get? id).bind fun i => i.check.1 := by
  rw [check]
  cases bank.get? id <;> rfl

end InjectorBank

namespace Feed

/-! ### One fault point -/

/-- The injector that is installed at a point. -/
def injectorAt? (feed : Feed) (point : FaultPoint) : Option Injector :=
  (feed.faults.get? point).bind feed.injectors.get?

/-- A fault point without an injector does nothing; one with an injector calls it. -/
theorem checkFault_eq (feed : Feed) (point : FaultPoint) :
    (checkFault point).effect feed =
      match feed.faults.get? point with
      | none => (none, feed)
      | some id =>
        ((feed.injectors.check id).1, { feed with injectors := (feed.injectors.check id).2 }) := by
  rw [checkFault, Act.effect_bind, Act.effect_get, Act.effect_onPart, FaultPoints.check]
  cases feed.faults.get? point with
  | none => rfl
  | some id =>
    simp only [Act.effect_bind, Act.effect_modifyGet]
    -- whether it strikes decides on the event, not on the injectors that are left
    cases (feed.injectors.check id).1 <;> rfl

variable {feed : Feed} {point : FaultPoint} {points : List FaultPoint} {e : FeedError}

/-- The injector at the point is asked, if there is one. -/
theorem strike_eq (feed : Feed) (point : FaultPoint) :
    feed.strike point = (feed.injectorAt? point).bind fun i => i.check.1 := by
  rw [strike, checkFault_eq, injectorAt?]
  cases feed.faults.get? point with
  | none => rfl
  | some id => exact feed.injectors.check_eq id

/-- A call at a point counts for the injector that is installed there. -/
theorem get?_counted (feed : Feed) (point : FaultPoint) (id : InjectorId) :
    (feed.counted point).injectors.get? id =
      if feed.faults.get? point = some id then (feed.injectors.get? id).map (fun i => i.check.2)
      else feed.injectors.get? id := by
  rw [counted, checkFault_eq]
  cases feed.faults.get? point with
  | none => simp
  -- a point has one injector, so the call counts for that one alone
  | some other => simp only [InjectorBank.get?_check, Option.some.injEq]

/-- Counting a call at a point leaves the injectors installed where they were. -/
@[simp] theorem faults_counted (feed : Feed) (point : FaultPoint) :
    (feed.counted point).faults = feed.faults := rfl

/-! ### A list of fault points -/

/-- The feed once a call has come through some fault points. -/
def through (feed : Feed) (points : List FaultPoint) : Feed := points.foldl counted feed

@[simp] theorem through_nil (feed : Feed) : feed.through [] = feed := rfl

@[simp] theorem through_cons (feed : Feed) (point : FaultPoint) (points : List FaultPoint) :
    feed.through (point :: points) = (feed.counted point).through points := rfl

/-- Only the injectors have changed. -/
theorem through_eq (feed : Feed) (points : List FaultPoint) :
    feed.through points = { feed with injectors := (feed.through points).injectors } := by
  induction points generalizing feed with
  | nil => rfl
  | cons point points ih =>
    calc feed.through (point :: points)
      _ = { feed.counted point with
            injectors := ((feed.counted point).through points).injectors } := ih _
      _ = { feed with injectors := (feed.through (point :: points)).injectors } := rfl

/-- Coming through fault points leaves the injectors installed where they were. -/
@[simp] theorem faults_through (feed : Feed) (points : List FaultPoint) :
    (feed.through points).faults = feed.faults := by
  rw [through_eq]

/-- The last fault point may be taken apart from those before it. -/
theorem through_concat (feed : Feed) (points : List FaultPoint) (point : FaultPoint) :
    feed.through (points ++ [point]) = (feed.through points).counted point :=
  List.foldl_append

/-- Each injector was called once for every point at which it is installed. -/
theorem get?_through (feed : Feed) (points : List FaultPoint) (id : InjectorId) :
    (feed.through points).injectors.get? id = (feed.injectors.get? id).map fun i =>
      i.called (points.countP fun point => feed.faults.get? point = some id) := by
  induction points generalizing feed with
  | nil => simp
  | cons point points ih =>
    rw [through_cons, ih, get?_counted, faults_counted, List.countP_cons]
    -- the first point adds one call, made before those of the points that follow
    by_cases h_here : feed.faults.get? point = some id
    · rw [if_pos h_here, Option.map_map, decide_eq_true h_here, if_pos rfl]
      congr 1
      funext i
      exact (i.called_succ _).symm
    · rw [if_neg h_here, decide_eq_false h_here, if_neg Bool.false_ne_true, Nat.add_zero]

/-- Nothing strikes on the way through some fault points. -/
def Spares (feed : Feed) : List FaultPoint → Prop
  | [] => True
  | point :: points => feed.strike point = none ∧ (feed.counted point).Spares points

/-- A call that is spared is not counted as a strike, by the injector of the point or another one.
-/
theorem injected_counted_of_none (h : feed.strike point = none) {id : InjectorId} {i i' : Injector}
    (h_get : feed.injectors.get? id = some i)
    (h_get' : (feed.counted point).injectors.get? id = some i') : i'.injected = i.injected := by
  rw [get?_counted, h_get] at h_get'
  split at h_get'
  · next h_here =>
    rw [Option.map_some, Option.some.injEq] at h_get'
    rw [← h_get']
    apply Injector.injected_check_of_none
    -- the point was spared, so its injector has not struck
    rwa [strike_eq, injectorAt?, h_here, Option.bind_some, h_get, Option.bind_some] at h
  · rw [Option.some.inj h_get']

/-- Where nothing strikes, no injector counts a strike. -/
theorem Spares.injected_eq (h : feed.Spares points) {id : InjectorId} {i i' : Injector}
    (h_get : feed.injectors.get? id = some i)
    (h_get' : (feed.through points).injectors.get? id = some i') : i'.injected = i.injected := by
  induction points generalizing feed i with
  | nil =>
    rw [through_nil, h_get] at h_get'
    rw [Option.some.inj h_get']
  | cons point points ih =>
    obtain ⟨h_point, h_points⟩ := h
    -- the injector after the first point, to which the induction applies
    obtain ⟨j, h_j⟩ : ∃ j, (feed.counted point).injectors.get? id = some j := by
      rw [get?_counted, h_get]
      split
      · exact ⟨_, rfl⟩
      · exact ⟨_, rfl⟩
    calc i'.injected
      _ = j.injected := ih h_points h_j h_get'
      _ = i.injected := injected_counted_of_none h_point h_get h_j

/-- Nothing strikes at some fault points, and then there is a strike at another one. -/
structure StrikesAfter (feed : Feed) (before : List FaultPoint) (point : FaultPoint)
    (e : FeedError) : Prop where
  spares : feed.Spares before
  strikes : (feed.through before).strike point = some e

/-- The injector that counts a strike is the one that has struck. -/
theorem StrikesAfter.installed {before : List FaultPoint} (h : feed.StrikesAfter before point e)
    {id : InjectorId} {i i' : Injector} (h_get : feed.injectors.get? id = some i)
    (h_get' : (feed.through (before ++ [point])).injectors.get? id = some i')
    (h_ne : i'.injected ≠ i.injected) : feed.faults.get? point = some id ∧ e = i.error := by
  -- the injector has its calls up to the point, and its error still
  have h_before : (feed.through before).injectors.get? id =
      some (i.called (before.countP fun point => feed.faults.get? point = some id)) := by
    rw [get?_through, h_get, Option.map_some]
  rw [through_concat, get?_counted, faults_through, h_before] at h_get'
  split at h_get'
  · next h_here =>
    have strikes := h.strikes
    rw [strike_eq, injectorAt?, faults_through, h_here, Option.bind_some, h_before,
      Option.bind_some] at strikes
    rw [← Injector.eq_error_of_check strikes, Injector.error_called]
    exact ⟨h_here, rfl⟩
  -- an injector installed elsewhere was spared all along
  · rw [← Option.some.inj h_get'] at h_ne
    exact absurd (h.spares.injected_eq h_get h_before) h_ne

/-! ### Injected failures -/

/-- Every installed injector produces injected failures. -/
def InjectsOnly (feed : Feed) : Prop :=
  ∀ point i, feed.injectorAt? point = some i → ∃ reason, i.error = .injected reason

/-- Whatever strikes is an injected failure then. -/
theorem InjectsOnly.strike (h : feed.InjectsOnly) (h_strike : feed.strike point = some e) :
    ∃ reason, e = .injected reason := by
  rw [strike_eq, Option.bind_eq_some_iff] at h_strike
  obtain ⟨i, h_at, h_check⟩ := h_strike
  rw [← Injector.eq_error_of_check h_check]
  exact h point i h_at

/-- It is enough that all injectors do, installed or not. -/
theorem InjectsOnly.of_injectors
    (h : ∀ i ∈ feed.injectors.injectors, ∃ reason, i.error = .injected reason) :
    feed.InjectsOnly := by
  intro point i h_at
  obtain ⟨id, -, h_get⟩ := Option.bind_eq_some_iff.mp h_at
  exact h i (List.mem_of_getElem? h_get)

/-- Counting a call changes no error. -/
theorem InjectsOnly.counted (h : feed.InjectsOnly) (point : FaultPoint) :
    (feed.counted point).InjectsOnly := by
  intro other i h_at
  obtain ⟨id, h_id, h_get⟩ := Option.bind_eq_some_iff.mp h_at
  rw [get?_counted] at h_get
  split at h_get
  · obtain ⟨j, h_j, rfl⟩ := Option.map_eq_some_iff.mp h_get
    rw [Injector.error_check]
    exact h other j (Option.bind_eq_some_iff.mpr ⟨id, h_id, h_j⟩)
  · exact h other i (Option.bind_eq_some_iff.mpr ⟨id, h_id, h_get⟩)

/-- Calls at fault points change no error. -/
theorem InjectsOnly.through (h : feed.InjectsOnly) (points : List FaultPoint) :
    (feed.through points).InjectsOnly := by
  induction points generalizing feed with
  | nil => exact h
  | cons point points ih => exact ih (h.counted point)

end Feed

end OperationFeed
