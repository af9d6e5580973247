import OperationFeed.Proofs.Attribute.Lifecycle

/-!
# Lists of deltas, one after another

Deltas are applied from left to right, so the last one that names an attribute decides about it
(`lastChange?`), and an attribute that none of them names keeps its value:
`AttributeMap.get?_applyAll`. Hence lists that end alike for every attribute make the same of any
attributes (`AttributeMap.applyAll_congr`).

A list may also be cut in two and applied in two calls. Attributes that are open to change come to
the same then, and so do sealed and deleted ones although they may refuse only one of the parts:
joined lists are refused like the first part that is (`SegmentChange.refusal?_append`).

`AttributeStore.composition` is the whole account.
-/

namespace OperationFeed

/-! ### The last change of an attribute -/

/-- The change that the last of some deltas makes to an attribute, if one of them names it. -/
def lastChange? (deltas : List AttributeDelta) (id : AttributeId) : Option AttributeChange :=
  ((deltas.filter (fun delta => delta.id = id)).getLast?).map (·.change)

/-- The value that an attribute has after deltas, if it had the previous one before. -/
def valueAfter (deltas : List AttributeDelta) (id : AttributeId) (previous : Option Int64) :
    Option Int64 :=
  match lastChange? deltas id with
  | some (.upsert value) => some value
  | some .delete => none
  | none => previous

section LastChange

variable {deltas deltas' : List AttributeDelta} {delta : AttributeDelta} {id : AttributeId}

/-- A single delta names one attribute. -/
theorem lastChange?_singleton :
    lastChange? [delta] id = if delta.id = id then some delta.change else none := by
  by_cases h_id : delta.id = id
  · simp [lastChange?, h_id]
  · simp [lastChange?, h_id]

/-- The later part of a list decides, if it names the attribute at all. -/
theorem lastChange?_append (first second : List AttributeDelta) (id : AttributeId) :
    lastChange? (first ++ second) id = (lastChange? second id).or (lastChange? first id) := by
  rw [lastChange?, List.filter_append, List.getLast?_append, Option.map_or]
  rfl

/-- Later deltas start from the values that the earlier ones have left. -/
theorem valueAfter_append (first second : List AttributeDelta) (id : AttributeId)
    (previous : Option Int64) : valueAfter (first ++ second) id previous =
      valueAfter second id (valueAfter first id previous) := by
  rw [valueAfter, lastChange?_append, valueAfter]
  cases lastChange? second id with
  | none => rfl
  | some change => cases change <;> rfl

/-- No change is the last one exactly if no delta names the attribute. -/
theorem lastChange?_eq_none_iff :
    lastChange? deltas id = none ↔ ∀ delta ∈ deltas, delta.id ≠ id := by
  rw [lastChange?, Option.map_eq_none_iff, List.getLast?_eq_none_iff, List.filter_eq_nil_iff]
  simp only [decide_eq_true_iff]

/-- A list without deltas ends like no other one. -/
theorem eq_nil_of_lastChange? (h : ∀ id, lastChange? deltas id = none) : deltas = [] :=
  List.eq_nil_iff_forall_not_mem.mpr fun delta h_mem =>
    lastChange?_eq_none_iff.mp (h delta.id) delta h_mem rfl

/-- Lists that end alike are empty together. This is what sealed attributes ask of a list. -/
theorem eq_nil_iff_of_lastChange? (h : ∀ id, lastChange? deltas id = lastChange? deltas' id) :
    deltas = [] ↔ deltas' = [] := by
  constructor
  · rintro rfl
    exact eq_nil_of_lastChange? fun id => (h id).symm
  · rintro rfl
    exact eq_nil_of_lastChange? h

end LastChange

/-! ### Attributes that are open to change -/

namespace AttributeMap

variable {deltas deltas' : List AttributeDelta}

/-- One delta decides about the attribute that it names. -/
theorem get?_applyDelta (m : AttributeMap) (delta : AttributeDelta) (id : AttributeId) :
    (m.applyDelta delta).get? id = valueAfter [delta] id (m.get? id) := by
  rw [valueAfter, lastChange?_singleton, applyDelta]
  by_cases h_id : delta.id = id
  · rw [if_pos h_id]
    cases delta.change with
    | upsert value => exact (Table.get?_insert ..).trans (if_pos (congrArg rank h_id))
    | delete => exact (Table.get?_erase ..).trans (if_pos (congrArg rank h_id).symm)
  · rw [if_neg h_id]
    have h_rank : rank delta.id ≠ rank id := fun h_rank => h_id (rank_inj.mp h_rank)
    cases delta.change with
    | upsert value => exact (Table.get?_insert ..).trans (if_neg h_rank)
    | delete => exact (Table.get?_erase ..).trans (if_neg h_rank.symm)

/-- The last delta that names an attribute decides about it. -/
theorem get?_applyAll (m : AttributeMap) (deltas : List AttributeDelta) (id : AttributeId) :
    (m.applyAll deltas).get? id = valueAfter deltas id (m.get? id) := by
  induction deltas generalizing m with
  | nil => rfl
  | cons delta deltas ih =>
    calc (m.applyAll (delta :: deltas)).get? id
        = ((m.applyDelta delta).applyAll deltas).get? id := rfl
      _ = valueAfter deltas id (valueAfter [delta] id (m.get? id)) := by rw [ih, get?_applyDelta]
      _ = valueAfter (delta :: deltas) id (m.get? id) := (valueAfter_append [delta] ..).symm

/-- Deltas are applied from left to right. -/
theorem applyAll_append (m : AttributeMap) (first second : List AttributeDelta) :
    m.applyAll (first ++ second) = (m.applyAll first).applyAll second :=
  List.foldl_append

/-- Deltas that end alike for every attribute make the same of any attributes. -/
theorem applyAll_congr (h : ∀ id, lastChange? deltas id = lastChange? deltas' id)
    (m : AttributeMap) : m.applyAll deltas = m.applyAll deltas' := by
  -- attributes are known by their values, and each value by the last change
  apply Table.ext_get?
  intro id
  rw [get?_applyAll, get?_applyAll, valueAfter, valueAfter, h id]

end AttributeMap

/-! ### One state after another -/

namespace SegmentChange

variable {segment : SegmentId}

/-- Joined lists make of a state what the parts make of it one after the other. -/
theorem revised_append (first second : List AttributeDelta) (state? : Option AttributeState) :
    (apply (first ++ second)).revised state? =
      (apply second).revised (some ((apply first).revised state?)) := by
  -- absent attributes are live after the first part, so both start from none
  rcases state? with _ | state
  · exact congrArg AttributeState.live (AttributeMap.applyAll_append ..)
  · cases state with
    | live attributes => exact congrArg AttributeState.live (AttributeMap.applyAll_append ..)
    | «sealed» attributes => rfl
    | tombstoned => rfl

/-- Joined lists are refused like the first part that is refused. -/
theorem refusal?_append (first second : List AttributeDelta) (state? : Option AttributeState) :
    (apply (first ++ second)).refusal? segment state? =
      ((apply first).refusal? segment state?).or
        ((apply second).refusal? segment (some ((apply first).revised state?))) := by
  rcases state? with _ | state
  · rfl
  · cases state with
    | live attributes => rfl
    | «sealed» attributes =>
      -- no deltas at the front: everything hangs on those that follow
      cases first with
      | nil => rfl
      | cons delta first => rfl
    | tombstoned => rfl

end SegmentChange

/-! ### Stores -/

namespace AttributeStore

variable {store : AttributeStore} {segment : SegmentId} {deltas deltas' : List AttributeDelta}

/-- The store that deltas leave, whether they are accepted or refused. -/
def applied (store : AttributeStore) (segment : SegmentId) (deltas : List AttributeDelta) :
    AttributeStore :=
  ((SegmentChange.apply deltas).perform store segment).2

/-- Deltas are accepted for a segment. -/
def Accepts (store : AttributeStore) (segment : SegmentId) (deltas : List AttributeDelta) : Prop :=
  ∃ store', store.apply segment deltas = .ok store'

/-- Deltas leave the store with the segment's state revised. -/
theorem applied_eq (store : AttributeStore) (segment : SegmentId) (deltas : List AttributeDelta) :
    store.applied segment deltas =
      store.put segment ((SegmentChange.apply deltas).revised (store.state? segment)) := by
  rw [applied, SegmentChange.perform_eq]

theorem state?_applied (store : AttributeStore) (segment : SegmentId)
    (deltas : List AttributeDelta) : (store.applied segment deltas).state? segment =
      some ((SegmentChange.apply deltas).revised (store.state? segment)) := by
  rw [applied_eq, state?_put_self]

/-- What becomes of deltas is told by their refusal and the store that they leave. -/
theorem apply_eq (store : AttributeStore) (segment : SegmentId) (deltas : List AttributeDelta) :
    store.apply segment deltas =
      match (SegmentChange.apply deltas).refusal? segment (store.state? segment) with
      | some e => .error e
      | none => .ok (store.applied segment deltas) := by
  have h_refusal := congrArg Prod.fst ((SegmentChange.apply deltas).perform_eq store segment)
  -- the refusal is the first half of what is said of every change
  change _ = (SegmentChange.apply deltas).refusal? segment (store.state? segment) at h_refusal
  rw [← h_refusal, applied, SegmentChange.perform]
  cases store.apply segment deltas with
  | error e => rfl
  | ok store' => rfl

/-- Deltas are accepted unless the segment's state refuses them. -/
theorem accepts_iff : store.Accepts segment deltas ↔
    (SegmentChange.apply deltas).refusal? segment (store.state? segment) = none := by
  rw [Accepts, apply_eq]
  cases (SegmentChange.apply deltas).refusal? segment (store.state? segment) with
  | none => exact iff_of_true ⟨_, rfl⟩ rfl
  | some e => exact iff_of_false (by rintro ⟨store', ⟨⟩⟩) (by rintro ⟨⟩)

/-- How lists of deltas that are applied to a segment go together: `store` is any store, and the
segment may be absent, live, sealed or deleted in it. -/
structure Composition (store : AttributeStore) (segment : SegmentId) : Prop where
  /-- A list that is cut in two leaves the same store if the parts are applied one after the other,
  the second one even if the first was refused. -/
  append : ∀ first second, store.applied segment (first ++ second) =
    (store.applied segment first).applied segment second
  /-- It is accepted exactly if both parts are. -/
  accepts_append : ∀ first second, store.Accepts segment (first ++ second) ↔
    store.Accepts segment first ∧ (store.applied segment first).Accepts segment second
  /-- Its answer is the answer to the second part, unless the first part is refused. -/
  apply_append : ∀ first second, store.apply segment (first ++ second) =
    store.apply segment first >>= fun store' => store'.apply segment second
  /-- On absent or live attributes all deltas are accepted; afterwards the attributes are live, and
  each has the value that the last delta for it gives, none if it is deleted there, and the value
  that it had if no delta names it. -/
  value : store.stage segment = .absent ∨ store.stage segment = .live → ∀ deltas,
    store.apply segment deltas = .ok (store.applied segment deltas) ∧
      (store.applied segment deltas).stage segment = .live ∧
      ∀ id, ((store.applied segment deltas).snapshot segment).get? id =
        valueAfter deltas id ((store.snapshot segment).get? id)
  /-- Two lists with the same last change of each attribute have the same answer and leave the same
  store, whatever comes before and however often. -/
  order : ∀ deltas deltas', (∀ id, lastChange? deltas id = lastChange? deltas' id) →
    store.apply segment deltas = store.apply segment deltas' ∧
      store.applied segment deltas = store.applied segment deltas'

/-- The parts of a list may be applied one after the other. -/
theorem applied_append (store : AttributeStore) (segment : SegmentId)
    (first second : List AttributeDelta) :
    store.applied segment (first ++ second) =
      (store.applied segment first).applied segment second := by
  rw [applied_eq _ _ second, state?_applied, applied_eq, applied_eq, put_put,
    SegmentChange.revised_append]

/-- The answer to the second part is given only if the first part is accepted. -/
theorem apply_append (store : AttributeStore) (segment : SegmentId)
    (first second : List AttributeDelta) :
    store.apply segment (first ++ second) =
      store.apply segment first >>= fun store' => store'.apply segment second := by
  rw [apply_eq, SegmentChange.refusal?_append, applied_append, apply_eq store segment first]
  cases (SegmentChange.apply first).refusal? segment (store.state? segment) with
  | some e => rfl
  | none =>
    change _ = (store.applied segment first).apply segment second
    rw [apply_eq, state?_applied]
    rfl

/-- Attributes that are open to change accept all deltas. -/
theorem value_applied (h : store.stage segment = .absent ∨ store.stage segment = .live)
    (deltas : List AttributeDelta) :
    store.apply segment deltas = .ok (store.applied segment deltas) ∧
      (store.applied segment deltas).stage segment = .live ∧
      ∀ id, ((store.applied segment deltas).snapshot segment).get? id =
        valueAfter deltas id ((store.snapshot segment).get? id) := by
  -- live or absent: the other two stages are excluded by the assumption
  rw [stage] at h
  rw [apply_eq, stage, snapshot_of_state? (state?_applied ..), state?_applied, snapshot]
  cases h_state : store.state? segment with
  | none => exact ⟨rfl, rfl, AttributeMap.get?_applyAll ∅ deltas⟩
  | some state =>
    rw [h_state] at h
    cases state with
    | live attributes => exact ⟨rfl, rfl, attributes.get?_applyAll deltas⟩
    | «sealed» attributes => rcases h with h | h <;> cases h
    | tombstoned => rcases h with h | h <;> cases h

/-- What comes before the last change of each attribute does not matter, in whatever state. -/
theorem apply_congr (h : ∀ id, lastChange? deltas id = lastChange? deltas' id)
    (store : AttributeStore) (segment : SegmentId) :
    store.apply segment deltas = store.apply segment deltas' := by
  rw [apply, apply]
  -- a seal looks at nothing but whether there are deltas
  cases store.state? segment with
  | none => simp only [AttributeMap.applyAll_congr h]
  | some state =>
    cases state with
    | live attributes => simp only [AttributeMap.applyAll_congr h]
    | «sealed» attributes => simp only [List.isEmpty_iff, eq_nil_iff_of_lastChange? h]
    | tombstoned => rfl

/-- Whatever a store holds and whatever state a segment is in, lists of deltas go together there. -/
theorem composition (store : AttributeStore) (segment : SegmentId) :
    store.Composition segment where
  append := store.applied_append segment
  accepts_append first second := by
    rw [accepts_iff, SegmentChange.refusal?_append, Option.or_eq_none_iff, accepts_iff, accepts_iff,
      state?_applied]
  apply_append := store.apply_append segment
  value := value_applied
  order deltas deltas' h := by
    have h_apply := apply_congr h store segment
    refine ⟨h_apply, ?_⟩
    rw [applied, applied, SegmentChange.perform, SegmentChange.perform, h_apply]

end AttributeStore

end OperationFeed
