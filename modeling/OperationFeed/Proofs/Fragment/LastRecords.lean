import OperationFeed.Fragment.Store
import OperationFeed.Proofs.Lasts
import OperationFeed.Proofs.Table

/-!
# A store of fragments and its last records

Fragments are recorded for segments one after another, and now and then all of them are dropped.
What the store has then depends on nothing but the *last records*: those that were neither replaced
by a record for the same offset of the same segment nor dropped (`IsLastRecord`).

* `FragmentStore.get?_after` says which fragments a segment has after some calls, and
  `FragmentStore.segment?_after_eq_none_iff` that it has none exactly if nothing was recorded for it
  since the last time that all were dropped;
* `FragmentStore.segment?_after_congr` says that calls with the same last records for a segment
  leave it with the same fragments, however they came about.

`FragmentStore.after_tellsLastRecords` puts this together.
-/

namespace OperationFeed

/-- A call that changes a store of fragments. -/
inductive FragmentCall where
  -- Record a fragment of a segment.
  | record (segment : SegmentId) (offset : UInt64) (data : Bytes)
  -- Drop all fragments of all segments.
  | clear
deriving DecidableEq

namespace FragmentCall

/-- A call that undoes what was recorded for an offset of a segment. -/
def Undoes (segment : SegmentId) (offset : UInt64) : FragmentCall → Prop
  | record segment' offset' _ => segment' = segment ∧ offset' = offset
  | clear => True

/-- Whether a call has to do with a segment. -/
def concerns (segment : SegmentId) : FragmentCall → Bool
  | record segment' _ _ => segment' = segment
  | clear => true

/-- Two records, for different segments or different offsets. -/
def Apart : FragmentCall → FragmentCall → Prop
  | record segment offset _, record segment' offset' _ => (segment, offset) ≠ (segment', offset')
  | record .., clear => False
  | clear, _ => False

/-- Who undoes a record of a segment has to do with the segment. -/
theorem Undoes.concerns {segment : SegmentId} {offset : UInt64} {call : FragmentCall}
    (h : call.Undoes segment offset) : call.concerns segment = true := by
  cases call with
  | record segment' offset' data => exact decide_eq_true h.1
  | clear => rfl

/-- Records that are apart do not undo one another. -/
theorem Apart.not_undoes {segment : SegmentId} {offset : UInt64} {data : Bytes}
    {call : FragmentCall}
    (h : Apart (.record segment offset data) call) : ¬ call.Undoes segment offset := by
  cases call with
  | record segment' offset' data' =>
    rintro ⟨rfl, rfl⟩
    exact h rfl
  | clear => exact h.elim

end FragmentCall

/-- A fragment was recorded for an offset of a segment, and neither was another one recorded there
after it nor were all dropped. -/
def IsLastRecord (calls : List FragmentCall) (segment : SegmentId) (offset : UInt64)
    (data : Bytes) : Prop :=
  Lasts (FragmentCall.Undoes segment offset) (.record segment offset data) calls

/-- A fragment was recorded for a segment, and not all were dropped after it. -/
def IsRecorded (calls : List FragmentCall) (segment : SegmentId) : Prop :=
  ∃ offset data, Lasts (· = .clear) (.record segment offset data) calls

section LastRecords

variable {calls before records records' behind : List FragmentCall} {call : FragmentCall}
  {segment other : SegmentId} {offset offset' : UInt64} {data data' : Bytes}

/-- After one more record, that one is the last for its offset, and all others stay
what they were. -/
theorem isLastRecord_record :
    IsLastRecord (calls ++ [.record other offset' data']) segment offset data ↔
    (segment = other ∧ offset = offset' ∧ data = data') ∨
      ¬ (other = segment ∧ offset' = offset) ∧ IsLastRecord calls segment offset data := by
  rw [IsLastRecord, lasts_concat, FragmentCall.record.injEq]
  rfl

/-- After all were dropped there is no last record. -/
theorem not_isLastRecord_clear : ¬ IsLastRecord (calls ++ [.clear]) segment offset data := by
  rw [IsLastRecord, lasts_concat]
  rintro (h | ⟨h, -⟩)
  · cases h
  · exact h trivial

theorem not_isRecorded_nil : ¬ IsRecorded [] segment := by
  rintro ⟨offset, data, h⟩
  exact not_lasts_nil h

/-- One more record adds its segment to those that have something. -/
theorem isRecorded_record : IsRecorded (calls ++ [.record other offset data]) segment ↔
    segment = other ∨ IsRecorded calls segment := by
  simp only [IsRecorded, lasts_concat, FragmentCall.record.injEq, reduceCtorEq, not_false_eq_true,
    true_and]
  constructor
  · rintro ⟨offset', data', ⟨h, -⟩ | h⟩
    · exact .inl h
    · exact .inr ⟨offset', data', h⟩
  · rintro (rfl | ⟨offset', data', h⟩)
    · exact ⟨offset, data, .inl ⟨rfl, rfl, rfl⟩⟩
    · exact ⟨offset', data', .inr h⟩

/-- After all were dropped no segment has anything. -/
theorem not_isRecorded_clear : ¬ IsRecorded (calls ++ [.clear]) segment := by
  rintro ⟨offset, data, h⟩
  rcases lasts_concat.mp h with h | ⟨h, -⟩
  · cases h
  · exact h rfl

/-- Of what was recorded since all were dropped, something is recorded last. -/
theorem isRecorded_iff : IsRecorded calls segment ↔
    ∃ offset data, IsLastRecord calls segment offset data := by
  constructor
  · intro h
    induction calls using List.reverseRecOn with
    | nil => exact absurd h not_isRecorded_nil
    | append_singleton calls call ih =>
      cases call with
      | clear => exact absurd h not_isRecorded_clear
      | record other offset' data' =>
        by_cases h_other : segment = other
        · exact ⟨offset', data', isLastRecord_record.mpr (.inl ⟨h_other, rfl, rfl⟩)⟩
        · -- the call is about another segment
          obtain ⟨offset, data, h_last⟩ := ih ((isRecorded_record.mp h).resolve_left h_other)
          refine ⟨offset, data, isLastRecord_record.mpr (.inr ⟨?_, h_last⟩)⟩
          exact fun h_same => h_other h_same.1.symm
  · rintro ⟨offset, data, h⟩
    refine ⟨offset, data, h.mono ?_⟩
    -- dropping all undoes every record
    rintro _ rfl
    exact trivial

/-- Records for different offsets or segments may be made in any order. -/
theorem isLastRecord_perm (h_apart : records.Pairwise FragmentCall.Apart)
    (h_perm : records'.Perm records) :
    IsLastRecord (before ++ records' ++ behind) segment offset data ↔
      IsLastRecord (before ++ records ++ behind) segment offset data := by
  have h_symm : ∀ {call call' : FragmentCall}, call.Apart call' → call'.Apart call := by
    rintro (_ | _) (_ | _) h
    · exact Ne.symm h
    all_goals exact h.elim
  have h_undoes : ∀ call, FragmentCall.Apart (.record segment offset data) call →
      ¬ call.Undoes segment offset := fun _ => FragmentCall.Apart.not_undoes
  -- among records that are apart, to last is just to be one of them
  simp only [IsLastRecord, lasts_append, lasts_iff_mem h_apart h_undoes,
    lasts_iff_mem (h_perm.symm.pairwise h_apart h_symm) h_undoes, h_perm.mem_iff]

/-- Calls that are about other segments may be left out. -/
theorem isLastRecord_filter : IsLastRecord (calls.filter (·.concerns segment)) segment offset data ↔
    IsLastRecord calls segment offset data :=
  lasts_filter (decide_eq_true rfl) fun _ => FragmentCall.Undoes.concerns

end LastRecords

/-! ### The store after calls -/

namespace FragmentStore

variable {store store' : FragmentStore} {calls calls' : List FragmentCall} {segment : SegmentId}
  {offset : UInt64} {data : Bytes}

/-- What a call makes of a store. -/
def perform (store : FragmentStore) : FragmentCall → FragmentStore
  | .record segment offset data => store.record segment offset data
  | .clear => ∅

/-- The store after calls, one after another. -/
def after (calls : List FragmentCall) : FragmentStore :=
  calls.foldl perform ∅

/-- Two stores have the same of a segment. -/
structure Agree (store store' : FragmentStore) (segment : SegmentId) : Prop where
  fragments : store.segment? segment = store'.segment? segment
  reading : ∀ offset length, store.read segment offset length = store'.read segment offset length

/-- Stores with the same fragments of a segment read it alike. -/
theorem agree_of_segment? (h : store.segment? segment = store'.segment? segment) :
    store.Agree store' segment where
  fragments := h
  reading offset length := by rw [read, h, read]

/-- The fragments of the segments determine a store. -/
theorem ext_segment? (h : ∀ segment, store.segment? segment = store'.segment? segment) :
    store = store' := by
  obtain ⟨segments⟩ := store
  obtain ⟨segments'⟩ := store'
  exact congrArg mk (Table.ext_get? h)

/-- A record changes its own segment, which is there from then on. -/
theorem segment?_record (store : FragmentStore) (segment other : SegmentId) (offset : UInt64)
    (data : Bytes) : (store.record segment offset data).segment? other =
      if segment = other then some (((store.segment? segment).getD ∅).insert offset data)
      else store.segment? other := by
  rw [record, segment?, Table.get?_insert, segment?, segment?]
  simp only [rank_inj]

theorem after_concat (calls : List FragmentCall) (call : FragmentCall) :
    after (calls ++ [call]) = (after calls).perform call := by
  rw [after, List.foldl_append]
  rfl

/-- The fragments of a segment are the last records for it. -/
theorem get?_after : ((after calls).segment? segment |>.getD ∅).fragments.get? offset = some data ↔
    IsLastRecord calls segment offset data := by
  induction calls using List.reverseRecOn with
  | nil => exact iff_of_false (Option.not_mem_none data) not_lasts_nil
  | append_singleton calls call ih =>
    rw [after_concat]
    cases call with
    | clear => exact iff_of_false (Option.not_mem_none data) not_isLastRecord_clear
    | record other offset' data' =>
      rw [perform, segment?_record, isLastRecord_record, ← ih]
      -- the record is for another segment, for another offset of this one, or for this one
      by_cases h_other : other = segment
      · subst h_other
        rw [if_pos rfl, Option.getD_some, FragmentMap.insert, Table.get?_insert]
        by_cases h_offset : offset' = offset
        · subst h_offset
          simp [eq_comm]
        · rw [if_neg (mt rank_inj.mp h_offset)]
          simp [h_offset, Ne.symm h_offset]
      · simp [h_other, Ne.symm h_other]

/-- A segment is there exactly if something was recorded for it since all were dropped. -/
theorem segment?_after_eq_none_iff :
    (after calls).segment? segment = none ↔ ¬ IsRecorded calls segment := by
  induction calls using List.reverseRecOn with
  | nil => exact iff_of_true rfl not_isRecorded_nil
  | append_singleton calls call ih =>
    rw [after_concat]
    cases call with
    | clear => exact iff_of_true rfl not_isRecorded_clear
    | record other offset' data' =>
      rw [perform, segment?_record, isRecorded_record, not_or, ← ih]
      by_cases h_other : other = segment
      · simp [h_other]
      · simp [h_other, Ne.symm h_other]

/-- Calls with the same last records for a segment leave it with the same fragments. -/
theorem segment?_after_congr (h : ∀ offset data, IsLastRecord calls segment offset data ↔
    IsLastRecord calls' segment offset data) :
    (after calls).segment? segment = (after calls').segment? segment := by
  -- the segment is there for both or for neither, since it has last records for both or for neither
  have h_none : (after calls).segment? segment = none ↔ (after calls').segment? segment = none := by
    simp only [segment?_after_eq_none_iff, isRecorded_iff, h]
  -- and it has the same fragments, offset by offset
  have h_get : ((after calls).segment? segment |>.getD ∅).fragments =
      ((after calls').segment? segment |>.getD ∅).fragments := by
    apply Table.ext_get?
    intro offset
    apply Option.ext
    intro data
    rw [get?_after, get?_after, h]
  cases h_there : (after calls).segment? segment with
  | none => exact (h_none.mp h_there).symm
  | some m =>
    cases h_there' : (after calls').segment? segment with
    | none =>
      rw [h_none.mpr h_there'] at h_there
      cases h_there
    | some m' =>
      rw [h_there, h_there'] at h_get
      obtain ⟨fragments⟩ := m
      exact congrArg (some ∘ FragmentMap.mk) h_get

/-- The last records tell what a store has after some calls. -/
structure TellsLastRecords (calls : List FragmentCall) : Prop where
  /-- A segment is read from the fragments that were recorded last at their offsets. -/
  reading : ∀ segment, ∃ m : FragmentMap,
    (∀ offset data, m.fragments.get? offset = some data ↔ IsLastRecord calls segment offset data) ∧
    ∀ offset length, (after calls).read segment offset length = m.read offset length
  /-- A segment is not there exactly if nothing was recorded for it since all were dropped. -/
  absent : ∀ segment, (after calls).segment? segment = none ↔ ¬ IsRecorded calls segment
  /-- Other calls with the same last records for a segment come to the same for it. -/
  agree : ∀ calls' segment, (∀ offset data, IsLastRecord calls' segment offset data ↔
    IsLastRecord calls segment offset data) → (after calls').Agree (after calls) segment
  /-- Records for different offsets or segments come to the same store in any order. -/
  reordered : ∀ before records records' behind, calls = before ++ records ++ behind →
    records.Pairwise FragmentCall.Apart → records'.Perm records →
    after (before ++ records' ++ behind) = after calls
  /-- What a store has of a segment does not depend on calls about other segments. -/
  others : ∀ segment, (after (calls.filter (·.concerns segment))).Agree (after calls) segment

/-- Whatever was recorded, and whenever all was dropped: the last records tell what is there. -/
theorem after_tellsLastRecords (calls : List FragmentCall) : TellsLastRecords calls where
  reading segment := by
    refine ⟨((after calls).segment? segment).getD ∅, fun offset data => get?_after, ?_⟩
    intro offset length
    rw [read]
    cases (after calls).segment? segment with
    | none => rfl
    | some m => rfl
  absent segment := segment?_after_eq_none_iff
  agree calls' segment h := agree_of_segment? (segment?_after_congr h)
  reordered before records records' behind h_calls h_apart h_perm := by
    subst h_calls
    apply ext_segment?
    intro segment
    exact segment?_after_congr fun offset data => isLastRecord_perm h_apart h_perm
  others segment := agree_of_segment? (segment?_after_congr fun offset data => isLastRecord_filter)

end FragmentStore

end OperationFeed
