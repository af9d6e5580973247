import OperationFeed.Proofs.Attributes
import OperationFeed.Proofs.Feed.Facades

/-!
# Changes in either order

What an accepted call leaves to be done is a *change*, unless it waits for something: the log is
cut, or the attributes of a segment are changed. The order of two changes makes no difference,
unless both concern the attributes of one segment, but for the record of a facade: there the same
calls stand in another order (`CallRecord.SameCalls`).

* Two cuts are one cut at the greater number, and those who wait for the log to drain are told if
  either of the two numbers reaches the end of the log, whether the log is cut or not
  (`Feed.drained_truncate_truncate`).
* A change of attributes is decided by the segment's state alone
  (`FeedTask.exists_turn_of_segment?`), and has nothing to do with the log.
-/

namespace OperationFeed

/-! ### Records with the same calls -/

/-- Either facade keeps no record, or the records hold the same calls, in whatever order, and the
same number is forced. -/
def CallRecord.SameCalls : Option CallRecord → Option CallRecord → Prop :=
  Option.Rel fun r r' => r.calls.Perm r'.calls ∧ r.forced = r'.forced

namespace CallRecord.SameCalls

theorem refl (r : Option CallRecord) : SameCalls r r := by
  cases r with
  | none => exact .none
  | some r => exact .some ⟨.refl _, rfl⟩

theorem symm {r r' : Option CallRecord} (h : SameCalls r r') : SameCalls r' r := by
  cases h with
  | none => exact .none
  | some h => exact .some ⟨h.1.symm, h.2.symm⟩

theorem trans {r r' r'' : Option CallRecord} (h : SameCalls r r') (h' : SameCalls r' r'') :
    SameCalls r r'' := by
  cases h with
  | none => exact h'
  | some h =>
    cases h' with
    | some h' => exact .some ⟨h.1.trans h'.1, h.2.trans h'.2⟩

/-- It is a sense in which records are alike: one more call may be noted in both. -/
theorem similarity : Similarity SameCalls where
  note call r r' h := by
    cases h with
    | none => exact .none
    | some h => exact .some ⟨by simpa using h.1.append_right [call], h.2⟩
  forced h := by
    cases h with
    | none => rfl
    | some h => exact h.2
  unforced h := by
    cases h with
    | none => exact .none
    | some h => exact .some ⟨h.1, rfl⟩

/-- Two calls may be written down in either order. -/
theorem note_note (r : Option CallRecord) (call call' : MetadataCall) :
    SameCalls ((r.map (·.note call)).map (·.note call'))
      ((r.map (·.note call')).map (·.note call)) := by
  cases r with
  | none => exact .none
  | some r =>
    refine .some ⟨?_, rfl⟩
    -- both have the old calls first, and the two new ones after them
    simp only [calls_note, List.append_assoc]
    exact (List.Perm.swap call' call []).append_left r.calls

end CallRecord.SameCalls

/-- Markers and points up to two numbers may be removed in either order. -/
theorem Metadata.commute_removeMarkers (upTo upTo' : SequenceNumber) :
    (removeMarkers upTo).Commute (Alike CallRecord.SameCalls) (removeMarkers upTo') where
  left _ := rfl
  right _ := rfl
  states m := by
    simp only [effect_removeMarkers]
    exact ⟨m.store.removeMarkers_comm upTo upTo', .note_note ..⟩

/-- To be alike up to the order of the calls in the record is an equivalence of feeds. -/
theorem Feed.equivalence_alike : Equivalence (Feed.Alike CallRecord.SameCalls) where
  refl feed := ⟨feed.metadata, ⟨rfl, .refl _⟩, rfl⟩
  symm := by
    rintro feed _ ⟨metadata, h, rfl⟩
    exact ⟨feed.metadata, ⟨h.store.symm, h.record.symm⟩, rfl⟩
  trans := by
    rintro feed _ _ ⟨metadata, h, rfl⟩ ⟨metadata', h', rfl⟩
    exact ⟨metadata', ⟨h.store.trans h'.store, h.record.trans h'.record⟩, rfl⟩

/-! ### Cutting the log twice -/

namespace Feed

variable (feed : Feed) (upTo upTo' : SequenceNumber)

/-- A number drains the log if no entry lies beyond it. -/
theorem isDrainedBy_iff {feed : Feed} {upTo : SequenceNumber} :
    feed.isDrainedBy upTo = true ↔ ∀ e ∈ feed.log.entries, e.number ≤ upTo :=
  Log.all_lastNumber?_le

/-- A cut log is drained by a number if it was drained by one of the two. -/
theorem isDrainedBy_cut : (feed.cut upTo).isDrainedBy upTo' =
    (feed.isDrainedBy upTo' || feed.ackEffective && feed.isDrainedBy upTo) := by
  rw [Bool.eq_iff_iff, Bool.or_eq_true, Bool.and_eq_true, isDrainedBy_iff, isDrainedBy_iff,
    isDrainedBy_iff, log_cut]
  cases h_effective : feed.ackEffective with
  | false => simp
  | true =>
    simp only [if_true, true_and, Log.entries_truncate, List.mem_filter, decide_eq_true_iff]
    constructor
    · intro h_rest
      -- the greater of the two numbers bounds all entries
      rcases UInt64.le_total upTo upTo' with h_le | h_le
      · refine .inl fun e h_mem => ?_
        by_cases h_lt : upTo < e.number
        · exact h_rest e ⟨h_mem, h_lt⟩
        · exact UInt64.le_trans (UInt64.not_lt.mp h_lt) h_le
      · refine .inr fun e h_mem => UInt64.not_lt.mp fun h_lt => ?_
        exact UInt64.not_lt.mpr (UInt64.le_trans (h_rest e ⟨h_mem, h_lt⟩) h_le) h_lt
    · rintro (h_all | h_all) e ⟨h_mem, h_lt⟩
      · exact h_all e h_mem
      · exact absurd h_lt (UInt64.not_lt.mpr (h_all e h_mem))

/-- The slot of those who wait for the log to drain, once they are told if the log is drained. -/
def toldDrained (isDrained : Bool) (slot : WaitSlot) : WaitSlot :=
  if isDrained then (slot.resolve .completed).2 else slot

/-- Those who wait are told once: the news comes twice, or once, to the same effect. -/
theorem toldDrained_toldDrained (isDrained isDrained' : Bool) (slot : WaitSlot) :
    toldDrained isDrained' (toldDrained isDrained slot) =
      toldDrained (isDrained || isDrained') slot := by
  cases isDrained with
  | false => rfl
  | true =>
    -- nothing is pending any more
    cases isDrained' with
    | false => rfl
    | true =>
      change ((slot.resolve .completed).2.resolve .completed).2 = (slot.resolve .completed).2
      rw [WaitSlot.resolve_of_waiters_none (slot.waiters_resolve .completed)]

/-- An acknowledgement is a cut, and the news for those who wait for the log to drain. -/
theorem truncate_eq : (truncate upTo).effect feed =
    ((), { feed.cut upTo with drained := toldDrained (feed.isDrainedBy upTo) feed.drained }) := by
  -- the number drains what the cut leaves of the log exactly if it drained the whole
  have h_drained : (feed.cut upTo).isDrainedBy upTo = feed.isDrainedBy upTo := by
    rw [isDrainedBy_cut]
    cases feed.ackEffective <;> simp
  rw [effect_truncate, h_drained, toldDrained, cut_drained]
  cases feed.isDrainedBy upTo with
  | false =>
    have h_same : (feed.cut upTo).drained = feed.drained := cut_drained upTo feed
    rw [if_neg Bool.false_ne_true, if_neg Bool.false_ne_true, ← h_same]
  | true => rfl

/-- Two acknowledgements tell those who wait for the log to drain what either of
them alone would. -/
theorem drained_truncate_truncate :
    ((truncate upTo').effect ((truncate upTo).effect feed).2).2.drained =
      toldDrained (feed.isDrainedBy upTo || feed.isDrainedBy upTo') feed.drained := by
  -- the slot of drain waits plays no part in whether the log is drained
  have h_again : ((truncate upTo).effect feed).2.isDrainedBy upTo' =
      (feed.cut upTo).isDrainedBy upTo' := by rw [truncate_eq]; rfl
  have h_drained : ((truncate upTo).effect feed).2.drained =
      toldDrained (feed.isDrainedBy upTo) feed.drained := by rw [truncate_eq]
  rw [truncate_eq]
  dsimp only
  rw [h_again, h_drained, toldDrained_toldDrained, isDrainedBy_cut]
  cases feed.isDrainedBy upTo <;> simp

/-- With acknowledgements in effect, the log is cut and the markers are removed. -/
theorem cut_of_effective {feed : Feed} (h : feed.ackEffective = true) : feed.cut upTo =
    { feed with
      log := (feed.log.truncate upTo).2
      metadata := ((Metadata.removeMarkers upTo).effect feed.metadata).2 } := if_pos h

/-- With acknowledgements without effect, nothing is cut. -/
theorem cut_of_ineffective {feed : Feed} (h : feed.ackEffective = false) :
    feed.cut upTo = feed := by
  rw [cut, h, if_neg Bool.false_ne_true]

/-- What is cut does not depend on those who wait for the log to drain. -/
theorem cut_drained_eq (drained : WaitSlot) :
    ({ feed with drained } : Feed).cut upTo = { feed.cut upTo with drained } := by
  unfold cut
  split <;> rfl

/-- Two cuts leave the same in either order, but for the order of the calls in the record. -/
theorem alike_cut_cut :
    Alike CallRecord.SameCalls ((feed.cut upTo).cut upTo') ((feed.cut upTo').cut upTo) := by
  cases h_effective : feed.ackEffective with
  | false =>
    rw [cut_of_ineffective upTo h_effective, cut_of_ineffective upTo' h_effective,
      cut_of_ineffective upTo h_effective]
    exact equivalence_alike.refl feed
  | true =>
    -- a cut leaves the flag as it is, so both cuts are effective
    have h_after : ∀ upTo, (feed.cut upTo).ackEffective = true :=
      fun upTo => (cut_ackEffective upTo feed).trans h_effective
    rw [cut_of_effective upTo' (h_after upTo), cut_of_effective upTo (h_after upTo'),
      cut_of_effective upTo h_effective, cut_of_effective upTo' h_effective]
    refine ⟨_, (Metadata.commute_removeMarkers upTo upTo').states feed.metadata, ?_⟩
    -- the rest is the log, where the greater number decides
    rw [withMetadata, feed.log.truncate_comm upTo' upTo]

/-- Two acknowledgements do the same in either order. -/
theorem commute_truncate :
    (truncate upTo).Commute (Alike CallRecord.SameCalls) (truncate upTo') where
  left _ := rfl
  right _ := rfl
  states feed := by
    -- one after the other: both cuts, and the news of either
    have h_effect : ∀ upTo upTo', ((truncate upTo').effect ((truncate upTo).effect feed).2).2 =
        { (feed.cut upTo).cut upTo' with
          drained :=
            toldDrained (feed.isDrainedBy upTo || feed.isDrainedBy upTo') feed.drained } := by
      intro upTo upTo'
      rw [← drained_truncate_truncate, truncate_eq, truncate_eq, cut_drained_eq]
    obtain ⟨metadata, h_alike, h_eq⟩ := feed.alike_cut_cut upTo upTo'
    rw [h_effect, h_effect, h_eq, Bool.or_comm]
    exact ⟨metadata, h_alike, rfl⟩

/-- An acknowledgement does not look at attributes. -/
theorem effect_truncate_attributes (attributes : AttributeStore) :
    (truncate upTo).effect { feed with attributes } =
      ((), { ((truncate upTo).effect feed).2 with attributes }) := by
  have h_cut : ({ feed with attributes } : Feed).cut upTo = { feed.cut upTo with attributes } := by
    unfold cut
    split <;> rfl
  -- the news for drain waits is the same, as it is read off the log
  rw [truncate_eq, truncate_eq, h_cut]
  rfl

/-- An acknowledgement leaves the attributes alone. -/
theorem attributes_truncate : ((truncate upTo).effect feed).2.attributes = feed.attributes := by
  rw [truncate_eq]
  unfold cut
  split <;> rfl

end Feed

/-! ### Changes of attributes -/

namespace FeedTask

/-- The segment whose attributes a task changes. -/
def segment? : FeedTask → Option SegmentId
  | .persist segment _ | .sealAttributes segment | .deleteAttributes segment => some segment
  | .truncate _ | .read _ | .awaitDrain _ => none

/-- The result of a change that may be refused. -/
def resultOf (refusal? : Option AttributeError) : FeedResult :=
  match refusal? with
  | some e => .error (.ofAttributeError e)
  | none => .ok .done

/-- A change of attributes is decided by the segment's state alone, and changes nothing else. -/
theorem exists_turn_of_segment? {task : FeedTask} {segment : SegmentId}
    (h : task.segment? = some segment) :
    ∃ change : SegmentChange, ∀ now feed, (task.turn now).effect feed =
      (.finished (resultOf (change.refusal? segment (feed.attributes.state? segment))),
        { feed with
          attributes :=
            feed.attributes.put segment (change.revised (feed.attributes.state? segment)) }) := by
  -- the turn performs the change
  suffices h_perform : ∃ change : SegmentChange, ∀ now feed, (task.turn now).effect feed =
      (.finished (resultOf (change.perform feed.attributes segment).1),
        { feed with attributes := (change.perform feed.attributes segment).2 }) by
    obtain ⟨change, h_turn⟩ := h_perform
    refine ⟨change, fun now feed => ?_⟩
    rw [h_turn, SegmentChange.perform_eq]
  cases task with
  | persist other deltas =>
    obtain rfl := Option.some.inj h
    refine ⟨.apply deltas, fun now feed => ?_⟩
    simp only [turn, Feed.persistNow, Act.effect_bind, Act.effect_get, SegmentChange.perform]
    cases feed.attributes.apply other deltas <;> rfl
  | sealAttributes other =>
    obtain rfl := Option.some.inj h
    exact ⟨.sealAll, fun _ _ => rfl⟩
  | deleteAttributes other =>
    obtain rfl := Option.some.inj h
    exact ⟨.deleteAll, fun _ _ => rfl⟩
  | truncate upTo => cases h
  | read reader => cases h
  | awaitDrain waiter => cases h

variable {task task' : FeedTask} {segment segment' : SegmentId}

/-- Changes of different segments' attributes do the same in either order. -/
theorem commute_of_segment? (h : task.segment? = some segment) (h' : task'.segment? = some segment')
    (h_ne : segment ≠ segment') (now : Nat) :
    (task.turn now).Commute (Feed.Alike CallRecord.SameCalls) (task'.turn now) := by
  obtain ⟨change, h_turn⟩ := exists_turn_of_segment? h
  obtain ⟨change', h_turn'⟩ := exists_turn_of_segment? h'
  -- the two results, then the states: each looks at its own segment only
  refine ⟨fun feed => ?_, fun feed => ?_, fun feed => ?_⟩
  · rw [h_turn, h_turn', h_turn]
    dsimp only
    rw [AttributeStore.state?_put_of_ne h_ne.symm]
  · rw [h_turn', h_turn, h_turn']
    dsimp only
    rw [AttributeStore.state?_put_of_ne h_ne]
  · rw [h_turn, h_turn', h_turn', h_turn]
    dsimp only
    rw [AttributeStore.state?_put_of_ne h_ne.symm, AttributeStore.state?_put_of_ne h_ne,
      AttributeStore.put_comm h_ne]
    exact Feed.equivalence_alike.refl _

/-- Cutting the log has nothing to do with attributes. -/
theorem commute_truncate_of_segment? (h : task.segment? = some segment) (upTo : SequenceNumber)
    (now : Nat) : ((FeedTask.truncate upTo).turn now).Commute (Feed.Alike CallRecord.SameCalls)
      (task.turn now) := by
  obtain ⟨change, h_turn⟩ := exists_turn_of_segment? h
  have h_cut : ∀ feed, ((FeedTask.truncate upTo).turn now).effect feed =
      (.finished (.ok .done), ((Feed.truncate upTo).effect feed).2) := fun _ => rfl
  -- a cut always succeeds; the change finds the same attributes after it as before
  refine ⟨fun _ => rfl, fun feed => ?_, fun feed => ?_⟩
  · rw [h_cut, h_turn, h_turn]
    dsimp only
    rw [Feed.attributes_truncate]
  · rw [h_turn, h_turn, h_cut, h_cut]
    dsimp only
    rw [Feed.attributes_truncate,
      Feed.effect_truncate_attributes feed upTo (feed.attributes.put ..)]
    exact Feed.equivalence_alike.refl _

end FeedTask

end OperationFeed
