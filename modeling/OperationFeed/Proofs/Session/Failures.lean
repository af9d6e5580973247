import OperationFeed.Proofs.Run.Errors
import OperationFeed.Proofs.Session.Closing
import OperationFeed.Proofs.Session.Reconstruction

/-!
# Failures without effect

A call that needs an open feed passes some checks before it does anything, and on its way it comes
through fault points, in a fixed order (`Call.faultPoints`). If one of the checks fails, or a fault
strikes, the feed is as it was but for the counts of the injectors that were asked, and for what a
facade records of a look-up (`Feed.Unaffected`). The one exception is an operation whose number the
log rejects.

`Session.Ending` has the ways in which such a call may end, and `Session.noEffect_of_failure`
says of every session what this means for failures and for faults. The hook of a look-up runs
in the middle of it, and might do anything; so hooks are assumed to leave the feed and its
executor alone (`Session.HooksRest`).
-/

namespace OperationFeed

/-! ### What is left of a failed call -/

/-- The fault points that a call comes through, in order. -/
def Call.faultPoints : Call → List FaultPoint
  | .add _ => [.add]
  | .getAppendData .. => [.getAppendData]
  | .async call => call.faultPoints
  | _ => []

namespace Feed

/-- The feed has not changed, except that calls at some fault points are counted, and that a facade
may have recorded the look-up of a segment. -/
structure Unaffected (consulted : List FaultPoint) (feed feed' : Feed) : Prop where
  same : feed' =
    { feed with
      injectors := feed'.injectors
      metadata := { feed.metadata with record := feed'.metadata.record } }
  /-- An injector was called once for each of the points at which it is installed. -/
  counted : ∀ id, feed'.injectors.get? id = (feed.injectors.get? id).map fun i =>
    i.called (consulted.countP fun point => feed.faults.get? point = some id)
  recorded : feed'.metadata.record = feed.metadata.record ∨
    ∃ segment, feed'.metadata.record = feed.metadata.record.map (·.note (.segment segment))

/-- No injector has counted one more strike. -/
def SameStrikes (feed feed' : Feed) : Prop :=
  ∀ id i i', feed.injectors.get? id = some i → feed'.injectors.get? id = some i' →
    i'.injected = i.injected

variable {feed feed' : Feed} {consulted before : List FaultPoint} {point : FaultPoint}
  {e : FeedError}

/-- To count calls at fault points is no other effect. -/
theorem unaffected_through (feed : Feed) (consulted : List FaultPoint) :
    feed.Unaffected consulted (feed.through consulted) where
  same := by
    rw [through_eq]
  counted := feed.get?_through consulted
  recorded := .inl (by rw [through_eq])

/-- To look up a segment besides leaves a note in the record at most. -/
theorem unaffected_lookedUp (feed : Feed) (consulted : List FaultPoint) (segment : SegmentId) :
    feed.Unaffected consulted ((feed.through consulted).lookedUp segment) where
  same := by
    rw [through_eq]
    rfl
  counted := feed.get?_through consulted
  recorded := .inr ⟨segment, by rw [through_eq]; rfl⟩

theorem SameStrikes.refl (feed : Feed) : feed.SameStrikes feed := by
  intro id i i' h_get h_get'
  rw [Option.some.inj (h_get.symm.trans h_get')]

/-- Only the injectors matter to the strikes. -/
theorem SameStrikes.of_injectors (h : feed.SameStrikes feed') {feed'' : Feed}
    (h_same : feed''.injectors = feed'.injectors) : feed.SameStrikes feed'' := by
  intro id i i' h_get h_get'
  rw [h_same] at h_get'
  exact h id i i' h_get h_get'

/-- Points that spare the call count no strike. -/
theorem Spares.sameStrikes (spares : feed.Spares consulted)
    (h : feed'.injectors = (feed.through consulted).injectors) : feed.SameStrikes feed' := by
  intro id i i' h_get h_get'
  rw [h] at h_get'
  exact spares.injected_eq h_get h_get'

/-- A call that is spared at the points it came through has counted no strike. -/
theorem Unaffected.sameStrikes (h : feed.Unaffected consulted feed')
    (spares : feed.Spares consulted) : feed.SameStrikes feed' := by
  intro id i i' h_get h_get'
  rw [h.counted, ← get?_through] at h_get'
  exact spares.injected_eq h_get h_get'

end Feed

namespace Session

/-! ### How a call ends -/

theorem value_attempt {α : Type} (a : Attempt Feed α) (s : Session) :
    ((attempt a).run s).1 = (a.effect s.feed).1 := rfl

/-- An attempt leaves the executor as it is. -/
theorem machine_attempt {α : Type} (a : Attempt Feed α) (s : Session) :
    ((attempt a).run s).2.machine = { s.machine with state := (a.effect s.feed).2 } := rfl

/-- The hooks leave the feed and its executor alone. -/
def HooksRest (nested : Call → StateM Session Answer) (s : Session) : Prop :=
  ∀ hook segments (t : Session), t.scripts = s.scripts → t.machine.executor = s.machine.executor →
    ((runHook nested hook segments).run t).2.machine = t.machine

/-- How a call that needs an open feed may end. -/
inductive Ending (s : Session) (call : Call) : Answer → FeedMachine → Prop
  -- Some check fails.
  | refused {e : FeedError} {feed' : Feed} (consulted : List FaultPoint)
      (isPrefix : consulted <+: call.faultPoints) (spares : s.feed.Spares consulted)
      (unaffected : s.feed.Unaffected consulted feed') :
      Ending s call (.failure e) { s.machine with state := feed' }
  -- A fault strikes, and the call is refused.
  | struck {point : FaultPoint} {e : FeedError} (before : List FaultPoint)
      (isPrefix : before ++ [point] <+: call.faultPoints)
      (strikes : s.feed.StrikesAfter before point e) (isSync : point.isSync = true) :
      Ending s call (.failure e) { s.machine with state := s.feed.through (before ++ [point]) }
  -- A fault strikes, and the completion has failed already.
  | struckLater {point : FaultPoint} {e : FeedError} (before : List FaultPoint)
      (isPrefix : before ++ [point] <+: call.faultPoints)
      (strikes : s.feed.StrikesAfter before point e) (isAsync : point.isSync = false) :
      Ending s call (.success (.handle s.machine.executor.handles.length))
        ⟨s.feed.through (before ++ [point]),
          (s.machine.executor.newHandle (.resolved (.error e))).2⟩
  -- The log rejects a number.
  | rejected {op : Operation} {cause : OutOfOrder} {m' : FeedMachine} (isAdd : call = .add op)
      (same : s.feed.SameStrikes m'.state) : Ending s call (.failure (.log cause)) m'
  | accepted {answer : Answer} {m' : FeedMachine} (same : s.feed.SameStrikes m'.state) :
      Ending s call (.success answer) m'

namespace Ending

variable {s : Session}

/-- A check fails that comes before all fault points. -/
theorem atOnce (s : Session) (call : Call) (e : FeedError) : Ending s call (.failure e) s.machine :=
  .refused [] List.nil_prefix trivial (s.feed.unaffected_through [])

/-! #### Calls that are answered at once -/

/-- The operation's own append, when no fault has struck. -/
theorem finishAdd {op : Operation} {feed : Feed} (h_strike : s.feed.strike .add = none)
    (h_counted : feed.injectors = (s.feed.counted .add).injectors) :
    Ending s (.add op) (.ofResult (fun n => .number n.toNat) ((Feed.finishAdd op).effect feed).1)
      { s.machine with state := ((Feed.finishAdd op).effect feed).2 } := by
  have spares : s.feed.Spares [.add] := ⟨h_strike, trivial⟩
  rcases Feed.finishAdd_cases op feed with ⟨feed', takes, h⟩ | ⟨cause, feed', rejects, h⟩
  · rw [h]
    refine .accepted (spares.sameStrikes ?_)
    -- neither taking the operation nor waking readers touches the injectors
    rw [Feed.woken, takes.eq]
    exact h_counted
  · rw [h]
    refine .rejected rfl (spares.sameStrikes ?_)
    rw [rejects.eq]
    exact h_counted

/-- The checks of an addition come first, then its fault point, then the log. -/
theorem add (s : Session) (op : Operation) :
    Ending s (.add op) (.ofResult (fun n => .number n.toNat) ((Feed.add op).effect s.feed).1)
      { s.machine with state := ((Feed.add op).effect s.feed).2 } := by
  rw [Feed.effect_add]
  split
  · exact .atOnce s _ _
  cases op.sequenceNumber with
  | some number => exact .atOnce s _ _
  | none =>
  cases h_strike : s.feed.strike .add with
  | some e => exact .struck [] (List.prefix_refl _) ⟨trivial, h_strike⟩ rfl
  | none =>
  have spares : s.feed.Spares [.add] := ⟨h_strike, trivial⟩
  -- no fault has struck, so what is left are a checkpoint that is due and the operation
  dsimp only
  split
  · rw [Attempt.effect_bind]
    rcases Feed.insertCheckpoint_cases (s.feed.counted .add) with
      ⟨feed', takes, h⟩ | ⟨cause, feed', rejects, h⟩
    · rw [h]
      refine finishAdd h_strike ?_
      rw [takes.eq]
    · rw [h]
      refine .rejected rfl (spares.sameStrikes ?_)
      rw [rejects.eq]
      rfl
  · exact finishAdd h_strike rfl

/-- Recording bytes can be refused by a closed feed only. -/
theorem recordAppend (s : Session) (segment : SegmentId) (offset : UInt64) (data : Bytes) :
    Ending s (.recordAppend segment offset data)
      (.ofResult (fun _ => .nothing) ((Feed.recordAppend segment offset data).effect s.feed).1)
      { s.machine with state := ((Feed.recordAppend segment offset data).effect s.feed).2 } := by
  rw [Feed.effect_recordAppend]
  split
  · exact .atOnce s _ _
  · exact .accepted (.refl s.feed)

end Ending

/-! ### Calls that are answered later -/

/-- What an accepted call starts strikes nobody. -/
theorem Ending.launched {s : Session} {call : Call} {feed' : Feed} (launch : FeedLaunch)
    (same : s.feed.SameStrikes feed') :
    Ending s call
      (.success (.handle ((Machine.start launch).effect { s.machine with state := feed' }).1))
      ((Machine.start launch).effect { s.machine with state := feed' }).2 := by
  have h_keeps : ∀ task : FeedTask, task.abandon.Keeps Feed.injectors := by
    intro task
    cases task <;> exact fun _ => rfl
  exact .accepted (same.of_injectors (Machine.keeps_start h_keeps launch _))

/-- Calls whose results come later end as their responses say. -/
theorem Ending.async (s : Session) (call : AsyncCall) :
    Ending s (.async call) (.ofResult .handle (call.perform.effect s.machine).1)
      (call.perform.effect s.machine).2 := by
  have response := call.response s.machine.executor.clock s.feed
  rw [AsyncCall.effect_perform]
  change call.Response s.feed ((call.attempt s.machine.executor.clock).effect s.machine.state).1
    ((call.attempt s.machine.executor.clock).effect s.machine.state).2 at response
  generalize (call.attempt s.machine.executor.clock).effect s.machine.state = out at response ⊢
  obtain ⟨result, feed'⟩ := out
  cases response with
  | closed isClosed => exact .atOnce s _ _
  | notPoint not => exact .atOnce s _ _
  | struck isPrefix strikes isSync => exact .struck [] isPrefix ⟨trivial, strikes⟩ isSync
  | struckLater before isPrefix strikes isAsync =>
    exact .struckLater before isPrefix strikes isAsync
  -- what is read at once has come through both fault points, and neither struck
  | found spares counted => exact .launched _ (spares.sameStrikes counted)
  | drained => exact .launched _ (.refl s.feed)
  | waits spares counted => exact .launched _ (spares.sameStrikes counted)

/-! ### Looking up -/

/-- After its hook, a look-up is refused or gives bytes, and strikes nobody. -/
theorem Ending.lookUpBytes {s t : Session} {segment : SegmentId} {start : UInt64} {length : Nat}
    (h_strike : s.feed.strike .getAppendData = none)
    (h_machine : t.machine = { s.machine with state := s.feed.counted .getAppendData }) :
    Ending s (.getAppendData segment start length)
      (.ofResult (.ofOption .bytes) ((Feed.lookUpBytes segment start length).effect t.feed).1)
      { t.machine with state := ((Feed.lookUpBytes segment start length).effect t.feed).2 } := by
  have spares : s.feed.Spares [.getAppendData] := ⟨h_strike, trivial⟩
  have unaffected := s.feed.unaffected_lookedUp [.getAppendData] segment
  have refused : ∀ e, Ending s (.getAppendData segment start length) (.failure e)
      { s.machine with state := (s.feed.counted .getAppendData).lookedUp segment } :=
    fun e => .refused [.getAppendData] (List.prefix_refl _) spares unaffected
  rw [feed, h_machine, Feed.effect_lookUpBytes]
  -- the segment may be unknown, and the range out of bounds
  cases (s.feed.counted .getAppendData).metadata.store.segment? segment with
  | none => exact refused _
  | some info =>
    dsimp only
    cases info.checkRange start length with
    | error cause => exact refused _
    | ok => exact .accepted (unaffected.sameStrikes spares)

/-- A look-up is refused before its hook, struck before it, or goes on after it. -/
theorem Ending.getAppendData {nested : Call → StateM Session Answer} {s : Session}
    (h_hooks : s.HooksRest nested) (segment : SegmentId) (start : UInt64) (length : Nat) :
    Ending s (.getAppendData segment start length)
      ((performWith nested (.getAppendData segment start length)).run s).1
      ((performWith nested (.getAppendData segment start length)).run s).2.machine := by
  change Ending s _
    (.ofResult _
      ((Feed.getAppendData (runHook nested .appendData []) segment start length).run s).1)
    ((Feed.getAppendData (runHook nested .appendData []) segment start length).run s).2.machine
  have h_admitted := Feed.effect_admitLookup s.feed
  have h_machine : s.admitted.machine =
    { s.machine with state := (Feed.admitLookup.effect s.feed).2 } := rfl
  by_cases h_closed : s.feed.isClosed = true
  · rw [if_pos h_closed] at h_admitted
    rw [h_admitted] at h_machine
    rw [run_getAppendData_of_refused _ segment start length (congrArg Prod.fst h_admitted),
      h_machine]
    exact .atOnce s _ _
  rw [if_neg h_closed] at h_admitted
  cases h_strike : s.feed.strike .getAppendData with
  | some e =>
    rw [h_strike] at h_admitted
    rw [h_admitted] at h_machine
    rw [run_getAppendData_of_refused _ segment start length (congrArg Prod.fst h_admitted),
      h_machine]
    exact .struck [] (List.prefix_refl _) ⟨trivial, h_strike⟩ rfl
  | none =>
    rw [h_strike] at h_admitted
    rw [h_admitted] at h_machine
    rw [run_getAppendData_of_admitted _ segment start length (congrArg Prod.fst h_admitted)]
    -- the hook rests, so the machine is the one that the look-up was let in on
    have h_rest := (h_hooks .appendData [] s.admitted rfl rfl).trans h_machine
    generalize ((runHook nested .appendData []).run s.admitted).2 = t at h_rest ⊢
    rw [value_attempt, machine_attempt]
    exact lookUpBytes h_strike h_rest

/-- The hook of a merge is the last thing that happens. -/
theorem Ending.completeMerge {nested : Call → StateM Session Answer} {s : Session}
    (h_hooks : s.HooksRest nested) (target source : SegmentId) :
    Ending s (.completeMerge target source)
      ((performWith nested (.completeMerge target source)).run s).1
      ((performWith nested (.completeMerge target source)).run s).2.machine := by
  by_cases h_closed : s.feed.isClosed = true
  · have h_refused : s.Refuses (.completeMerge target source) := refuses_of_closed h_closed rfl
    rw [h_refused nested]
    exact .atOnce s _ _
  obtain ⟨t, h_first, h_scripts, h_machine⟩ : ∃ t, (attempt Feed.requireOpen).run s = (.ok (), t) ∧
      t.scripts = s.scripts ∧ t.machine = s.machine := by
    refine ⟨_, Prod.ext ?_ rfl, rfl, ?_⟩
    · rw [value_attempt, Feed.effect_requireOpen, if_neg h_closed]
    · rw [machine_attempt, Feed.effect_requireOpen]
      rfl
  have h_run : (Feed.completeMerge (runHook nested .mergeComplete [target, source])).run s =
      (.ok (), ((runHook nested .mergeComplete [target, source]).run t).2) := by
    change (attempt Feed.requireOpen >>= _ : StateM Session _).run s = _
    rw [StateT.run_bind, h_first]
    rfl
  have h_rest := h_hooks .mergeComplete [target, source] t h_scripts (congrArg _ h_machine)
  rw [performWith, StateT.run_bind, h_run]
  refine .accepted ?_
  change s.feed.SameStrikes ((runHook nested .mergeComplete [target, source]).run t).2.machine.state
  rw [h_rest, h_machine]
  exact .refl s.feed

/-! ### All calls -/

/-- How a call ends that needs an open feed. -/
theorem ending {nested : Call → StateM Session Answer} {s : Session} (h_hooks : s.HooksRest nested)
    {call : Call} (h_call : call.needsOpen = true) :
    Ending s call ((performWith nested call).run s).1
      ((performWith nested call).run s).2.machine := by
  cases call with
  | add op => exact .add s op
  | recordAppend segment offset data => exact .recordAppend s segment offset data
  | getAppendData segment start length => exact .getAppendData h_hooks segment start length
  | completeMerge target source => exact .completeMerge h_hooks target source
  | async call => exact .async s call
  | _ => cases h_call

/-- A call that needs an open feed, in any session whose hooks rest. If it fails, and not because
the log rejects a number, nothing has happened but that injectors were called on the way. If an
injector counts a strike, it was called as the last one, and nothing else has happened; its error
fails the call if the point is a synchronous one, and the completion otherwise. -/
theorem noEffect_of_failure {nested : Call → StateM Session Answer} {s s' : Session} {call : Call}
    {answer : Answer} (h_hooks : s.HooksRest nested) (h_call : call.needsOpen = true)
    (h_run : (performWith nested call).run s = (answer, s')) :
    (∀ e, answer = .failure e → (∀ op cause, call = .add op → e ≠ .log cause) →
      ∃ consulted, consulted <+: call.faultPoints ∧ s.feed.Unaffected consulted s'.feed ∧
        s'.machine.executor = s.machine.executor) ∧
    ∀ id i i', s.feed.injectors.get? id = some i → s'.feed.injectors.get? id = some i' →
      i'.injected ≠ i.injected →
      ∃ before point, before ++ [point] <+: call.faultPoints ∧
        s.feed.faults.get? point = some id ∧ s.feed.Unaffected (before ++ [point]) s'.feed ∧
        if point.isSync then
          answer = .failure i.error ∧ s'.machine.executor = s.machine.executor
        else
          answer = .success (.handle s.machine.executor.handles.length) ∧
            s'.machine.executor =
              (s.machine.executor.newHandle (.resolved (.error i.error))).2 := by
  have ending := ending h_hooks h_call
  rw [h_run] at ending
  change Ending s call answer s'.machine at ending
  unfold feed
  generalize s'.machine = m' at ending ⊢
  -- the endings are refusals, strikes in two ways, a rejection by the log, and success
  cases ending with
  | refused consulted isPrefix spares unaffected =>
    refine ⟨fun e _ _ => ⟨consulted, isPrefix, unaffected, rfl⟩, ?_⟩
    intro id i i' h_get h_get' h_ne
    exact absurd (unaffected.sameStrikes spares id i i' h_get h_get') h_ne
  | @struck point e before isPrefix strikes isSync =>
    have unaffected := s.feed.unaffected_through (before ++ [point])
    refine ⟨fun e _ _ => ⟨_, isPrefix, unaffected, rfl⟩, ?_⟩
    intro id i i' h_get h_get' h_ne
    -- the injector that struck is the one that is installed at the last point
    obtain ⟨h_installed, rfl⟩ := strikes.installed h_get h_get' h_ne
    refine ⟨before, _, isPrefix, h_installed, unaffected, ?_⟩
    rw [if_pos isSync]
    exact ⟨rfl, rfl⟩
  | struckLater before isPrefix strikes isAsync =>
    refine ⟨nofun, ?_⟩
    intro id i i' h_get h_get' h_ne
    obtain ⟨h_installed, rfl⟩ := strikes.installed h_get h_get' h_ne
    refine ⟨before, _, isPrefix, h_installed, s.feed.unaffected_through _, ?_⟩
    rw [if_neg (Bool.eq_false_iff.mp isAsync)]
    exact ⟨rfl, rfl⟩
  | rejected isAdd same =>
    refine ⟨?_, fun id i i' h_get h_get' h_ne => absurd (same id i i' h_get h_get') h_ne⟩
    intro e h_e h_log
    exact absurd (Answer.failure.inj h_e).symm (h_log _ _ isAdd)
  | accepted same =>
    exact ⟨nofun, fun id i i' h_get h_get' h_ne => absurd (same id i i' h_get h_get') h_ne⟩

/-- A session in which a fault strikes every read, and a look-up runs a script that asks for the
recorded calls. -/
def faultySession : Session :=
  ⟨Step.final ⟨⟨.fresh .recorded 1, .standard, true, false, ∅, ∅, ∅, ∅, ∅, ∅, ∅, 0⟩, .fresh⟩
    [.now (.makeInjector .always), .now (.inject .readSync (some ⟨0⟩)),
      .now (.inject .readAsync (some ⟨0⟩))],
    Table.insert ∅ .appendData [.recordedCalls], [("reads", ⟨0⟩)], [], []⟩

/-- The injector is called once for the read, not twice. The look-up of a segment that is not there
is recorded. -/
theorem noEffect_of_faultySession : faultySession.HooksRest (performTo 1) ∧
    (∃ s', (performWith (performTo 1) (.async (.read 0 1 ⟨0⟩))).run faultySession =
        (.failure (.injected "intentional failure"), s') ∧
      s'.injectorCounts "reads" = .counts 1 1 ∧
      ∃ before point, before ++ [point] <+: [.readSync, .readAsync] ∧
        faultySession.feed.Unaffected (before ++ [point]) s'.feed) ∧
    ∃ s', (performWith (performTo 1) (.getAppendData ⟨1⟩ 0 1)).run faultySession =
        (.failure (.segmentNotFound ⟨1⟩), s') ∧
      s'.feed.metadata.recordedCalls = .calls [.segment ⟨1⟩] ∧
      ∃ consulted, consulted <+: [.getAppendData] ∧
        faultySession.feed.Unaffected consulted s'.feed := by
  have h_hooks : faultySession.HooksRest (performTo 1) := by
    rintro hook segments ⟨⟨feed, executor⟩, scripts, names, reports, told⟩ h_scripts h_executor
    obtain rfl : scripts = faultySession.scripts := h_scripts
    obtain rfl : executor = faultySession.machine.executor := h_executor
    -- only one hook has a script, and it asks for what is recorded
    cases hook <;> rfl
  refine ⟨h_hooks, ⟨_, rfl, rfl, ?_⟩, ⟨_, rfl, rfl, ?_⟩⟩
  · obtain ⟨before, point, isPrefix, -, unaffected, -⟩ :=
      (@noEffect_of_failure _ _ _ (.async (.read 0 1 ⟨0⟩)) _ h_hooks rfl rfl).2 ⟨0⟩ _ _ rfl rfl
        (by decide)
    exact ⟨before, point, isPrefix, unaffected⟩
  · obtain ⟨consulted, isPrefix, unaffected, -⟩ :=
      (@noEffect_of_failure _ _ _ (.getAppendData ⟨1⟩ 0 1) _ h_hooks rfl rfl).1 _ rfl
        (by rintro _ _ ⟨⟩)
    exact ⟨consulted, isPrefix, unaffected⟩

end Session

end OperationFeed
