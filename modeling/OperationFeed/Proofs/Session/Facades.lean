import OperationFeed.Proofs.Executor.Alike
import OperationFeed.Proofs.Feed.Facades
import OperationFeed.Session.Basic

/-!
# Scripts behind different facades

A script of calls, turns of tasks in any order, and moves of the clock comes to the same, whichever
facade stands before the store: the answers, the results of completions, and what is left in the end
are the same, but for the events and the record of calls. `Session.transparent` says so of a facade
that is traced or not, and, as long as nobody forces a number, of one that keeps a record or not.

Two sessions are *alike* if their machines are, and if they have the same scripts, names and reports
(`Session.Alike`). Which calls may be made is left open (`Session.Permits`), for a number cannot be
forced without a record, and a record that is looked at makes a difference. A hook's script may be
made of such calls only.
-/

namespace OperationFeed

variable {Q : Option CallRecord → Option CallRecord → Prop}

/-! ### Actions -/

/-- No task and no move of the executor depends on how the facades differ. -/
theorem FeedTask.indifferent (similar : CallRecord.Similarity Q) :
    Machine.Indifferent Feed FeedTask FeedResult (Feed.Alike Q) where
  turn := FeedTask.respects_turn similar
  isReady := by
    rintro feed _ ⟨metadata, -, rfl⟩ now task
    -- whether a task is ready does not depend on the metadata
    cases task <;> rfl
  abandon := FeedTask.respects_abandon

section Similar

variable (similar : CallRecord.Similarity Q)

include similar

/-- A call whose result comes later does the same on feeds that are alike. -/
theorem AsyncCall.respects_perform (call : AsyncCall) :
    call.perform.Respects (Machine.Alike (Feed.Alike Q)) := by
  refine .of_get (fun m => ?_) (by rintro m _ ⟨feed, -, rfl⟩; rfl)
  refine .bind (Machine.respects_onState (call.respects_attempt _)) fun result => ?_
  cases result with
  | error e => exact .pure _
  | ok launch => exact .bind ((FeedTask.indifferent similar).respects_start launch) fun _ => .pure _

end Similar

/-! ### Sessions -/

namespace Metadata

/-- The metadata behind a facade that is not traced. -/
def untraced (m : Metadata) : Metadata := { m with traced := false }

/-- The metadata behind a facade that is not traced and keeps no record. -/
def bare (m : Metadata) : Metadata := { m with traced := false, record := none }

/-- Metadata that are alike with the same record are the same, once tracing is hidden. -/
theorem Alike.untraced_eq {m m' : Metadata} (h : m.Alike Eq m') : m.untraced = m'.untraced := by
  rw [untraced, h.store, h.record, untraced]

/-- Metadata that are alike are the same, once tracing and the record are hidden. -/
theorem Alike.bare_eq {m m' : Metadata} (h : m.Alike Q m') : m.bare = m'.bare := by
  rw [bare, h.store, bare]

end Metadata

namespace Session

variable {allowed : Call → Prop} {α β : Type}

/-- The calls make no difference between records that are alike. -/
structure Permits (Q : Option CallRecord → Option CallRecord → Prop)
    (allowed : Call → Prop) : Prop where
  similar : CallRecord.Similarity Q
  force (number : SequenceNumber) (h : allowed (.metadata (.forceNext number))) :
    (Metadata.forceNext number).Respects (Metadata.Alike Q)
  record (h : allowed .recordedCalls) {r r' : Option CallRecord} (h_alike : Q r r') : r = r'
  script {hook : Hook} {calls : List Call} (h : allowed (.setHook hook (some calls))) :
    ∀ call ∈ calls, allowed call

/-- The machines are alike, and the same is around them; what they have told may differ. -/
structure Alike (Q : Option CallRecord → Option CallRecord → Prop) (allowed : Call → Prop)
    (s t : Session) : Prop where
  machine : s.machine.Alike (Feed.Alike Q) t.machine
  scripts : s.scripts = t.scripts
  names : s.injectorNames = t.injectorNames
  reports : s.reports = t.reports
  /-- The scripts of hooks make allowed calls. -/
  permitted : ∀ hook calls, s.scripts.get? hook = some calls → ∀ call ∈ calls, allowed call

/-- The feeds of sessions that are alike are alike. -/
theorem Alike.feed {s t : Session} (h : s.Alike Q allowed t) : s.feed.Alike Q t.feed := by
  obtain ⟨feed', h_feed, h_machine⟩ := h.machine
  unfold Session.feed
  rw [h_machine]
  exact h_feed

/-- From sessions that are alike the value is the same, and what is left is alike. -/
def Respects (Q : Option CallRecord → Option CallRecord → Prop) (allowed : Call → Prop)
    (a : StateM Session α) : Prop :=
  ∀ s t, s.Alike Q allowed t →
    (a.run s).1 = (a.run t).1 ∧ (a.run s).2.Alike Q allowed (a.run t).2

namespace Respects

theorem pure (x : α) : Respects Q allowed (Pure.pure x) := fun _ _ h => ⟨rfl, h⟩

theorem bind {a : StateM Session α} {f : α → StateM Session β} (h : Respects Q allowed a)
    (h' : ∀ x, Respects Q allowed (f x)) : Respects Q allowed (a >>= f) := by
  intro s t h_alike
  obtain ⟨h_value, h_rest⟩ := h s t h_alike
  change ((f (a.run s).1).run (a.run s).2).1 = ((f (a.run t).1).run (a.run t).2).1 ∧
    ((f (a.run s).1).run (a.run s).2).2.Alike Q allowed ((f (a.run t).1).run (a.run t).2).2
  rw [← h_value]
  exact h' (a.run s).1 _ _ h_rest

/-- An act may depend on what is the same in sessions that are alike. -/
theorem of_get {f : Session → StateM Session β}
    (h : ∀ s t, s.Alike Q allowed t → Respects Q allowed (f s))
    (h_alike : ∀ s t, s.Alike Q allowed t → f s = f t) :
    Respects Q allowed (MonadState.get >>= f) := by
  intro s t h_rel
  change ((f s).run s).1 = ((f t).run t).1 ∧ ((f s).run s).2.Alike Q allowed ((f t).run t).2
  rw [← h_alike s t h_rel]
  exact h s t h_rel s t h_rel

/-- Looking at something that is the same in sessions that are alike. -/
theorem of_view {view : Session → α} (h : ∀ s t, s.Alike Q allowed t → view s = view t) :
    Respects Q allowed (do return view (← MonadState.get)) :=
  of_get (fun _ _ _ => pure _) fun s t h_rel => congrArg _ (h s t h_rel)

theorem of_modify {f : Session → Session}
    (h : ∀ s t, s.Alike Q allowed t → (f s).Alike Q allowed (f t)) :
    Respects Q allowed (modify f) := fun s t h_rel => ⟨rfl, h s t h_rel⟩

/-- What respects the machines respects the sessions around them. -/
theorem onMachine {a : Act FeedMachine α} (h : a.Respects (Machine.Alike (Feed.Alike Q))) :
    Respects Q allowed (onMachine a) := by
  intro s t h_rel
  obtain ⟨h_value, h_machine⟩ := h _ _ h_rel.machine
  exact ⟨h_value, h_machine, h_rel.scripts, h_rel.names, h_rel.reports, h_rel.permitted⟩

theorem onFeed {a : Act Feed α} (h : a.Respects (Feed.Alike Q)) :
    Respects Q allowed (liftM a : StateM Session α) := onMachine (Machine.respects_onState h)

theorem mapM {f : α → StateM Session β} {l : List α} (h : ∀ x ∈ l, Respects Q allowed (f x)) :
    Respects Q allowed (l.mapM f) := by
  induction l with
  | nil =>
    rw [List.mapM_nil]
    exact pure []
  | cons x l ih =>
    rw [List.mapM_cons]
    refine (h x List.mem_cons_self).bind fun _ => (ih ?_).bind fun _ => pure _
    exact fun y h_y => h y (List.mem_cons_of_mem _ h_y)

end Respects

/-! ### Calls -/

section Calls

variable {nested : Call → StateM Session Answer} (permits : Permits Q allowed)
  (h_nested : ∀ call, allowed call → Respects Q allowed (nested call))

include h_nested

/-- The hook has the same script in both sessions, which makes allowed calls. -/
theorem respects_runHook (hook : Hook) (segments : List SegmentId) :
    Respects Q allowed (runHook nested hook segments) := by
  refine .of_get (fun s t h_alike => ?_) fun s t h_alike => by rw [h_alike.scripts]
  cases h_script : s.scripts.get? hook with
  | none => exact .pure _
  | some script =>
    refine .bind (.mapM fun call h_call => ?_) fun answers => .of_modify fun s t h => ?_
    · exact h_nested call (h_alike.permitted hook script h_script call h_call)
    · exact ⟨h.machine, h.scripts, h.names, congrArg (_ :: ·) h.reports, h.permitted⟩

include permits

/-- A look-up does the same on both sides of its hook. -/
theorem respects_getAppendData (segment : SegmentId) (start : UInt64) (length : Nat) :
    Respects Q allowed
      (Feed.getAppendData (runHook nested .appendData []) segment start length) := by
  refine .bind (.onFeed Feed.respects_admitLookup) fun admitted => ?_
  cases admitted with
  | error e => exact .pure _
  | ok =>
    -- the hook runs only if the look-up is let in
    refine .bind (respects_runHook h_nested _ _) fun _ => ?_
    exact .onFeed (Feed.respects_lookUpBytes permits.similar segment start length)

/-- Every allowed call comes to the same, if the calls of its hooks do. -/
theorem respects_performWith {call : Call} (h_call : allowed call) :
    Respects Q allowed (performWith nested call) := by
  cases call with
  | metadata request =>
    refine .onFeed (Feed.respects_onMetadata (Metadata.respects_answer permits.similar ?_))
    rintro number rfl
    -- the one request that may come to something else
    exact permits.force number h_call
  | add op => exact .bind (.onFeed (Feed.respects_add permits.similar op)) fun _ => .pure _
  | recordAppend segment offset data =>
    exact .bind (.onFeed (Feed.respects_recordAppend segment offset data)) fun _ => .pure _
  | clearAppendData => exact .bind (.onFeed Feed.respects_clearAppendData) fun _ => .pure _
  | getAppendData segment start length =>
    exact .bind (respects_getAppendData permits h_nested segment start length) fun _ => .pure _
  | completeMerge target source =>
    refine .bind (.bind (.onFeed Feed.respects_requireOpen) fun admitted => ?_) fun _ => .pure _
    cases admitted with
    | error e => exact .pure _
    | ok => exact .bind (respects_runHook h_nested _ _) fun _ => .pure _
  | isTruncationPoint number =>
    exact .bind (.onFeed (Feed.respects_isTruncationPoint number)) fun _ => .pure _
  | closestTruncationPoint number =>
    refine .bind (.onFeed (Feed.respects_onMetadata ?_)) fun _ => .pure _
    exact Metadata.respects_get (·.closestPoint? number)
  | segmentMetadata segment =>
    refine .bind (.bind (respects_runHook h_nested _ _) fun _ => ?_) fun _ => .pure _
    exact .onFeed (Feed.respects_segmentInfo? permits.similar segment)
  | getAttributes segment =>
    refine .of_view fun s t h => ?_
    obtain ⟨metadata, -, h_feed⟩ := h.feed
    rw [h_feed]
    rfl
  | setAckEffective effective =>
    exact .bind (.onFeed (Feed.respects_of_apart fun _ _ => rfl)) fun _ => .pure _
  | close => exact .bind (.onFeed Feed.respects_close) fun _ => .pure _
  | config =>
    refine .of_view fun s t h => ?_
    obtain ⟨metadata, -, h_feed⟩ := h.feed
    rw [h_feed]
    rfl
  | container =>
    refine .of_view fun s t h => ?_
    obtain ⟨metadata, h_metadata, h_feed⟩ := h.feed
    rw [h_feed, h_metadata.store]
    rfl
  | makeInjector name injector =>
    refine .bind (.bind (.onFeed (Feed.respects_of_apart fun _ _ => rfl)) fun id => ?_) fun _ =>
      .pure _
    exact .of_modify fun s t h =>
      ⟨h.machine, h.scripts, congrArg (_ :: ·) h.names, h.reports, h.permitted⟩
  | inject point name =>
    refine .bind (.of_get (fun s t h => ?_) fun s t h => ?_) fun _ => .pure _
    · exact .onFeed (Feed.respects_of_apart fun _ _ => rfl)
    · have h_id : s.injector? = t.injector? := by
        funext name
        rw [injector?, h.names, injector?]
      rw [h_id]
  | injectorCounts name =>
    refine .of_view fun s t h => ?_
    obtain ⟨metadata, -, h_feed⟩ := h.feed
    rw [Session.injectorCounts, Session.injectorCounts, injector?, injector?, h.names, h_feed]
    rfl
  | recordedCalls =>
    refine .of_view fun s t h => ?_
    obtain ⟨metadata, h_metadata, h_feed⟩ := h.feed
    -- the record is looked at only if it is the same
    have h_record := permits.record h_call h_metadata.record
    rw [h_feed]
    unfold Metadata.recordedCalls
    rw [h_record]
    rfl
  | setHook hook script =>
    refine .bind (.of_modify fun s t h => ⟨h.machine, ?_, h.names, h.reports, ?_⟩) fun _ => .pure _
    · rw [h.scripts]
    · intro other calls h_get
      cases script with
      | some script =>
        dsimp only at h_get
        rw [Table.get?_insert] at h_get
        split at h_get
        · cases h_get
          -- the script that is set is made of allowed calls
          exact permits.script h_call
        · exact h.permitted other calls h_get
      | none =>
        dsimp only at h_get
        rw [Table.get?_erase] at h_get
        split at h_get
        · cases h_get
        · exact h.permitted other calls h_get
  | async call =>
    exact .bind (.onMachine (AsyncCall.respects_perform permits.similar call)) fun _ => .pure _
  | drop handle => exact .bind (.onMachine (Machine.respects_onExecutor _)) fun _ => .pure _

end Calls

/-! ### Steps and scripts -/

/-- The report without the events. -/
def Report.silent (report : Report) : Report := { report with events := [] }

/-- As `Respects`, for values as they are seen through a function. -/
def RespectsFor {γ : Type} (view : α → γ) (Q : Option CallRecord → Option CallRecord → Prop)
    (allowed : Call → Prop) (a : StateM Session α) : Prop :=
  ∀ s t, s.Alike Q allowed t →
    view (a.run s).1 = view (a.run t).1 ∧ (a.run s).2.Alike Q allowed (a.run t).2

/-- The last value is what is seen. -/
theorem RespectsFor.bind {γ : Type} {view : β → γ} {a : StateM Session α} {f : α → StateM Session β}
    (h : Respects Q allowed a) (h' : ∀ x, RespectsFor view Q allowed (f x)) :
    RespectsFor view Q allowed (a >>= f) := by
  intro s t h_alike
  obtain ⟨h_value, h_rest⟩ := h s t h_alike
  change view ((f (a.run s).1).run (a.run s).2).1 = view ((f (a.run t).1).run (a.run t).2).1 ∧
    ((f (a.run s).1).run (a.run s).2).2.Alike Q allowed ((f (a.run t).1).run (a.run t).2).2
  rw [← h_value]
  exact h' (a.run s).1 _ _ h_rest

/-- What a script may ask for: a step, which is reported, or a single move of the executor. -/
inductive ScriptItem where
  -- Take a step.
  | step (step : SessionStep)
  -- Make a move, such as the turn of a task out of its order.
  | move (move : ExecutorMove)

/-- Do what the script asks for, and report on it if it is a step. -/
def ScriptItem.run (autoRun : Bool) : ScriptItem → StateM Session (Option Report)
  | .step s => return some (← Session.step autoRun s)
  | .move m => do
    onMachine (Machine.move m)
    return none

section Steps

variable (permits : Permits Q allowed)

include permits

/-- A call comes to the same, however deep the scripts of its hooks nest. -/
theorem respects_performTo (depth : Nat) {call : Call} (h_call : allowed call) :
    Respects Q allowed (performTo depth call) := by
  induction depth generalizing call with
  | zero => exact .pure _
  | succ depth ih =>
    refine .bind (respects_performWith permits (fun _ h => ih h) h_call) fun _ => ?_
    exact .bind (.onMachine (FeedTask.indifferent permits.similar).respects_settle) fun _ => .pure _

/-- A step makes an allowed call, or only moves the executor. -/
theorem respects_stepAlone {step : SessionStep}
    (h_step : ∀ call, step = .call call → allowed call) : Respects Q allowed (stepAlone step) := by
  have indifferent := FeedTask.indifferent permits.similar
  cases step with
  | call call => exact respects_performTo permits _ (h_step call rfl)
  | run => exact .bind (.onMachine indifferent.respects_runAll) fun _ => .pure _
  | advance milliseconds =>
    exact .bind (.onMachine (indifferent.respects_advance milliseconds)) fun _ => .pure _
  | shutdown => exact .bind (.onMachine indifferent.respects_shutdown) fun _ => .pure _

/-- A step is answered with the same report, but for the events. -/
theorem respects_step (autoRun : Bool) {step : SessionStep}
    (h_step : ∀ call, step = .call call → allowed call) :
    RespectsFor Report.silent Q allowed (Session.step autoRun step) := by
  have clear : Respects Q allowed (modify fun s => { s with reports := [], told := [] }) :=
    .of_modify fun s t h => ⟨h.machine, h.scripts, h.names, rfl, h.permitted⟩
  have take : Respects Q allowed takeResults :=
    .onMachine (Machine.respects_of_executor (fun _ _ => rfl) fun _ => rfl)
  have report : ∀ answer done, RespectsFor Report.silent Q allowed (do
      let s ← get
      return {
        answer := answer
        done := done
        last := s.feed.log.lastNumber?
        current := s.feed.metadata.store.current
        markers := s.feed.metadata.store.markerCount
        isClosed := s.feed.isClosed
        hooks := s.reports.reverse
        events := s.told.reverse }) := by
    intro answer done s t h
    refine ⟨?_, h⟩
    obtain ⟨metadata, h_metadata, h_feed⟩ := h.feed
    change Report.silent ⟨answer, done, s.feed.log.lastNumber?, s.feed.metadata.store.current,
        s.feed.metadata.store.markerCount, s.feed.isClosed, s.reports.reverse, _⟩ =
      Report.silent ⟨answer, done, t.feed.log.lastNumber?, t.feed.metadata.store.current,
        t.feed.metadata.store.markerCount, t.feed.isClosed, t.reports.reverse, _⟩
    -- the report says nothing of the facade, but for the events
    rw [h_feed, h_metadata.store, h.reports]
    rfl
  refine .bind clear fun _ => .bind (respects_stepAlone permits h_step) fun answer => ?_
  dsimp only
  split
  · refine .bind (.onMachine (FeedTask.indifferent permits.similar).respects_runAll) fun _ => ?_
    exact .bind take fun done => report answer done
  · exact .bind take fun done => report answer done

/-- An item of a script comes to the same, be it a step or a move. -/
theorem respects_run (autoRun : Bool) {item : ScriptItem}
    (h_item : ∀ call, item = .step (.call call) → allowed call) :
    RespectsFor (Option.map Report.silent) Q allowed (item.run autoRun) := by
  intro s t h
  cases item with
  | step step =>
    obtain ⟨h_report, h_alike⟩ :=
      respects_step permits autoRun (fun call h_call => h_item call (congrArg _ h_call)) s t h
    exact ⟨congrArg some h_report, h_alike⟩
  | move move =>
    have h_move := (FeedTask.indifferent permits.similar).respects_move move
    exact ⟨rfl, (Respects.onMachine h_move s t h).2⟩

/-- All the items of a script come to the same, one after another. -/
theorem respects_script (autoRun : Bool) {script : List ScriptItem}
    (h_script : ∀ call, .step (.call call) ∈ script → allowed call) :
    RespectsFor (List.map (Option.map Report.silent)) Q allowed
      (script.mapM (ScriptItem.run autoRun)) := by
  induction script with
  | nil =>
    intro s t h
    rw [List.mapM_nil]
    exact ⟨rfl, h⟩
  | cons item rest ih =>
    intro s t h
    obtain ⟨h_report, h_alike⟩ := respects_run permits autoRun
      (fun call h_call => h_script call (h_call ▸ List.mem_cons_self)) s t h
    obtain ⟨h_reports, h_final⟩ :=
      ih (fun call h_call => h_script call (List.mem_cons_of_mem _ h_call)) _ _ h_alike
    rw [List.mapM_cons]
    exact ⟨List.cons_eq_cons.mpr ⟨h_report, h_reports⟩, h_final⟩

end Steps

/-! ### Whole scripts -/

/-- What comes of a script on a new feed: the reports, and the session in the end. -/
def play (config : Config) (autoRun : Bool) (script : List ScriptItem) (metadata : Metadata) :
    Except FeedError (List (Option Report) × Session) :=
  (make metadata config).map (script.mapM (ScriptItem.run autoRun)).run

/-- The session with a part of its facade hidden, and without what it has told. -/
def behind (hide : Metadata → Metadata) (s : Session) : Session :=
  { s with
    machine := { s.machine with state := s.feed.withMetadata (hide s.feed.metadata) }
    told := [] }

/-- Sessions that are alike are the same, once it is hidden how their facades differ. -/
theorem Alike.behind_eq {hide : Metadata → Metadata} {s t : Session} (h : s.Alike Q allowed t)
    (h_hide : ∀ m m', m.Alike Q m' → hide m = hide m') : s.behind hide = t.behind hide := by
  obtain ⟨_, ⟨metadata, h_metadata, rfl⟩, h_machine⟩ := h.machine
  have h_feed : t.feed = s.feed.withMetadata metadata := congrArg Machine.state h_machine
  have h_hidden :
      s.feed.withMetadata (hide s.feed.metadata) = t.feed.withMetadata (hide t.feed.metadata) := by
    rw [h_feed]
    exact congrArg s.feed.withMetadata (h_hide _ _ h_metadata)
  unfold behind
  rw [h_hidden, h.scripts, h.names, h.reports, h_machine]

/-- What is seen of the outcome of a script, with a part of the facade hidden,
and without events. -/
def seen (hide : Metadata → Metadata) (out : List (Option Report) × Session) :
    List (Option Report) × Session :=
  (out.1.map (Option.map Report.silent), out.2.behind hide)

/-- A script comes to the same behind both facades, once it is hidden how they differ. -/
theorem Permits.play_eq (permits : Permits Q allowed) {m m' : Metadata} (h : m.Alike Q m')
    {hide : Metadata → Metadata} (h_hide : ∀ m m', m.Alike Q m' → hide m = hide m')
    (config : Config) (autoRun : Bool) {script : List ScriptItem}
    (h_script : ∀ call, .step (.call call) ∈ script → allowed call) :
    (play config autoRun script m).map (seen hide) =
      (play config autoRun script m').map (seen hide) := by
  unfold play make Feed.make
  -- a feed is made of either or of none, as the configuration is checked alone
  cases config.validate with
  | error e => rfl
  | ok =>
    have same : ∀ s t : Session, s.Alike Q allowed t →
        seen hide ((script.mapM (ScriptItem.run autoRun)).run s) =
          seen hide ((script.mapM (ScriptItem.run autoRun)).run t) := by
      intro s t h_alike
      obtain ⟨h_reports, h_final⟩ := respects_script permits autoRun h_script s t h_alike
      exact Prod.ext h_reports (h_final.behind_eq h_hide)
    refine congrArg Except.ok (same _ _ ⟨⟨_, ⟨m', h, rfl⟩, rfl⟩, rfl, rfl, rfl, ?_⟩)
    -- a new session has no scripts
    rintro hook calls ⟨⟩

/-- A facade that keeps no record has the call as well; and what is said of the call is said of the
calls that it puts into the script of a hook. -/
inductive NeedsNoRecord : Call → Prop
  | setHook {hook : Hook} {script : Option (List Call)}
      (calls : ∀ calls, script = some calls → ∀ call ∈ calls, NeedsNoRecord call) :
      NeedsNoRecord (.setHook hook script)
  | other {call : Call} (notForced : ∀ number, call ≠ .metadata (.forceNext number))
      (notRecorded : call ≠ .recordedCalls) (notHook : ∀ hook script, call ≠ .setHook hook script) :
      NeedsNoRecord call

/-- Every call is allowed if the records are the same. -/
theorem permits_all : Permits Eq fun _ => True where
  similar := CallRecord.similarity_eq
  force number _ := Metadata.respects_forceNext number
  record _ := id
  script _ _ _ := trivial

/-- Between a record and none, all calls are allowed that need no record. -/
theorem permits_needsNoRecord : Permits CallRecord.NothingForced NeedsNoRecord where
  similar := CallRecord.similarity_nothingForced
  force number h := by
    cases h with
    | other notForced notRecorded notHook => exact absurd rfl (notForced number)
  record h := by
    cases h with
    | other notForced notRecorded notHook => exact absurd rfl notRecorded
  script h := by
    cases h with
    | setHook calls => exact calls _ rfl
    | other notForced notRecorded notHook => exact absurd rfl (notHook _ _)

/-- Every script comes to the same behind a facade that is traced as behind one that is not, be
there a record or not. And if nobody forces a number, it comes to the same behind a facade that
keeps a record as behind one that keeps none, but for the record. -/
theorem transparent (config : Config) (autoRun : Bool) (script : List ScriptItem)
    (metadata : Metadata) :
    (∀ traced, (play config autoRun script { metadata with traced }).map (seen Metadata.untraced) =
      (play config autoRun script metadata).map (seen Metadata.untraced)) ∧
    (metadata.record.bind (·.forced) = none →
      (∀ call, .step (.call call) ∈ script → NeedsNoRecord call) →
      (play config autoRun script { metadata with record := none }).map (seen Metadata.bare) =
        (play config autoRun script metadata).map (seen Metadata.bare)) := by
  constructor
  · intro traced
    have h_alike : Metadata.Alike Eq { metadata with traced } metadata := ⟨rfl, rfl⟩
    exact permits_all.play_eq h_alike (fun _ _ => Metadata.Alike.untraced_eq) config autoRun
      fun _ _ => trivial
  · intro h_forced h_script
    have h_alike :
        Metadata.Alike CallRecord.NothingForced { metadata with record := none } metadata :=
      ⟨rfl, rfl, h_forced⟩
    exact permits_needsNoRecord.play_eq h_alike (fun _ _ => Metadata.Alike.bare_eq) config autoRun
      h_script

/-- A number that is taken from outside, a checkpoint, a hook that looks at the configuration, a
look-up that runs it, and an acknowledgement, which is carried out after the sealing that was asked
for later. -/
def facadeScript : List ScriptItem :=
  [.step (.call (.metadata .next)), .step (.call (.add .checkpoint)),
    .step (.call (.setHook .appendData (some [.config]))),
    .step (.call (.getAppendData ⟨1⟩ 0 1)), .step (.call (.async (.acknowledge 2))),
    .step (.call (.async (.sealAttributes ⟨1⟩))), .move (.turn 1), .move (.turn 0)]

/-- A store alone does the same as one behind a record, and so does one that is traced besides. -/
theorem transparent_of_facadeScript :
    (∀ call, .step (.call call) ∈ facadeScript → NeedsNoRecord call) ∧
    (play .standard false facadeScript (.fresh .tracedRecorded 1)).map (seen Metadata.untraced) =
      (play .standard false facadeScript (.fresh .recorded 1)).map (seen Metadata.untraced) ∧
    (play .standard false facadeScript (.fresh .plain 1)).map (seen Metadata.bare) =
      (play .standard false facadeScript (.fresh .recorded 1)).map (seen Metadata.bare) := by
  have h_calls : ∀ call, .step (.call call) ∈ facadeScript → NeedsNoRecord call := by
    have h_config : NeedsNoRecord .config := .other nofun nofun nofun
    intro call h_call
    simp only [facadeScript, List.mem_cons, ScriptItem.step.injEq, SessionStep.call.injEq,
      List.not_mem_nil, or_false, reduceCtorEq] at h_call
    rcases h_call with rfl | rfl | rfl | rfl | rfl | rfl
    · exact .other nofun nofun nofun
    · exact .other nofun nofun nofun
    · refine .setHook ?_
      rintro calls ⟨⟩ call h_mem
      rwa [List.mem_singleton.mp h_mem]
    · exact .other nofun nofun nofun
    · exact .other nofun nofun nofun
    · exact .other nofun nofun nofun
  obtain ⟨traced, recorded⟩ := transparent .standard false facadeScript (.fresh .recorded 1)
  exact ⟨h_calls, traced true, recorded rfl h_calls⟩

end Session

end OperationFeed
