import OperationFeed.Feed.Add
import OperationFeed.Feed.Close
import OperationFeed.Feed.Hooks
import OperationFeed.Session.Launch

/-!
# Sessions

A session is a feed with its executor, the scripts of its hooks, and names for injectors. This
module says what each call of a session does and what it is answered with (`Session.perform`), and
what a step of a session reports (`Session.step`).

A script may make calls that run a script in turn, so a call is given for every depth to which
scripts may nest (`Session.performTo`). A call of a session has more depth than an injector's count
has values (`Session.nestingLimit`).

A session writes down what it reports of a step, latest first: a call adds to the front of what the
calls before it have told, and never goes through it.
-/

namespace OperationFeed

/-- The report of a hook that was run. -/
structure HookReport where
  hook : Hook
  segments : List SegmentId
  answers : List Answer

/-- A feed and what is around it. -/
structure Session where
  machine : FeedMachine
  /-- The scripts of hooks that have one. -/
  scripts : Table Hook (List Call)
  /-- The names of injectors, latest first. -/
  injectorNames : List (String × InjectorId)
  /-- The hooks run in the current step, latest first. -/
  reports : List HookReport
  /-- The events of the current step, latest first. -/
  told : List Event

namespace Session

/-- A session with a new feed. -/
def make (metadata : Metadata) (config : Config) : Except FeedError Session := do
  let feed ← Feed.make metadata config
  return ⟨⟨feed, .fresh⟩, ∅, [], [], []⟩

/-- The feed of a session. -/
def feed (s : Session) : Feed := s.machine.state

/-! ### Acts on a part of the session -/

/-- Act on the feed and its executor. -/
def onMachine {α : Type} (a : Act FeedMachine α) : StateM Session α := do
  let s ← get
  let out := a.run s.machine
  set { s with machine := out.state, told := out.events.reverseAux s.told }
  return out.value

@[simp] theorem run_onMachine {α : Type} (a : Act FeedMachine α) (s : Session) :
    (onMachine a).run s =
      ((a.run s.machine).value,
        { s with
          machine := (a.run s.machine).state
          told := (a.run s.machine).events.reverseAux s.told }) := rfl

instance : MonadLift (Act Feed) (StateM Session) where
  monadLift a := onMachine (Machine.onState a)

/-- Change the feed. -/
def changeFeed (f : Feed → Feed) : StateM Session Unit :=
  (modify f : Act Feed Unit)

/-- Make an attempt on the feed. -/
def attempt {α : Type} (a : Attempt Feed α) : StateM Session (Except FeedError α) := liftM a.tryOut

/-! ### Injectors -/

/-- The place of the injector that has a name. -/
def injector? (s : Session) (name : String) : Option InjectorId :=
  (s.injectorNames.find? (fun p => p.1 == name)).map (·.2)

/-- Make an injector and give it a name. -/
def makeInjector (name : String) (injector : Injector) : StateM Session Unit := do
  let id ← liftM (modifyGet fun feed =>
    let (id, injectors) := feed.injectors.register injector
    (id, { feed with injectors }) : Act Feed InjectorId)
  modify fun s => { s with injectorNames := (name, id) :: s.injectorNames }

/-- Install a named injector at a fault point, or remove the one there. -/
def inject (point : FaultPoint) (name : Option String) : StateM Session Unit := do
  let id := name.bind (← get).injector?
  changeFeed fun feed => { feed with faults := feed.faults.put point id }

/-- The counts of a named injector. -/
def injectorCounts (s : Session) (name : String) : Answer :=
  .ofOption (fun i => .counts i.calls.toNat i.injected.toNat)
    ((s.injector? name).bind s.feed.injectors.get?)

/-! ### Calls -/

/-- Run a hook's script, if it has one, and report on it. The calls are made by `nested`. -/
def runHook (nested : Call → StateM Session Answer) (hook : Hook) (segments : List SegmentId) :
    StateM Session Unit := do
  if let some script := (← get).scripts.get? hook then
    let answers ← script.mapM nested
    modify fun s => { s with reports := ⟨hook, segments, answers⟩ :: s.reports }

/-- Make a call; the calls of hook scripts are made by `nested`. -/
def performWith (nested : Call → StateM Session Answer) : Call → StateM Session Answer
  | .metadata request => (Feed.onMetadata (Metadata.answer request) : Act Feed Answer)
  | .add operation =>
    return .ofResult (fun n => .number n.toNat) (← attempt (Feed.add operation))
  | .recordAppend segment offset data =>
    return .ofResult (fun _ => .nothing) (← attempt (Feed.recordAppend segment offset data))
  | .clearAppendData => do
    Feed.clearAppendData
    return .nothing
  | .getAppendData segment start length =>
    return .ofResult (Answer.ofOption .bytes)
      (← Feed.getAppendData (runHook nested .appendData []) segment start length)
  | .completeMerge target source =>
    return .ofResult (fun _ => .nothing)
      (← Feed.completeMerge (runHook nested .mergeComplete [target, source]))
  | .isTruncationPoint number => return .flag (← Feed.isTruncationPoint number)
  | .closestTruncationPoint number =>
    return .ofOption (fun n => .number n.toNat) (← Feed.closestTruncationPoint? number)
  | .segmentMetadata segment =>
    return .ofOption .segment
      (← Feed.segmentMetadata (runHook nested .segmentMetadata [segment]) segment)
  | .getAttributes segment => return .attributes ((← get).feed.attributesOf segment)
  | .setAckEffective effective => do
    changeFeed fun feed => { feed with ackEffective := effective }
    return .nothing
  | .close => do
    Feed.close
    return .nothing
  | .config => return .config (← get).feed.config
  | .container => return .number (← get).feed.metadata.store.container.toNat
  | .makeInjector name injector => do
    makeInjector name injector
    return .nothing
  | .inject point name => do
    inject point name
    return .nothing
  | .injectorCounts name => return (← get).injectorCounts name
  | .recordedCalls => return (← get).feed.metadata.recordedCalls
  | .setHook hook script => do
    modify fun s => { s with
      scripts := match script with
        | some calls => s.scripts.insert hook calls
        | none => s.scripts.erase hook }
    return .nothing
  | .async call => return .ofResult .handle (← onMachine call.perform)
  | .drop handle => do
    onMachine (Machine.onExecutor (·.drop handle))
    return .nothing

/-- Make a call, and queue the tasks it has made ready. Scripts nest at most `depth` deep; a call
that is deeper than that is not made. -/
def performTo : (depth : Nat) → Call → StateM Session Answer
  | 0, _ => return .nothing
  | depth + 1, call => do
    let answer ← performWith (performTo depth) call
    onMachine Machine.settle
    return answer

/-- How deep the scripts of hooks may nest: as deep as an injector can count. -/
def nestingLimit : Nat := UInt64.size

/-- Make a call. -/
def perform (call : Call) : StateM Session Answer := performTo nestingLimit call

/-! ### Steps -/

/-- What a step of a session reports. -/
structure Report where
  answer : Answer
  /-- The results that have come since the last report, by handle. -/
  done : List (Handle × FeedResult)
  /-- The number of the last operation in the log. -/
  last : Option SequenceNumber
  current : SequenceNumber
  markers : Nat
  isClosed : Bool
  hooks : List HookReport
  events : List Event

/-- Take a step, without a run after it. -/
def stepAlone : SessionStep → StateM Session Answer
  | .call call => perform call
  | .run => do
    onMachine Machine.runAll
    return .nothing
  | .advance milliseconds => do
    onMachine (Machine.advance milliseconds)
    return .nothing
  | .shutdown => do
    onMachine Machine.shutdown
    return .nothing

/-- Take the results that have come. -/
def takeResults : StateM Session (List (Handle × FeedResult)) := onMachine Machine.takeResults

/-- Take a step and report on it. With `autoRun`, the tasks that are due run right after it. -/
def step (autoRun : Bool) (s : SessionStep) : StateM Session Report := do
  modify fun s => { s with reports := [], told := [] }
  let answer ← stepAlone s
  if autoRun && s.letsRun then onMachine Machine.runAll
  let done ← takeResults
  let s ← get
  return {
    answer := answer
    done := done
    last := s.feed.log.lastNumber?
    current := s.feed.metadata.store.current
    markers := s.feed.metadata.store.markerCount
    isClosed := s.feed.isClosed
    hooks := s.reports.reverse
    events := s.told.reverse }

end Session

end OperationFeed
