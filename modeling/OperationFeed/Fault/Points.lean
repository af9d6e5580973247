import OperationFeed.Fault.Injector
import OperationFeed.Trace.Act

/-!
# Fault points

A *fault point* is a place in the feed where an injector may strike. At a synchronous point the
error fails the call itself; at an asynchronous one it is the result that the call's completion
already has. In neither case does the operation take effect.
-/

namespace OperationFeed

/-- Where a fault can be injected. -/
inductive FaultPoint where
  -- Adding an operation.
  | add
  -- Asking for a read.
  | readSync
  -- The result of a read.
  | readAsync
  -- Asking for an acknowledgement.
  | ackSync
  -- The result of an acknowledgement.
  | ackAsync
  -- Looking up appended bytes.
  | getAppendData
  -- The result of persisting attributes.
  | persistAttributes
  -- The result of sealing attributes.
  | sealAttributes
  -- The result of deleting attributes.
  | deleteAttributes
deriving DecidableEq

namespace FaultPoint

/-- The place of a point in the list of points. -/
def toNat : FaultPoint → Nat
  | .add => 0
  | .readSync => 1
  | .readAsync => 2
  | .ackSync => 3
  | .ackAsync => 4
  | .getAppendData => 5
  | .persistAttributes => 6
  | .sealAttributes => 7
  | .deleteAttributes => 8

instance : Ranked FaultPoint where
  rank := toNat
  rank_injective {a b} h := by cases a <;> cases b <;> first | rfl | cases h

/-- Whether a fault here fails the call, rather than its completion. -/
def isSync : FaultPoint → Bool
  | .add | .readSync | .ackSync | .getAppendData => true
  | _ => false

/-- The name of a point in events. -/
def name : FaultPoint → String
  | .add => "add"
  | .readSync => "read.sync"
  | .readAsync => "read.async"
  | .ackSync => "ack.sync"
  | .ackAsync => "ack.async"
  | .getAppendData => "get_append_data"
  | .persistAttributes => "persist_attributes"
  | .sealAttributes => "seal_attributes"
  | .deleteAttributes => "delete_all_attributes"

end FaultPoint

/-- Which injector is installed at each fault point. -/
structure FaultPoints where
  /-- The installed injectors; a point without one never fails. -/
  installed : Table FaultPoint InjectorId

namespace FaultPoints

/-- No injector anywhere. -/
def empty : FaultPoints := ⟨∅⟩

instance : EmptyCollection FaultPoints := ⟨empty⟩
instance : Inhabited FaultPoints := ⟨empty⟩

/-- The injector at a point. -/
def get? (points : FaultPoints) (point : FaultPoint) : Option InjectorId :=
  points.installed.get? point

/-- Install an injector at a point, or remove the one there. -/
def put (points : FaultPoints) (point : FaultPoint) (id : Option InjectorId) : FaultPoints :=
  match id with
  | some id => ⟨points.installed.insert point id⟩
  | none => ⟨points.installed.erase point⟩

/-- The warning that a fault strikes. -/
def faultEvent (point : FaultPoint) (error : FeedError) : Event :=
  .warn "injecting fault" [("point", .text point.name), ("error", .text error.message)]

/-- Count a call at a point with the injector installed there, and warn if it strikes. -/
def check (points : FaultPoints) (point : FaultPoint) : Act InjectorBank (Option FeedError) := do
  match points.get? point with
  | none => return none
  | some id =>
    let struck ← modifyGet (fun bank => bank.check id)
    match struck with
    | none => return none
    | some error =>
      Act.emit (faultEvent point error)
      return some error

end FaultPoints

end OperationFeed
