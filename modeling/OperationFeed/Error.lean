import OperationFeed.Attribute.Store
import OperationFeed.Log.Basic
import OperationFeed.Duration

/-!
# Errors

`FeedError` lists why an operation of the feed fails, and `FeedError.message` words it. Some causes
are the caller's own fault or a broken promise of the feed, and no retry mends them: these are the
contract violations (`FeedError.isContractViolation`).
-/

namespace OperationFeed

/-- Why a configuration was refused. -/
inductive ConfigError where
  -- The text is not a valid document.
  | malformed
  -- The value of a key has another type than it should.
  | wrongType (key : String)
  -- Checkpoints were asked for after every zero operations.
  | checkpointFrequency
deriving DecidableEq

/-- The text of a configuration's refusal. -/
def ConfigError.message : ConfigError → String
  | .malformed => "TOML parse error: invalid document"
  | .wrongType key => s!"TOML parse error: invalid type of {key}"
  | .checkpointFrequency => "auto checkpoint frequency must be positive"

/-- Why an operation of the feed failed. -/
inductive FeedError where
  -- The feed has been closed.
  | closed
  -- An operation that already has a sequence number was added.
  | alreadySequenced (number : SequenceNumber)
  -- An acknowledgement names no checkpoint that the log may be cut at.
  | invalidTruncationPoint (number : SequenceNumber)
  -- The log refused a sequence number.
  | log (cause : OutOfOrder)
  -- An argument is out of bounds, as the text explains.
  | invalidArgument (reason : String)
  -- There is no such segment, or its attributes are deleted.
  | segmentNotFound (segment : SegmentId)
  -- The segment's attributes are sealed.
  | segmentSealed (segment : SegmentId)
  -- A fault was injected.
  | injected (reason : String)
  -- Nothing arrived in the time allowed.
  | timeout (limit : Duration)
  -- The wait was given up.
  | cancelled
  -- The configuration is refused.
  | config (cause : ConfigError)
deriving DecidableEq

namespace FeedError

/-- The text of an error. -/
def message : FeedError → String
  | .closed => "data source is closed"
  | .alreadySequenced number => s!"operation already has sequence number {number.toNat}"
  | .invalidTruncationPoint number =>
    s!"invalid truncation point {number.toNat}: must refer to a metadata checkpoint"
  | .log cause => "log error: " ++ cause.message
  | .invalidArgument reason => s!"invalid argument: {reason}"
  | .segmentNotFound segment => s!"segment not found: {segment}"
  | .segmentSealed segment => s!"segment sealed: {segment}"
  | .injected reason => s!"injected failure: {reason}"
  | .timeout limit => s!"timed out after {limit}"
  | .cancelled => "operation cancelled"
  | .config cause => "config error: " ++ cause.message

/-- Whether the error is misuse by the caller or a broken promise of the feed. -/
def isContractViolation : FeedError → Bool
  | .alreadySequenced _ | .invalidTruncationPoint _ | .log _ | .invalidArgument _ => true
  | _ => false

/-- The refusal of attribute deltas, as an error of the feed. -/
def ofAttributeError : AttributeError → FeedError
  | .segmentNotFound segment => .segmentNotFound segment
  | .segmentSealed segment => .segmentSealed segment

end FeedError

end OperationFeed
