import OperationFeed.Error

/-!
# Configuration

A feed may insert checkpoints of its own after so many operations, and may be told to let
acknowledgements pass without cutting the log.
-/

namespace OperationFeed

/-- How a feed behaves. -/
structure Config where
  /-- Insert a checkpoint after this many operations, or never. -/
  autoCheckpointFrequency : Option UInt64
  /-- Whether acknowledgements cut the log. -/
  ackEffective : Bool
deriving DecidableEq

namespace Config

/-- No checkpoints of its own, and effective acknowledgements. -/
def standard : Config := ⟨none, true⟩

instance : Inhabited Config := ⟨standard⟩

/-- Insert a checkpoint after this many operations. -/
def withAutoCheckpointFrequency (c : Config) (frequency : UInt64) : Config :=
  { c with autoCheckpointFrequency := some frequency }

/-- Let acknowledgements cut the log, or not. -/
def withAckEffective (c : Config) (effective : Bool) : Config :=
  { c with ackEffective := effective }

/-- Refuse a checkpoint after every zero operations. -/
def validate (c : Config) : Except ConfigError Unit :=
  if c.autoCheckpointFrequency = some 0 then .error .checkpointFrequency else .ok ()

end Config

end OperationFeed
