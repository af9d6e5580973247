import OperationFeed.Config
import OperationFeed.Toml.Reading

/-!
# Configurations as documents

A configuration may be written as a TOML document with the keys `auto_checkpoint_frequency` and
`ack_effective`. A key that is missing keeps its standard value, and keys of other names are passed
over. No value is taken for one of another type. What is wrong in the document, or in the value of
one of the keys, is found before the configuration is validated as a whole.
-/

namespace OperationFeed

namespace Config

/-- The key of the checkpoint frequency. -/
def frequencyKey : String := "auto_checkpoint_frequency"

/-- The key that says whether acknowledgements are effective. -/
def effectiveKey : String := "ack_effective"

/-- The checkpoint frequency in a document: an integer that is not negative. -/
def frequencyIn (entries : Toml.Entries) : Except ConfigError (Option UInt64) :=
  match entries.get? frequencyKey with
  | none => .ok standard.autoCheckpointFrequency
  | some (.integer n) =>
    if 0 ≤ n then .ok (some (.ofNat n.toNat)) else .error (.wrongType frequencyKey)
  | some _ => .error (.wrongType frequencyKey)

/-- Whether acknowledgements are effective, in a document. -/
def effectiveIn (entries : Toml.Entries) : Except ConfigError Bool :=
  match entries.get? effectiveKey with
  | none => .ok standard.ackEffective
  | some (.boolean b) => .ok b
  | some _ => .error (.wrongType effectiveKey)

/-- The configuration that a text describes. -/
def ofToml (text : String) : Except ConfigError Config := do
  match Toml.readDocument? text with
  | none => .error .malformed
  | some entries =>
    let config : Config := ⟨← frequencyIn entries, ← effectiveIn entries⟩
    config.validate
    return config

end Config

end OperationFeed
