import Mathlib.Data.Rat.Floor
import Mathlib.Data.UInt
import PgSleuth.ForMathlib.Json

/-!
# Findings

The envelope every rule emits, from `pgsleuth-core/src/finding.rs`. The agent's only output is a
`Finding`; everything the other modules say an alarm does ends in one of these records.

## Numbers

An `f64` is modelled by the rational it stands for, with the two infinities and NaN apart. Every
operation the code performs on an `f64` before it becomes an integer — comparison, floor and the
saturating cast — is exact on these, so no rounding is lost. The two zeros are one value here, as
they are for the code's `==`.
-/

namespace PgSleuth

/-- A double, as far as the code can tell doubles apart. -/
inductive F64
  | nan
  | posInf
  | negInf
  | finite (q : ℚ)
deriving DecidableEq

/-- An instant as `chrono::DateTime<Utc>` keeps it: Unix seconds and the nanoseconds since, which
exceed a whole second inside a leap second. -/
structure DateTime where
  /-- Seconds since 1970-01-01T00:00:00Z. -/
  timestamp : ℤ
  /-- Nanoseconds since the last second. -/
  subsecNanos : Fin 2000000000
deriving DecidableEq

/-- The start of a second. -/
def DateTime.atSecond (timestamp : ℤ) : DateTime := ⟨timestamp, 0⟩

/-- `FINDING_SCHEMA_VERSION`. -/
def findingSchemaVersion : UInt32 := 1

/-- Which collection tier produced a finding. -/
inductive Tier
  | standard
  | cloudEnhanced
  | deep
deriving DecidableEq

/-- Severity of a finding. -/
inductive Severity
  | info
  | low
  | medium
  | high
  | critical
deriving DecidableEq

/-- Cluster role of a Postgres instance. -/
inductive PgRole
  | primary
  | replica
  | unknown
deriving DecidableEq

/-- The instance a finding is about. -/
structure PgInstanceRef where
  id : String
  dbName : Option String
  role : PgRole
deriving DecidableEq

/-- A structured remediation suggestion. -/
structure Remediation where
  text : String
  knobs : List String
deriving DecidableEq

/-- A typed value suitable for an `OTel` log-record attribute. -/
inductive AttributeValue
  | string (s : String)
  | int (i : Int64)
  | double (d : F64)
  | bool (b : Bool)
deriving DecidableEq

/-- A diagnostic finding emitted by a rule. -/
structure Finding where
  schemaVersion : UInt32
  ruleId : String
  ruleVersion : UInt32
  tier : Tier
  severity : Severity
  firedAt : DateTime
  pgInstance : PgInstanceRef
  summary : String
  evidence : JsonValue
  remediation : Remediation
  otelAttributes : Std.ExtTreeMap String AttributeValue

end PgSleuth
