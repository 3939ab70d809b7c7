import PgSleuth.Core.FindingText

/-!
# Findings as log records

`map_finding` from `pgsleuth-otel/src/mapping.rs`: the record a finding is emitted as. The list of
attributes is put together from the envelope, under fixed keys, and from the attributes the rule
wants on the record, under keys of its own. The text of a document belongs to `serde_json`, and is a
parameter.

## Main definitions

* `mapFinding` — the record of a finding
* `envelopeKeys` — the keys the envelope takes
* `NoShadowing` — each attribute is found under its key

## Main results

* `nodup_keys_iff` — when the keys of a record all differ
* `noShadowing_iff` — attributes do not shadow each other exactly when the rule stays clear of the
  keys of the envelope
-/

namespace PgSleuth

/-- `MAPPING_VERSION`. -/
def mappingVersion : UInt32 := 1

/-- The value of an attribute of a log record, as far as the mapping uses it. -/
inductive AnyValue
  | int (i : Int64)
  | double (d : F64)
  | string (s : String)
  | boolean (b : Bool)
deriving DecidableEq

/-- The severity number of a log record, as far as the mapping uses it. -/
inductive SeverityNumber
  | info
  | info4
  | warn
  | error
  | fatal
deriving DecidableEq

/-- A `SystemTime` that is not before the epoch. -/
structure SystemTime where
  /-- Nanoseconds since `UNIX_EPOCH`. -/
  nanosSinceEpoch : ℕ
deriving DecidableEq

/-- The record handed to the SDK. -/
structure MappedFinding where
  timestamp : SystemTime
  severityNumber : SeverityNumber
  severityText : String
  body : String
  /-- The attributes, in the order in which they are added. -/
  attributes : List (String × AnyValue)

/-- An instant before 1970 is the epoch. -/
def chronoToSystemTime (dt : DateTime) : SystemTime :=
  if 0 ≤ dt.timestamp then ⟨dt.timestamp.toNat * 1000000000 + dt.subsecNanos.val⟩ else ⟨0⟩

def mapSeverity : Severity → SeverityNumber × String
  | .info => (.info, "INFO")
  | .low => (.info4, "INFO4")
  | .medium => (.warn, "WARN")
  | .high => (.error, "ERROR")
  | .critical => (.fatal, "FATAL")

def tierStr : Tier → String
  | .standard => "standard"
  | .cloudEnhanced => "cloud_enhanced"
  | .deep => "deep"

def roleStr : PgRole → String
  | .primary => "primary"
  | .replica => "replica"
  | .unknown => "unknown"

def attributeToAny : AttributeValue → AnyValue
  | .string s => .string s
  | .int i => .int i
  | .double d => .double d
  | .bool b => .boolean b

/-- `AnyValue::Int(i64::from(n))`. -/
def AnyValue.ofU32 (n : UInt32) : AnyValue := .int (.ofNat n.toNat)

variable (render : Json → String)

/-- The attributes of the envelope. The database name is left out when there is none, and the
evidence when it is null. -/
def envelope (f : Finding) : List (String × AnyValue) :=
  [("pgsleuth.schema.version", .ofU32 f.schemaVersion),
    ("pgsleuth.mapping.version", .ofU32 mappingVersion),
    ("pgsleuth.finding.schema.version", .ofU32 findingSchemaVersion),
    ("pgsleuth.rule.id", .string f.ruleId), ("pgsleuth.rule.version", .ofU32 f.ruleVersion),
    ("pgsleuth.tier", .string (tierStr f.tier)),
    ("pgsleuth.pg.instance", .string f.pgInstance.id),
    ("pgsleuth.pg.role", .string (roleStr f.pgInstance.role))] ++
  (f.pgInstance.dbName.map fun dbName => ("db.name", .string dbName)).toList ++
  (if f.evidence.json.isNull then []
    else [("pgsleuth.evidence", .string (render f.evidence.json))]) ++
  [("pgsleuth.remediation", .string (render f.remediation.toJson))]

/-- The attributes the rule wants on the record. -/
def extraAttributes (f : Finding) : List (String × AnyValue) :=
  f.otelAttributes.toList.map fun kv => (kv.1, attributeToAny kv.2)

/-- The record of a finding. -/
def mapFinding (f : Finding) : MappedFinding where
  timestamp := chronoToSystemTime f.firedAt
  severityNumber := (mapSeverity f.severity).1
  severityText := (mapSeverity f.severity).2
  body := f.summary
  attributes := envelope render f ++ extraAttributes f

/-! ### Keys -/

/-- The keys of the envelope of a finding. -/
def envelopeKeys (f : Finding) : List String :=
  ["pgsleuth.schema.version", "pgsleuth.mapping.version", "pgsleuth.finding.schema.version",
    "pgsleuth.rule.id", "pgsleuth.rule.version", "pgsleuth.tier", "pgsleuth.pg.instance",
    "pgsleuth.pg.role"] ++
  (if f.pgInstance.dbName.isSome then ["db.name"] else []) ++
  (if f.evidence.json.isNull then [] else ["pgsleuth.evidence"]) ++ ["pgsleuth.remediation"]

theorem map_fst_envelope (f : Finding) : (envelope render f).map Prod.fst = envelopeKeys f := by
  rw [envelope, envelopeKeys]
  cases f.pgInstance.dbName <;> cases f.evidence.json.isNull <;> rfl

/-- The keys of the envelope all differ. -/
theorem nodup_envelopeKeys (f : Finding) : (envelopeKeys f).Nodup := by
  rw [envelopeKeys]
  cases f.pgInstance.dbName.isSome <;> cases f.evidence.json.isNull <;> decide

theorem map_fst_extraAttributes (f : Finding) :
    (extraAttributes f).map Prod.fst = f.otelAttributes.toList.map Prod.fst := by
  rw [extraAttributes, List.map_map]
  rfl

theorem mem_extraAttributes_iff {f : Finding} {key : String} {v : AnyValue} :
    (key, v) ∈ extraAttributes f ↔ ∃ a, f.otelAttributes[key]? = some a ∧ v = attributeToAny a := by
  simp only [extraAttributes, List.mem_map, Prod.exists, Prod.mk.injEq]
  constructor
  · rintro ⟨k, a, hmem, rfl, rfl⟩
    exact ⟨a, Std.ExtTreeMap.mem_toList_iff_getElem?_eq_some.mp hmem, rfl⟩
  · rintro ⟨a, ha, rfl⟩
    exact ⟨key, a, Std.ExtTreeMap.mem_toList_iff_getElem?_eq_some.mpr ha, rfl, rfl⟩

/-- **The keys of a record all differ** exactly when the rule stays clear of those of the
envelope. -/
theorem nodup_keys_iff (f : Finding) :
    ((mapFinding render f).attributes.map Prod.fst).Nodup ↔
      ∀ key ∈ f.otelAttributes, key ∉ envelopeKeys f := by
  rw [mapFinding, List.map_append, map_fst_envelope, map_fst_extraAttributes, List.nodup_append,
    and_iff_right (nodup_envelopeKeys f), and_iff_right (Std.ExtTreeMap.nodup_keys_toList _)]
  simp only [Std.ExtTreeMap.map_fst_toList_eq_keys, Std.ExtTreeMap.mem_keys]
  constructor
  · intro h key hkey hmem
    exact h key hmem key hkey rfl
  · rintro h key hmem _ hkey rfl
    exact h key hkey hmem

/-- The value under a key is `v`, wherever in the list one looks for it. -/
def Retrieves (attributes : List (String × AnyValue)) (key : String) (v : AnyValue) : Prop :=
  ∀ w, (key, w) ∈ attributes ↔ w = v

/-- **No attribute shadows another**: the keys of a record all differ, those of the envelope carry
the values of the envelope, and the rule's own attributes have theirs. -/
structure NoShadowing (f : Finding) : Prop where
  distinct : ((mapFinding render f).attributes.map Prod.fst).Nodup
  envelope : ∀ kv ∈ envelope render f, Retrieves (mapFinding render f).attributes kv.1 kv.2
  extra : ∀ (key : String) (a : AttributeValue), f.otelAttributes[key]? = some a →
    Retrieves (mapFinding render f).attributes key (attributeToAny a)

theorem noShadowing_of_nodup {f : Finding}
    (h : ((mapFinding render f).attributes.map Prod.fst).Nodup) : NoShadowing render f where
  distinct := h
  envelope _ hkv := Std.ExtTreeMap.mem_iff_eq_of_nodup h (List.mem_append_left _ hkv)
  extra _ a ha := Std.ExtTreeMap.mem_iff_eq_of_nodup h
    (List.mem_append_right _ (mem_extraAttributes_iff.mpr ⟨a, ha, rfl⟩))

/-- **Exactly when no attribute shadows another**: when no attribute the rule wants on the record is
under a key the envelope of this finding takes. -/
theorem noShadowing_iff (f : Finding) :
    NoShadowing render f ↔ ∀ key ∈ f.otelAttributes, key ∉ envelopeKeys f := by
  rw [← nodup_keys_iff render]
  constructor
  · intro h
    exact h.distinct
  · intro h
    exact noShadowing_of_nodup render h

/-! ### A database name given twice -/

/-- A finding about one database, whose rule wants the name of another on the record. -/
def twoDatabases : Finding where
  schemaVersion := findingSchemaVersion
  ruleId := "replica.lag.high"
  ruleVersion := 1
  tier := .standard
  severity := .high
  firedAt := .atSecond 1781276400
  pgInstance := { id := "prod-main", dbName := some "app", role := .replica }
  summary := "Replica prod-main lag 142s exceeds 60s"
  evidence := .ofJson .null
  remediation := { text := "Investigate write volume on primary", knobs := [] }
  otelAttributes := .ofList [("db.name", AttributeValue.string "postgres")]

/-- Attributes can shadow each other: `db.name` is the name of the envelope and the rule's. -/
theorem not_noShadowing :
    ¬ ∀ (render : Json → String) (f : Finding), NoShadowing render f := by
  intro h
  have hclear := (nodup_keys_iff Json.toText twoDatabases).mp (h Json.toText twoDatabases).distinct
  refine hclear "db.name" ?_ ?_
  · simp [twoDatabases]
  · simp [envelopeKeys, twoDatabases]

end PgSleuth
