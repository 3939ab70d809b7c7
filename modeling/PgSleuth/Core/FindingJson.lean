import PgSleuth.Core.Finding
import PgSleuth.ForMathlib.JsonRecord

/-!
# Findings as JSON

What the `serde` attributes of `pgsleuth-core/src/finding.rs` make of a `Finding`, and how one is
read back. Both are functions of documents here: the text of a document and the text of an instant
belong to `serde_json` and `chrono`, and are parameters.

## Main definitions

* `Finding.toJson` — the document a finding is written as
* `Finding.ofJson` — the finding a document is read as

## Main results

* `Finding.ofJson_toJson_iff` — which findings are read back from their document
-/

namespace PgSleuth

open Json

/-! ### Numbers -/

/-- A `u32`. -/
def asU32 : Json → Option UInt32
  | .int i => if 0 ≤ i ∧ i < 2 ^ 32 then some (.ofNat i.toNat) else none
  | _ => none

/-- An `i64`. -/
def asI64 : Json → Option Int64
  | .int i => if -2 ^ 63 ≤ i ∧ i < 2 ^ 63 then some (.ofInt i) else none
  | _ => none

/-- An `f64`. JSON has no text for the ones that are not finite. -/
def F64.toJson : F64 → Json
  | .finite q => .float q
  | _ => .null

/-- An `f64`, which may be written as an integer. -/
def asF64 : Json → Option F64
  | .float q => some (.finite q)
  | .int i => some (.finite (nearestDouble i))
  | _ => none

theorem asU32_toNat (n : UInt32) : asU32 (.int n.toNat) = some n := by
  have := n.toNat_lt
  rw [asU32, if_pos (by omega)]
  simp

theorem asI64_toInt (i : Int64) : asI64 (.int i.toInt) = some i := by
  have := i.toInt_lt
  have := i.le_toInt
  rw [asI64, if_pos (by omega)]
  simp

theorem asF64_toJson_eq_some_iff (d : F64) :
    asF64 d.toJson = some d ↔ ∃ q, d = .finite q := by
  cases d <;> simp [F64.toJson, asF64]

/-! ### Unit variants -/

/-- `rename_all = "lowercase"`: the name of a variant, with no separator between its words. -/
def lowercase (variant : String) : String := .ofList (variant.toList.map Char.toLower)

/-- A unit variant is written as its name. -/
def variantToJson (variant : String) : Json := .string (lowercase variant)

/-- A unit variant is read by its name. -/
def variantOfJson {α : Type*} (variants : List α) (variant : α → String) (v : Json) : Option α :=
  (asString v).bind fun s => variants.find? fun a => lowercase (variant a) = s

/-- The name of a variant. -/
def Tier.variant : Tier → String
  | .standard => "Standard"
  | .cloudEnhanced => "CloudEnhanced"
  | .deep => "Deep"

def Tier.toJson (t : Tier) : Json := variantToJson t.variant

def Tier.ofJson : Json → Option Tier :=
  variantOfJson [.standard, .cloudEnhanced, .deep] Tier.variant

/-- The name of a variant. -/
def Severity.variant : Severity → String
  | .info => "Info"
  | .low => "Low"
  | .medium => "Medium"
  | .high => "High"
  | .critical => "Critical"

def Severity.toJson (s : Severity) : Json := variantToJson s.variant

def Severity.ofJson : Json → Option Severity :=
  variantOfJson [.info, .low, .medium, .high, .critical] Severity.variant

/-- The name of a variant. -/
def PgRole.variant : PgRole → String
  | .primary => "Primary"
  | .replica => "Replica"
  | .unknown => "Unknown"

def PgRole.toJson (r : PgRole) : Json := variantToJson r.variant

def PgRole.ofJson : Json → Option PgRole :=
  variantOfJson [.primary, .replica, .unknown] PgRole.variant

@[simp] theorem Tier.ofJson_toJson (t : Tier) : Tier.ofJson t.toJson = some t := by
  cases t <;> decide

@[simp] theorem Severity.ofJson_toJson (s : Severity) : Severity.ofJson s.toJson = some s := by
  cases s <;> decide

@[simp] theorem PgRole.ofJson_toJson (r : PgRole) : PgRole.ofJson r.toJson = some r := by
  cases r <;> decide

/-! ### The parts of a finding -/

/-- The optional database name is left out when there is none. -/
def PgInstanceRef.toJson (p : PgInstanceRef) : Json :=
  .object ([("id", .string p.id)] ++
    (p.dbName.map fun dbName => ("db_name", .string dbName)).toList ++
    [("role", p.role.toJson)])

/-- A database name that is missing or null is no database name. -/
def dbNameOfJson : Option Json → Option (Option String)
  | none => some none
  | some .null => some none
  | some v => (asString v).map some

def PgInstanceRef.ofJson (v : Json) : Option PgInstanceRef := do
  let fields ← asObject v
  let id ← (requiredField fields "id").bind asString
  let dbName ← (optionalField fields "db_name").bind dbNameOfJson
  let role ← (requiredField fields "role").bind PgRole.ofJson
  return { id, dbName, role }

/-- The knobs are left out when there are none. -/
def Remediation.toJson (r : Remediation) : Json :=
  .object ([("text", .string r.text)] ++
    if r.knobs = [] then [] else [("knobs", .array (r.knobs.map .string))])

/-- Knobs that are missing are no knobs. -/
def knobsOfJson : Option Json → Option (List String)
  | none => some []
  | some v => (asArray v).bind fun vs => vs.mapM asString

def Remediation.ofJson (v : Json) : Option Remediation := do
  let fields ← asObject v
  let text ← (requiredField fields "text").bind asString
  let knobs ← (optionalField fields "knobs").bind knobsOfJson
  return { text, knobs }

/-- `tag = "type", content = "value"`. -/
def tagged (variant : String) (content : Json) : Json :=
  .object [("type", variantToJson variant), ("value", content)]

def AttributeValue.toJson : AttributeValue → Json
  | .string s => tagged "String" (.string s)
  | .int i => tagged "Int" (.int i.toInt)
  | .double d => tagged "Double" d.toJson
  | .bool b => tagged "Bool" (.bool b)

def AttributeValue.ofJson (v : Json) : Option AttributeValue := do
  let fields ← asObject v
  let tag ← (requiredField fields "type").bind asString
  let content ← requiredField fields "value"
  if tag = lowercase "String" then (asString content).map .string
  else if tag = lowercase "Int" then (asI64 content).map .int
  else if tag = lowercase "Double" then (asF64 content).map .double
  else if tag = lowercase "Bool" then (asBool content).map .bool
  else none

/-- An attribute that JSON can write. -/
def AttributeValue.Writable (a : AttributeValue) : Prop := ∀ d, a = .double d → ∃ q, d = .finite q

@[simp] theorem PgInstanceRef.ofJson_toJson (p : PgInstanceRef) :
    PgInstanceRef.ofJson p.toJson = some p := by
  obtain ⟨id, dbName, role⟩ := p
  cases dbName <;>
    simp [PgInstanceRef.ofJson, PgInstanceRef.toJson, asObject, requiredField, optionalField,
      dbNameOfJson, asString]

@[simp] theorem Remediation.ofJson_toJson (r : Remediation) :
    Remediation.ofJson r.toJson = some r := by
  obtain ⟨text, knobs⟩ := r
  cases knobs with
  | nil =>
    simp [Remediation.ofJson, Remediation.toJson, asObject, requiredField, optionalField,
      knobsOfJson, asString]
  | cons knob knobs =>
    simp [Remediation.ofJson, Remediation.toJson, asObject, requiredField, optionalField,
      knobsOfJson, asArray, asString.eq_1]

/-- What the tag of a value decides. -/
theorem AttributeValue.ofJson_tagged (variant : String) (content : Json) :
    AttributeValue.ofJson (tagged variant content) =
      if lowercase variant = lowercase "String" then (asString content).map .string
      else if lowercase variant = lowercase "Int" then (asI64 content).map .int
      else if lowercase variant = lowercase "Double" then (asF64 content).map .double
      else if lowercase variant = lowercase "Bool" then (asBool content).map .bool
      else none := by
  simp [AttributeValue.ofJson, tagged, variantToJson, asObject, requiredField, optionalField,
    asString.eq_1]

/-- **An attribute is read back** exactly when JSON can write it. -/
theorem AttributeValue.ofJson_toJson_iff (a : AttributeValue) :
    AttributeValue.ofJson a.toJson = some a ↔ a.Writable := by
  cases a with
  | string s =>
    rw [AttributeValue.toJson, ofJson_tagged, if_pos rfl]
    simp [asString, AttributeValue.Writable]
  | int i =>
    rw [AttributeValue.toJson, ofJson_tagged, if_neg (by decide), if_pos rfl]
    simp [asI64_toInt, AttributeValue.Writable]
  | double d =>
    rw [AttributeValue.toJson, ofJson_tagged, if_neg (by decide), if_neg (by decide), if_pos rfl]
    simp [AttributeValue.Writable, asF64_toJson_eq_some_iff]
  | bool b =>
    rw [AttributeValue.toJson, ofJson_tagged, if_neg (by decide), if_neg (by decide),
      if_neg (by decide), if_pos rfl]
    simp [asBool, AttributeValue.Writable]

/-- An attribute is read back or not at all. -/
theorem AttributeValue.ofJson_toJson_eq_none_or (a : AttributeValue) :
    AttributeValue.ofJson a.toJson = none ∨ AttributeValue.ofJson a.toJson = some a := by
  by_cases h : a.Writable
  · exact Or.inr (a.ofJson_toJson_iff.mpr h)
  · simp only [AttributeValue.Writable, not_forall, not_exists] at h
    obtain ⟨d, rfl, hd⟩ := h
    left
    rw [AttributeValue.toJson, ofJson_tagged, if_neg (by decide), if_neg (by decide), if_pos rfl]
    cases d with
    | finite q => exact absurd rfl (hd q)
    | nan => rfl
    | posInf => rfl
    | negInf => rfl

/-! ### Findings -/

/-- A member of the object of attributes. -/
def entryToJson (kv : String × AttributeValue) : String × Json := (kv.1, kv.2.toJson)

def entryOfJson (kv : String × Json) : Option (String × AttributeValue) :=
  (AttributeValue.ofJson kv.2).map fun a => (kv.1, a)

/-- The attributes, in key order. -/
def attributesToJson (attributes : Std.ExtTreeMap String AttributeValue) : Json :=
  .object (attributes.toList.map entryToJson)

/-- Attributes that are missing are no attributes. -/
def attributesOfJson : Option Json → Option (Std.ExtTreeMap String AttributeValue)
  | none => some ∅
  | some v => do
    let members ← asObject v
    let entries ← members.mapM entryOfJson
    return .ofList entries

/-- The fields a finding is written with, in the order of their declaration. The attributes are left
out when there are none. -/
def Finding.fields (rfc3339 : DateTime → String) (f : Finding) : List (String × Json) :=
  [("schema_version", .int f.schemaVersion.toNat), ("rule_id", .string f.ruleId),
    ("rule_version", .int f.ruleVersion.toNat), ("tier", f.tier.toJson),
    ("severity", f.severity.toJson), ("fired_at", .string (rfc3339 f.firedAt)),
    ("pg_instance", f.pgInstance.toJson), ("summary", .string f.summary),
    ("evidence", f.evidence.json), ("remediation", f.remediation.toJson)] ++
  if f.otelAttributes.isEmpty then []
  else [("otel_attributes", attributesToJson f.otelAttributes)]

/-- The document a finding is written as. -/
def Finding.toJson (rfc3339 : DateTime → String) (f : Finding) : Json := .object (f.fields rfc3339)

/-- The finding a document is read as. -/
def Finding.ofJson (parseRfc3339 : String → Option DateTime) (v : Json) : Option Finding := do
  let fields ← asObject v
  let schemaVersion ← (requiredField fields "schema_version").bind asU32
  let ruleId ← (requiredField fields "rule_id").bind asString
  let ruleVersion ← (requiredField fields "rule_version").bind asU32
  let tier ← (requiredField fields "tier").bind Tier.ofJson
  let severity ← (requiredField fields "severity").bind Severity.ofJson
  let firedAt ← (requiredField fields "fired_at").bind fun v => (asString v).bind parseRfc3339
  let pgInstance ← (requiredField fields "pg_instance").bind PgInstanceRef.ofJson
  let summary ← (requiredField fields "summary").bind asString
  let evidence ← (requiredField fields "evidence").bind fun v => some (.ofJson v)
  let remediation ← (requiredField fields "remediation").bind Remediation.ofJson
  let otelAttributes ← (optionalField fields "otel_attributes").bind attributesOfJson
  return { schemaVersion, ruleId, ruleVersion, tier, severity, firedAt, pgInstance, summary,
           evidence, remediation, otelAttributes }

/-- A finding whose attributes JSON can write. -/
def Finding.Writable (f : Finding) : Prop :=
  ∀ (key : String) (a : AttributeValue), f.otelAttributes[key]? = some a → a.Writable

/-- The member the attributes are written as. -/
def attributesField (attributes : Std.ExtTreeMap String AttributeValue) : Option Json :=
  if attributes.isEmpty then none else some (attributesToJson attributes)

theorem entryOfJson_entryToJson_iff (kv : String × AttributeValue) :
    entryOfJson (entryToJson kv) = some kv ↔ kv.2.Writable := by
  rw [← kv.2.ofJson_toJson_iff]
  simp [entryOfJson, entryToJson, Prod.ext_iff]

theorem entryOfJson_entryToJson_eq_none_or (kv : String × AttributeValue) :
    entryOfJson (entryToJson kv) = none ∨ entryOfJson (entryToJson kv) = some kv := by
  rcases kv.2.ofJson_toJson_eq_none_or with h | h <;> simp [entryOfJson, entryToJson, h]

/-- **Attributes are read back** exactly when JSON can write them. -/
theorem attributesOfJson_field_iff (attributes : Std.ExtTreeMap String AttributeValue) :
    attributesOfJson (attributesField attributes) = some attributes ↔
      ∀ (key : String) (a : AttributeValue), attributes[key]? = some a → a.Writable := by
  have hentries : attributesOfJson (some (attributesToJson attributes)) = some attributes ↔
      ∀ (key : String) (a : AttributeValue), attributes[key]? = some a → a.Writable := by
    have hread : attributesOfJson (some (attributesToJson attributes)) =
        (attributes.toList.mapM (entryOfJson ∘ entryToJson)).map (Std.ExtTreeMap.ofList ·) := by
      simp [attributesOfJson, attributesToJson, asObject, Option.map_eq_bind, Function.comp_def]
    have hall : attributes.toList.mapM (entryOfJson ∘ entryToJson) = some attributes.toList ↔
        ∀ (key : String) (a : AttributeValue), attributes[key]? = some a → a.Writable := by
      rw [List.mapM_comp_eq_some_iff]
      simp only [Prod.forall, Std.ExtTreeMap.mem_toList_iff_getElem?_eq_some,
        entryOfJson_entryToJson_iff]
    rw [hread, ← hall]
    have heach (kv : String × AttributeValue) (_ : kv ∈ attributes.toList) :=
      entryOfJson_entryToJson_eq_none_or kv
    rcases List.mapM_comp_eq_none_or heach with h | h
    · simp [h]
    · simp [h]
  rw [attributesField]
  split
  · next h =>
    rw [Std.ExtTreeMap.isEmpty_iff] at h
    simp [attributesOfJson, h]
  · exact hentries

theorem Finding.nodup_fields (rfc3339 : DateTime → String) (f : Finding) :
    ((f.fields rfc3339).map Prod.fst).Nodup := by
  rw [Finding.fields]
  split <;> simp

/-- All fields but the attributes are read back whatever they are. -/
theorem Finding.ofJson_toJson {rfc3339 : DateTime → String}
    {parseRfc3339 : String → Option DateTime} (htime : ∀ t, parseRfc3339 (rfc3339 t) = some t)
    (f : Finding) : Finding.ofJson parseRfc3339 (f.toJson rfc3339) =
      (attributesOfJson (attributesField f.otelAttributes)).map
        fun otelAttributes => { f with otelAttributes } := by
  have hkeys := f.nodup_fields rfc3339
  have hlast : optionalField (f.fields rfc3339) "otel_attributes" =
      some (attributesField f.otelAttributes) := by
    rw [attributesField]
    split
    · next h => exact optionalField_of_notMem (by simp [Finding.fields, h])
    · next h => exact optionalField_of_mem hkeys (by simp [Finding.fields, h])
  have hschema : (requiredField (f.fields rfc3339) "schema_version").bind asU32 =
      some f.schemaVersion :=
    bind_requiredField hkeys (by simp [Finding.fields]) (asU32_toNat f.schemaVersion)
  have hruleId : (requiredField (f.fields rfc3339) "rule_id").bind asString = some f.ruleId :=
    bind_requiredField hkeys (v := .string f.ruleId) (by simp [Finding.fields]) rfl
  have hruleVersion : (requiredField (f.fields rfc3339) "rule_version").bind asU32 =
      some f.ruleVersion :=
    bind_requiredField hkeys (by simp [Finding.fields]) (asU32_toNat f.ruleVersion)
  have htier : (requiredField (f.fields rfc3339) "tier").bind Tier.ofJson = some f.tier :=
    bind_requiredField hkeys (by simp [Finding.fields]) f.tier.ofJson_toJson
  have hseverity : (requiredField (f.fields rfc3339) "severity").bind Severity.ofJson =
      some f.severity :=
    bind_requiredField hkeys (by simp [Finding.fields]) f.severity.ofJson_toJson
  have hfiredAt : ((requiredField (f.fields rfc3339) "fired_at").bind
      fun v => (asString v).bind parseRfc3339) = some f.firedAt :=
    bind_requiredField hkeys (v := .string (rfc3339 f.firedAt)) (by simp [Finding.fields])
      (htime f.firedAt)
  have hpgInstance : (requiredField (f.fields rfc3339) "pg_instance").bind PgInstanceRef.ofJson =
      some f.pgInstance :=
    bind_requiredField hkeys (by simp [Finding.fields]) f.pgInstance.ofJson_toJson
  have hsummary : (requiredField (f.fields rfc3339) "summary").bind asString = some f.summary :=
    bind_requiredField hkeys (v := .string f.summary) (by simp [Finding.fields]) rfl
  have hevidence : ((requiredField (f.fields rfc3339) "evidence").bind
      fun v => some (JsonValue.ofJson v)) = some f.evidence :=
    bind_requiredField hkeys (v := f.evidence.json) (by simp [Finding.fields])
      (congrArg some f.evidence.ofJson_json)
  have hremediation : (requiredField (f.fields rfc3339) "remediation").bind Remediation.ofJson =
      some f.remediation :=
    bind_requiredField hkeys (by simp [Finding.fields]) f.remediation.ofJson_toJson
  rw [Finding.ofJson, Finding.toJson, asObject, Option.bind_eq_bind, Option.bind_some, hschema,
    hruleId, hruleVersion, htier, hseverity, hfiredAt, hpgInstance, hsummary, hevidence,
    hremediation, hlast, Option.bind_some]
  cases attributesOfJson (attributesField f.otelAttributes) <;> rfl

/-- **Which findings are read back from their document**: those whose attributes JSON can write. -/
theorem Finding.ofJson_toJson_iff {rfc3339 : DateTime → String}
    {parseRfc3339 : String → Option DateTime} (htime : ∀ t, parseRfc3339 (rfc3339 t) = some t)
    (f : Finding) : Finding.ofJson parseRfc3339 (f.toJson rfc3339) = some f ↔ f.Writable := by
  rw [Finding.ofJson_toJson htime, Finding.Writable, ← attributesOfJson_field_iff,
    Option.map_eq_some_iff]
  constructor
  · rintro ⟨attributes, h, hf⟩
    rw [h, ← congrArg Finding.otelAttributes hf]
  · intro h
    exact ⟨f.otelAttributes, h, rfl⟩

end PgSleuth
