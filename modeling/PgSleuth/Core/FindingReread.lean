import PgSleuth.Core.FindingText

/-!
# Findings that were read

A document that is read as a finding need not be one that a finding is written as. `serde` takes a
record as an object, with its members in any order and others among them, or as the array of its
fields; it takes a tier as a string or as the key of a null; the evidence may hold a key twice, and
a double may be written as an integer. What has been read is written in one form, and that form is
read back.

## Main definitions

* `Finding.deserialize` — the finding a document is read as, whatever its form
* `ReadsBackExactly` — what `serde_json` does with the text of a document

## Main results

* `Finding.deserialize_of_ofJson` — the form that is written is one of those that are read
* `Finding.exists_deserialize_iff` — the findings that can be read are those that survive being
  written
-/

namespace PgSleuth

open Json

/-- What `serde_json` does with the text of a document all of whose doubles it gets right: it reads
it back, unless it is nested too deeply, and then it refuses it. Without its feature
`float_roundtrip` the crate reads some doubles as a neighbour, so which ones it gets right is a
parameter. -/
structure ReadsBackExactly (exact : ℚ → Prop) (toString : Json → String)
    (fromStr : String → Option Json) : Prop where
  reads : ∀ v : Json, v.FitsWords → v.FloatsIn exact → v.depth ≤ recursionLimit →
    fromStr (toString v) = some v
  refuses : ∀ v : Json, v.FitsWords → recursionLimit < v.depth → fromStr (toString v) = none

/-! ### The reader -/

/-- A unit variant is read by its name. -/
def deserializeVariant {α : Type*} (variants : List α) (variant : α → String) (v : Json) :
    Option α :=
  (asUnitVariant v).bind fun s => variants.find? fun a => lowercase (variant a) = s

def Tier.deserialize : Json → Option Tier :=
  deserializeVariant [.standard, .cloudEnhanced, .deep] Tier.variant

def Severity.deserialize : Json → Option Severity :=
  deserializeVariant [.info, .low, .medium, .high, .critical] Severity.variant

def PgRole.deserialize : Json → Option PgRole :=
  deserializeVariant [.primary, .replica, .unknown] PgRole.variant

def PgInstanceRef.deserialize (v : Json) : Option PgInstanceRef := do
  let fields ← asRecord ["id", "db_name", "role"] v
  let id ← (requiredField fields "id").bind asString
  let dbName ← (optionalField fields "db_name").bind dbNameOfJson
  let role ← (requiredField fields "role").bind PgRole.deserialize
  return { id, dbName, role }

def Remediation.deserialize (v : Json) : Option Remediation := do
  let fields ← asRecord ["text", "knobs"] v
  let text ← (requiredField fields "text").bind asString
  let knobs ← (optionalField fields "knobs").bind knobsOfJson
  return { text, knobs }

def AttributeValue.deserialize (v : Json) : Option AttributeValue := do
  let fields ← asRecord ["type", "value"] v
  let tag ← (requiredField fields "type").bind asUnitVariant
  let content ← requiredField fields "value"
  if tag = lowercase "String" then (asString content).map .string
  else if tag = lowercase "Int" then (asI64 content).map .int
  else if tag = lowercase "Double" then (asF64 content).map .double
  else if tag = lowercase "Bool" then (asBool content).map .bool
  else none

/-- A member of the object of attributes. A map is read from an object and from nothing else. -/
def deserializeEntry (kv : String × Json) : Option (String × AttributeValue) :=
  (AttributeValue.deserialize kv.2).map fun a => (kv.1, a)

/-- Attributes that are missing are no attributes. -/
def deserializeAttributes : Option Json → Option (Std.ExtTreeMap String AttributeValue)
  | none => some ∅
  | some v => do
    let members ← asObject v
    let entries ← members.mapM deserializeEntry
    return .ofList entries

/-- The names of the fields, in the order of their declaration. -/
def Finding.fieldNames : List String :=
  ["schema_version", "rule_id", "rule_version", "tier", "severity", "fired_at", "pg_instance",
    "summary", "evidence", "remediation", "otel_attributes"]

/-- The finding a document is read as. -/
def Finding.deserialize (parseRfc3339 : String → Option DateTime) (v : Json) : Option Finding := do
  let fields ← asRecord fieldNames v
  let schemaVersion ← (requiredField fields "schema_version").bind asU32
  let ruleId ← (requiredField fields "rule_id").bind asString
  let ruleVersion ← (requiredField fields "rule_version").bind asU32
  let tier ← (requiredField fields "tier").bind Tier.deserialize
  let severity ← (requiredField fields "severity").bind Severity.deserialize
  let firedAt ← (requiredField fields "fired_at").bind fun v => (asString v).bind parseRfc3339
  let pgInstance ← (requiredField fields "pg_instance").bind PgInstanceRef.deserialize
  let summary ← (requiredField fields "summary").bind asString
  let evidence ← (requiredField fields "evidence").bind fun v => some (.ofJson v)
  let remediation ← (requiredField fields "remediation").bind Remediation.deserialize
  let otelAttributes ← (optionalField fields "otel_attributes").bind deserializeAttributes
  return { schemaVersion, ruleId, ruleVersion, tier, severity, firedAt, pgInstance, summary,
           evidence, remediation, otelAttributes }

/-! ### The form that is written -/

theorem deserializeVariant_of_variantOfJson {α : Type*} {variants : List α} {variant : α → String}
    {v : Json} {a : α} (h : variantOfJson variants variant v = some a) :
    deserializeVariant variants variant v = some a :=
  Option.bind_eq_some_of_le (fun _ => asUnitVariant_of_asString) (fun _ _ => id) a h

/-- A field is read in more forms when its value is. -/
theorem bind_requiredField_of_le {α : Type*} {read read' : Json → Option α}
    (h : ∀ v a, read v = some a → read' v = some a) (fields : List (String × Json)) (name : String)
    (a : α) (hread : (requiredField fields name).bind read = some a) :
    (requiredField fields name).bind read' = some a :=
  Option.bind_eq_some_of_le (fun _ => id) h a hread

theorem PgInstanceRef.deserialize_of_ofJson (v : Json) (p : PgInstanceRef)
    (h : PgInstanceRef.ofJson v = some p) : PgInstanceRef.deserialize v = some p := by
  refine Option.bind_eq_some_of_le (fun _ => asRecord_of_asObject _) (fun fields => ?_) p h
  refine Option.bind_eq_some_of_le (fun _ h => h) fun id => ?_
  refine Option.bind_eq_some_of_le (fun _ h => h) fun dbName => ?_
  exact Option.bind_eq_some_of_le
    (bind_requiredField_of_le (fun _ _ => deserializeVariant_of_variantOfJson) fields "role")
    fun _ _ h => h

theorem Remediation.deserialize_of_ofJson (v : Json) (r : Remediation)
    (h : Remediation.ofJson v = some r) : Remediation.deserialize v = some r :=
  Option.bind_eq_some_of_le (fun _ => asRecord_of_asObject _) (fun _ _ => id) r h

theorem AttributeValue.deserialize_of_ofJson (v : Json) (a : AttributeValue)
    (h : AttributeValue.ofJson v = some a) : AttributeValue.deserialize v = some a := by
  refine Option.bind_eq_some_of_le (fun _ => asRecord_of_asObject _) (fun fields => ?_) a h
  exact Option.bind_eq_some_of_le
    (bind_requiredField_of_le (fun _ _ => asUnitVariant_of_asString) fields "type") fun _ _ => id

theorem deserializeAttributes_of_ofJson (v : Option Json)
    (attributes : Std.ExtTreeMap String AttributeValue) (h : attributesOfJson v = some attributes) :
    deserializeAttributes v = some attributes := by
  cases v with
  | none => exact h
  | some v =>
    refine Option.bind_eq_some_of_le (fun _ => id) (fun members => ?_) attributes h
    refine Option.bind_eq_some_of_le (fun entries hentries => ?_) fun _ _ => id
    refine List.mapM_eq_some_of_le (fun kv entry hentry => ?_) hentries
    obtain ⟨a, ha, rfl⟩ := Option.map_eq_some_iff.mp hentry
    exact Option.map_eq_some_iff.mpr ⟨a, AttributeValue.deserialize_of_ofJson _ a ha, rfl⟩

section reread

variable {rfc3339 : DateTime → String} {parseRfc3339 : String → Option DateTime}

/-- **The form that is written** is one of those that are read. -/
theorem Finding.deserialize_of_ofJson (v : Json) (f : Finding)
    (h : Finding.ofJson parseRfc3339 v = some f) :
    Finding.deserialize parseRfc3339 v = some f := by
  refine Option.bind_eq_some_of_le (fun _ => asRecord_of_asObject _) (fun fields => ?_) f h
  refine Option.bind_eq_some_of_le (fun _ h => h) fun schemaVersion => ?_
  refine Option.bind_eq_some_of_le (fun _ h => h) fun ruleId => ?_
  refine Option.bind_eq_some_of_le (fun _ h => h) fun ruleVersion => ?_
  refine Option.bind_eq_some_of_le (bind_requiredField_of_le
    (fun _ _ => deserializeVariant_of_variantOfJson) fields "tier") fun tier => ?_
  refine Option.bind_eq_some_of_le (bind_requiredField_of_le
    (fun _ _ => deserializeVariant_of_variantOfJson) fields "severity") fun severity => ?_
  refine Option.bind_eq_some_of_le (fun _ h => h) fun firedAt => ?_
  refine Option.bind_eq_some_of_le (bind_requiredField_of_le
    PgInstanceRef.deserialize_of_ofJson fields "pg_instance") fun pgInstance => ?_
  refine Option.bind_eq_some_of_le (fun _ h => h) fun summary => ?_
  refine Option.bind_eq_some_of_le (fun _ h => h) fun evidence => ?_
  refine Option.bind_eq_some_of_le (bind_requiredField_of_le
    Remediation.deserialize_of_ofJson fields "remediation") fun remediation => ?_
  exact Option.bind_eq_some_of_le (Option.bind_eq_some_of_le (fun _ h => h)
    deserializeAttributes_of_ofJson) fun _ _ h => h

/-! ### What has been read -/

theorem asF64_eq_finite {v : Json} {d : F64} (h : asF64 v = some d) : ∃ q, d = .finite q := by
  cases v with
  | float q => exact ⟨q, (Option.some.inj h).symm⟩
  | int i => exact ⟨nearestDouble i, (Option.some.inj h).symm⟩
  | _ => cases h

/-- An attribute that was read can be written. -/
theorem AttributeValue.writable_of_deserialize {v : Json} {a : AttributeValue}
    (h : AttributeValue.deserialize v = some a) : a.Writable := by
  obtain ⟨fields, -, h⟩ := Option.bind_eq_some_iff.mp h
  obtain ⟨tag, -, h⟩ := Option.bind_eq_some_iff.mp h
  obtain ⟨content, -, h⟩ := Option.bind_eq_some_iff.mp h
  rintro d rfl
  split at h
  · obtain ⟨s, -, hs⟩ := Option.map_eq_some_iff.mp h
    cases hs
  split at h
  · obtain ⟨i, -, hi⟩ := Option.map_eq_some_iff.mp h
    cases hi
  split at h
  · obtain ⟨d', hd', hd⟩ := Option.map_eq_some_iff.mp h
    cases hd
    exact asF64_eq_finite hd'
  split at h
  · obtain ⟨b, -, hb⟩ := Option.map_eq_some_iff.mp h
    cases hb
  · cases h

/-- All of the attributes can be, when they are read. -/
theorem writable_of_deserializeAttributes {v : Option Json}
    {attributes : Std.ExtTreeMap String AttributeValue}
    (h : deserializeAttributes v = some attributes) {key : String} {a : AttributeValue}
    (ha : attributes[key]? = some a) : a.Writable := by
  cases v with
  | none =>
    obtain rfl := Option.some.inj h
    simp at ha
  | some v =>
    obtain ⟨members, -, h⟩ := Option.bind_eq_some_iff.mp h
    obtain ⟨entries, hentries, h⟩ := Option.bind_eq_some_iff.mp h
    obtain rfl := Option.some.inj h
    have hmem := Std.ExtTreeMap.mem_of_getElem?_ofList ha
    obtain ⟨kv, -, hkv⟩ := List.exists_of_mem_mapM hentries hmem
    obtain ⟨a', ha', heq⟩ := Option.map_eq_some_iff.mp hkv
    cases heq
    exact AttributeValue.writable_of_deserialize ha'

/-- Where the two fields that can fail come from. -/
theorem Finding.exists_fields_of_deserialize {v : Json} {f : Finding}
    (h : Finding.deserialize parseRfc3339 v = some f) :
    ∃ fields evidence attributes, asRecord fieldNames v = some fields ∧
      ("evidence", evidence) ∈ fields ∧ f.evidence = .ofJson evidence ∧
      deserializeAttributes attributes = some f.otelAttributes := by
  obtain ⟨fields, hv, h⟩ := Option.bind_eq_some_iff.mp h
  obtain ⟨schemaVersion, -, h⟩ := Option.bind_eq_some_iff.mp h
  obtain ⟨ruleId, -, h⟩ := Option.bind_eq_some_iff.mp h
  obtain ⟨ruleVersion, -, h⟩ := Option.bind_eq_some_iff.mp h
  obtain ⟨tier, -, h⟩ := Option.bind_eq_some_iff.mp h
  obtain ⟨severity, -, h⟩ := Option.bind_eq_some_iff.mp h
  obtain ⟨firedAt, -, h⟩ := Option.bind_eq_some_iff.mp h
  obtain ⟨pgInstance, -, h⟩ := Option.bind_eq_some_iff.mp h
  obtain ⟨summary, -, h⟩ := Option.bind_eq_some_iff.mp h
  obtain ⟨evidence, hevidence, h⟩ := Option.bind_eq_some_iff.mp h
  obtain ⟨remediation, -, h⟩ := Option.bind_eq_some_iff.mp h
  obtain ⟨otelAttributes, hattributes, hf⟩ := Option.bind_eq_some_iff.mp h
  obtain ⟨json, hjson, hof⟩ := Option.bind_eq_some_iff.mp hevidence
  obtain ⟨attributes, -, hread⟩ := Option.bind_eq_some_iff.mp hattributes
  obtain rfl := Option.some.inj hf
  exact ⟨fields, json, attributes, hv, mem_of_requiredField hjson, (Option.some.inj hof).symm,
    hread⟩

/-- A finding that was read can be written. -/
theorem Finding.writable_of_deserialize {v : Json} {f : Finding}
    (h : Finding.deserialize parseRfc3339 v = some f) : f.Writable := by
  obtain ⟨-, -, attributes, -, -, -, hread⟩ := Finding.exists_fields_of_deserialize h
  intro key a ha
  exact writable_of_deserializeAttributes hread ha

/-- Its evidence is nested less deeply than the document it was read from. -/
theorem Finding.depth_evidence_lt {v : Json} {f : Finding}
    (h : Finding.deserialize parseRfc3339 v = some f) : f.evidence.json.depth < v.depth := by
  obtain ⟨fields, evidence, -, hv, hmem, hevidence, -⟩ := Finding.exists_fields_of_deserialize h
  rw [hevidence]
  exact (depth_normalize_le evidence).trans_lt (depth_lt_of_asRecord hv hmem)

/-- **What is read back from the document it is written as**, in any form or in that one. -/
theorem Finding.deserialize_toJson_iff (htime : ∀ t, parseRfc3339 (rfc3339 t) = some t)
    (f : Finding) : Finding.deserialize parseRfc3339 (f.toJson rfc3339) = some f ↔ f.Writable := by
  constructor
  · exact Finding.writable_of_deserialize
  · intro h
    exact Finding.deserialize_of_ofJson _ f ((Finding.ofJson_toJson_iff htime f).mpr h)

end reread

/-! ### The text -/

/-- All doubles of a finding are among the given ones, where they are numbers. -/
structure Finding.FloatsIn (exact : ℚ → Prop) (f : Finding) : Prop where
  attributes : ∀ (key : String) (q : ℚ), f.otelAttributes[key]? = some (.double (.finite q)) →
    exact q
  evidence : f.evidence.json.FloatsIn exact

section text

variable {exact : ℚ → Prop} {toString : Json → String} {fromStr : String → Option Json}
  {rfc3339 : DateTime → String} {parseRfc3339 : String → Option DateTime}

theorem AttributeValue.floatsIn_toJson {a : AttributeValue}
    (h : ∀ q, a = .double (.finite q) → exact q) : a.toJson.FloatsIn exact := by
  cases a with
  | double d =>
    cases d with
    | finite q => simpa [AttributeValue.toJson, F64.toJson, tagged, variantToJson] using h q rfl
    | _ => simp [AttributeValue.toJson, F64.toJson, tagged, variantToJson]
  | _ => simp [AttributeValue.toJson, tagged, variantToJson]

theorem PgInstanceRef.floatsIn_toJson (p : PgInstanceRef) : p.toJson.FloatsIn exact := by
  obtain ⟨id, dbName, role⟩ := p
  cases dbName <;> simp [PgInstanceRef.toJson, PgRole.toJson, variantToJson]

theorem Remediation.floatsIn_toJson (r : Remediation) : r.toJson.FloatsIn exact := by
  obtain ⟨text, knobs⟩ := r
  cases knobs <;> simp [Remediation.toJson]

/-- A finding is written with the doubles it has. -/
theorem Finding.FloatsIn.toJson {f : Finding} (h : f.FloatsIn exact) :
    (f.toJson rfc3339).FloatsIn exact := by
  have hattributes : (attributesToJson f.otelAttributes).FloatsIn exact := by
    rw [attributesToJson, floatsIn_object, List.forall_mem_map]
    rintro ⟨key, a⟩ hkv
    rw [Std.ExtTreeMap.mem_toList_iff_getElem?_eq_some] at hkv
    exact AttributeValue.floatsIn_toJson fun q hq => h.attributes key q (hq ▸ hkv)
  rw [Finding.toJson, floatsIn_object, Finding.fields, List.forall_mem_append]
  constructor
  · simp [Tier.toJson, Severity.toJson, variantToJson, PgInstanceRef.floatsIn_toJson,
      Remediation.floatsIn_toJson, h.evidence]
  · split
    · exact List.forall_mem_nil _
    · exact List.forall_mem_singleton.mpr hattributes

/-- Text or no text, what is read back is what the document says, as long as the reader gets its
doubles right and reaches the bottom of it. -/
theorem Finding.deserialize_text_iff (htext : ReadsBackExactly exact toString fromStr)
    (htime : ∀ t, parseRfc3339 (rfc3339 t) = some t) {f : Finding} (hfloats : f.FloatsIn exact) :
    (fromStr (toString (f.toJson rfc3339))).bind (Finding.deserialize parseRfc3339) = some f ↔
      f.Writable ∧ f.evidence.json.depth < recursionLimit := by
  rw [← f.depth_toJson_le_iff rfc3339]
  rcases Nat.lt_or_ge recursionLimit (f.toJson rfc3339).depth with hdeep | hle
  · rw [htext.refuses _ (f.fitsWords_toJson rfc3339) hdeep]
    simp [Nat.not_le.mpr hdeep]
  · rw [htext.reads _ (f.fitsWords_toJson rfc3339) hfloats.toJson hle, Option.bind_some,
      Finding.deserialize_toJson_iff htime, and_iff_left hle]

/-- **What can be read is what survives being written.** Take a finding all of whose doubles are
among those the reader gets right. It is read from some document, in whatever form, exactly when it
is read back from its own text. In particular such a finding that was read, written and read again
is the same. -/
theorem Finding.exists_deserialize_iff (htext : ReadsBackExactly exact toString fromStr)
    (htime : ∀ t, parseRfc3339 (rfc3339 t) = some t) {f : Finding} (hfloats : f.FloatsIn exact) :
    (∃ v : Json, v.FitsWords ∧ v.depth ≤ recursionLimit ∧
        Finding.deserialize parseRfc3339 v = some f) ↔
      (fromStr (toString (f.toJson rfc3339))).bind (Finding.deserialize parseRfc3339) =
        some f := by
  rw [Finding.deserialize_text_iff htext htime hfloats]
  constructor
  · rintro ⟨v, -, hdepth, hv⟩
    exact ⟨Finding.writable_of_deserialize hv, (Finding.depth_evidence_lt hv).trans_le hdepth⟩
  · rintro ⟨hwritable, hdepth⟩
    exact ⟨f.toJson rfc3339, f.fitsWords_toJson rfc3339,
      (f.depth_toJson_le_iff rfc3339).mpr hdepth,
      (Finding.deserialize_toJson_iff htime f).mpr hwritable⟩

end text

/-! ### One finding -/

theorem readsBackExactly_toText (exact : ℚ → Prop) :
    ReadsBackExactly exact Json.toText (Json.ofText recursionLimit) where
  reads v hfits _ h := readsBack_toText.reads v hfits h
  refuses v hfits h := readsBack_toText.refuses v hfits h

theorem floatsIn_sampleFinding : sampleFinding.FloatsIn fun _ => False where
  attributes key q h := by
    have hmem := Std.ExtTreeMap.mem_of_getElem?_ofList h
    simp at hmem
  evidence := FloatsIn.normalize (by simp) (by simp)

/-- The finding of a replica that lags behind is without doubles, and can be read. -/
theorem Finding.exists_deserialize_iff_sampleFinding :
    (∃ v : Json, v.FitsWords ∧ v.depth ≤ recursionLimit ∧
        Finding.deserialize parseStamp v = some sampleFinding) ↔
      (Json.ofText recursionLimit (toText (sampleFinding.toJson stamp))).bind
        (Finding.deserialize parseStamp) = some sampleFinding :=
  Finding.exists_deserialize_iff (readsBackExactly_toText fun _ => False) parseStamp_stamp
    floatsIn_sampleFinding

end PgSleuth
