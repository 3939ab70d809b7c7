import PgSleuth.Otel.Mapping

/-!
# Two representations of a finding

A finding leaves the agent as a log record, and is written as JSON by its `serde` attributes. The
design notes want one serialization step and no drift between two representations. What both carry
is compared here: the plain fields, which the record has under keys of its own, and the evidence and
the remediation, which it has as text.

One pair of encoders was written by hand twice. `rename_all = "lowercase"` puts nothing between the
words of a variant, and `tier_str` puts an underscore there.

## Main definitions

* `Agree` — the two representations of a finding say the same

## Main results

* `agree_iff` — they do exactly when the finding is not of the cloud-enhanced tier
-/

namespace PgSleuth

open Json

/-- The value of an attribute, as a document. -/
def AnyValue.toJson : AnyValue → Json
  | .int i => .int i.toInt
  | .double d => d.toJson
  | .string s => .string s
  | .boolean b => .bool b

theorem AnyValue.toJson_ofU32 (n : UInt32) : (AnyValue.ofU32 n).toJson = .int n.toNat := by
  have := n.toNat_lt
  rw [AnyValue.ofU32, AnyValue.toJson, Int64.toInt_ofNat_of_lt (by omega)]

theorem AnyValue.toJson_eq_string_iff {v : AnyValue} {s : String} :
    v.toJson = .string s ↔ v = .string s := by
  cases v with
  | int i => simp [AnyValue.toJson]
  | double d => cases d <;> simp [AnyValue.toJson, F64.toJson]
  | string t => simp [AnyValue.toJson]
  | boolean b => simp [AnyValue.toJson]

section

variable (render : Json → String) (rfc3339 : DateTime → String)

/-- One value, at the end of a path of the document and under a key of the record. -/
def SameScalar (f : Finding) (path : List String) (key : String) : Prop :=
  ∃ v : AnyValue, (f.toJson rfc3339).pointer path = some v.toJson ∧
    (mapFinding render f).attributes.lookup key = some v

/-- One part of the document, and under a key of the record its text. -/
def SameText (f : Finding) (path : List String) (key : String) : Prop :=
  ∃ v : Json, (f.toJson rfc3339).pointer path = some v ∧
    (mapFinding render f).attributes.lookup key = some (.string (render v))

/-- A consumer that filters by a label selects the document when it selects the record. -/
def SameSelection (f : Finding) (path : List String) (key : String) : Prop :=
  ∀ label : String, (f.toJson rfc3339).pointer path = some (.string label) ↔
    (mapFinding render f).attributes.lookup key = some (.string label)

/-- The plain fields that both representations carry: where the document has them, and under which
key the record does. -/
def scalarFields (f : Finding) : List (List String × String) :=
  [(["schema_version"], "pgsleuth.schema.version"), (["rule_id"], "pgsleuth.rule.id"),
    (["rule_version"], "pgsleuth.rule.version"), (["tier"], "pgsleuth.tier"),
    (["pg_instance", "id"], "pgsleuth.pg.instance"),
    (["pg_instance", "role"], "pgsleuth.pg.role")] ++
  if f.pgInstance.dbName.isSome then [(["pg_instance", "db_name"], "db.name")] else []

/-- The parts of the document that the record carries as text. -/
def textFields (f : Finding) : List (List String × String) :=
  [(["remediation"], "pgsleuth.remediation")] ++
  if f.evidence.json.isNull then [] else [(["evidence"], "pgsleuth.evidence")]

/-- **The two representations of a finding agree.** -/
structure Agree (f : Finding) : Prop where
  scalars : ∀ pk ∈ scalarFields f, SameScalar render rfc3339 f pk.1 pk.2
  texts : ∀ pk ∈ textFields f, SameText render rfc3339 f pk.1 pk.2
  byTier : SameSelection render rfc3339 f ["tier"] "pgsleuth.tier"
  byRole : SameSelection render rfc3339 f ["pg_instance", "role"] "pgsleuth.pg.role"

end

variable {render : Json → String} {rfc3339 : DateTime → String} {f : Finding}

/-! ### Looking fields up -/

/-- The record has an attribute of the envelope under its key. -/
theorem lookup_attributes {key : String} {v : AnyValue} (hv : (key, v) ∈ envelope render f) :
    (mapFinding render f).attributes.lookup key = some v := by
  have henvelope : (envelope render f).lookup key = some v := by
    rw [List.lookup_eq_some_iff_mem]
    · exact hv
    · rw [map_fst_envelope]
      exact nodup_envelopeKeys f
  rw [mapFinding, List.lookup_append, henvelope, Option.some_or]

/-- The document has a field of the finding. -/
theorem pointer_field {name : String} {v : Json} (hv : (name, v) ∈ f.fields rfc3339)
    (path : List String) : (f.toJson rfc3339).pointer (name :: path) = v.pointer path :=
  pointer_object (f.nodup_fields rfc3339) hv path

theorem PgInstanceRef.pointer_id (p : PgInstanceRef) :
    p.toJson.pointer ["id"] = some (.string p.id) := by
  rw [PgInstanceRef.toJson, pointer_object (v := .string p.id)]
  · rfl
  · cases p.dbName <;> simp
  · simp

theorem PgInstanceRef.pointer_role (p : PgInstanceRef) :
    p.toJson.pointer ["role"] = some p.role.toJson := by
  rw [PgInstanceRef.toJson, pointer_object (v := p.role.toJson)]
  · rfl
  · cases p.dbName <;> simp
  · simp

theorem PgInstanceRef.pointer_dbName {p : PgInstanceRef} {dbName : String}
    (h : p.dbName = some dbName) : p.toJson.pointer ["db_name"] = some (.string dbName) := by
  rw [PgInstanceRef.toJson, pointer_object (v := .string dbName)]
  · rfl
  · simp [h]
  · simp [h]

/-- A finding says where the instance it is about is described. -/
theorem pointer_pgInstance (path : List String) :
    (f.toJson rfc3339).pointer ("pg_instance" :: path) = f.pgInstance.toJson.pointer path :=
  pointer_field (by simp [Finding.fields]) path

/-! ### Comparing fields -/

/-- The role is written alike by both encoders. -/
theorem role_toJson (r : PgRole) : r.toJson = .string (roleStr r) := by
  rw [PgRole.toJson, variantToJson]
  cases r <;> exact congrArg Json.string (by decide)

/-- The tier is, unless its name has two words. -/
theorem tier_toJson_iff (t : Tier) : t.toJson = .string (tierStr t) ↔ t ≠ .cloudEnhanced := by
  rw [Tier.toJson, variantToJson, Json.string.injEq]
  cases t <;> decide

/-- A field that each representation has is the same in both when the values are. -/
theorem sameScalar_iff {path : List String} {key : String} {v : Json} {w : AnyValue}
    (hv : (f.toJson rfc3339).pointer path = some v) (hw : (key, w) ∈ envelope render f) :
    SameScalar render rfc3339 f path key ↔ v = w.toJson := by
  rw [SameScalar, hv, lookup_attributes hw]
  constructor
  · rintro ⟨w', hvw, hww⟩
    rw [Option.some.inj hvw, Option.some.inj hww]
  · rintro rfl
    exact ⟨w, rfl, rfl⟩

/-- **The tier** is the same in both unless it is cloud-enhanced. -/
theorem sameScalar_tier_iff :
    SameScalar render rfc3339 f ["tier"] "pgsleuth.tier" ↔ f.tier ≠ .cloudEnhanced := by
  have hdoc : (f.toJson rfc3339).pointer ["tier"] = some f.tier.toJson :=
    pointer_field (by simp [Finding.fields]) []
  have hrecord : ("pgsleuth.tier", .string (tierStr f.tier)) ∈ envelope render f := by
    simp [envelope]
  rw [sameScalar_iff hdoc hrecord]
  exact tier_toJson_iff f.tier

theorem sameScalar_schemaVersion :
    SameScalar render rfc3339 f ["schema_version"] "pgsleuth.schema.version" := by
  have hdoc : (f.toJson rfc3339).pointer ["schema_version"] = some (.int f.schemaVersion.toNat) :=
    pointer_field (by simp [Finding.fields]) []
  have hrecord : ("pgsleuth.schema.version", .ofU32 f.schemaVersion) ∈ envelope render f := by
    simp [envelope]
  rw [sameScalar_iff hdoc hrecord, AnyValue.toJson_ofU32]

theorem sameScalar_ruleId : SameScalar render rfc3339 f ["rule_id"] "pgsleuth.rule.id" := by
  have hdoc : (f.toJson rfc3339).pointer ["rule_id"] = some (.string f.ruleId) :=
    pointer_field (by simp [Finding.fields]) []
  have hrecord : ("pgsleuth.rule.id", .string f.ruleId) ∈ envelope render f := by
    simp [envelope]
  rw [sameScalar_iff hdoc hrecord, AnyValue.toJson]

theorem sameScalar_ruleVersion :
    SameScalar render rfc3339 f ["rule_version"] "pgsleuth.rule.version" := by
  have hdoc : (f.toJson rfc3339).pointer ["rule_version"] = some (.int f.ruleVersion.toNat) :=
    pointer_field (by simp [Finding.fields]) []
  have hrecord : ("pgsleuth.rule.version", .ofU32 f.ruleVersion) ∈ envelope render f := by
    simp [envelope]
  rw [sameScalar_iff hdoc hrecord, AnyValue.toJson_ofU32]

theorem sameScalar_id :
    SameScalar render rfc3339 f ["pg_instance", "id"] "pgsleuth.pg.instance" := by
  have hrecord : ("pgsleuth.pg.instance", .string f.pgInstance.id) ∈ envelope render f := by
    simp [envelope]
  rw [sameScalar_iff ((pointer_pgInstance _).trans f.pgInstance.pointer_id) hrecord,
    AnyValue.toJson]

theorem sameScalar_role :
    SameScalar render rfc3339 f ["pg_instance", "role"] "pgsleuth.pg.role" := by
  have hrecord : ("pgsleuth.pg.role", .string (roleStr f.pgInstance.role)) ∈ envelope render f := by
    simp [envelope]
  rw [sameScalar_iff ((pointer_pgInstance _).trans f.pgInstance.pointer_role) hrecord]
  exact role_toJson f.pgInstance.role

/-- The database name is the same in both, when there is one. -/
theorem sameScalar_dbName (h : f.pgInstance.dbName.isSome) :
    SameScalar render rfc3339 f ["pg_instance", "db_name"] "db.name" := by
  obtain ⟨dbName, hdbName⟩ := Option.isSome_iff_exists.mp h
  have hrecord : ("db.name", .string dbName) ∈ envelope render f := by
    simp [envelope, hdbName]
  rw [sameScalar_iff ((pointer_pgInstance _).trans (PgInstanceRef.pointer_dbName hdbName)) hrecord,
    AnyValue.toJson]

/-- **All plain fields** are the same in both as soon as the tier is. -/
theorem sameScalar_of_tier (htier : SameScalar render rfc3339 f ["tier"] "pgsleuth.tier") :
    ∀ pk ∈ scalarFields f, SameScalar render rfc3339 f pk.1 pk.2 := by
  rw [scalarFields, List.forall_mem_append]
  constructor
  · simp only [List.forall_mem_cons]
    exact ⟨sameScalar_schemaVersion, sameScalar_ruleId, sameScalar_ruleVersion, htier,
      sameScalar_id, sameScalar_role, List.forall_mem_nil _⟩
  · split
    · next h => exact List.forall_mem_singleton.mpr (sameScalar_dbName h)
    · exact List.forall_mem_nil _

/-- What is one value in both is selected by one label. -/
theorem SameScalar.sameSelection {path : List String} {key : String}
    (h : SameScalar render rfc3339 f path key) : SameSelection render rfc3339 f path key := by
  obtain ⟨v, hdoc, hrecord⟩ := h
  intro label
  rw [hdoc, hrecord, Option.some.injEq, Option.some.injEq, AnyValue.toJson_eq_string_iff]

/-- **The texts of the record** are those of the parts of the document. -/
theorem sameText : ∀ pk ∈ textFields f, SameText render rfc3339 f pk.1 pk.2 := by
  rw [textFields, List.forall_mem_append]
  constructor
  · refine List.forall_mem_singleton.mpr ⟨f.remediation.toJson, ?_, ?_⟩
    · exact pointer_field (by simp [Finding.fields]) []
    · exact lookup_attributes (by simp [envelope])
  · split
    · exact List.forall_mem_nil _
    · next h =>
      refine List.forall_mem_singleton.mpr ⟨f.evidence.json, ?_, ?_⟩
      · exact pointer_field (by simp [Finding.fields]) []
      · exact lookup_attributes (by simp [envelope, h])

/-- **Exactly when the two representations agree**: when the tier is not the cloud-enhanced one. -/
theorem agree_iff (render : Json → String) (rfc3339 : DateTime → String) (f : Finding) :
    Agree render rfc3339 f ↔ f.tier ≠ .cloudEnhanced := by
  rw [← @sameScalar_tier_iff render rfc3339 f]
  constructor
  · intro h
    exact h.scalars (["tier"], "pgsleuth.tier") (by simp [scalarFields])
  · intro htier
    exact { scalars := sameScalar_of_tier htier
            texts := sameText
            byTier := htier.sameSelection
            byRole := sameScalar_role.sameSelection }

/-- They can disagree: the cloud-enhanced tier is `cloudenhanced` in one and `cloud_enhanced` in the
other. -/
theorem not_agree : ¬ ∀ (render : Json → String) (rfc3339 : DateTime → String) (f : Finding),
    Agree render rfc3339 f := by
  intro h
  have hagree := h Json.toText stamp { sampleFinding with tier := .cloudEnhanced }
  have htier := hagree.scalars (["tier"], "pgsleuth.tier") (by simp [scalarFields])
  exact sameScalar_tier_iff.mp htier rfl

end PgSleuth
