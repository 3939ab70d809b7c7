import PgSleuth.Otel.Mapping

/-!
# Nothing is lost in a log record

Read as a map, the attributes of a record tell the fields of the finding it came from, and with the
timestamp, the severity and the body they tell all of it. Three things have to be right for that:
the instant is one the record can hold, the rule stays clear of the keys of the envelope, and no two
documents have one text.

## Main definitions

* `LogRecord` — a record, with its attributes read as a map
* `Mappable` — a finding whose instant and keys the record can hold

## Main results

* `toRecord_injOn` — no two such findings have one record
* `exists_decoder` — a finding is determined by its record
-/

namespace PgSleuth

/-- A log record, with its attributes as a map from keys to values. -/
structure LogRecord where
  timestamp : SystemTime
  severityNumber : SeverityNumber
  severityText : String
  body : String
  attributes : Std.ExtTreeMap String AnyValue

/-- The record, read as a map. -/
def MappedFinding.toRecord (m : MappedFinding) : LogRecord where
  timestamp := m.timestamp
  severityNumber := m.severityNumber
  severityText := m.severityText
  body := m.body
  attributes := .ofList m.attributes

/-- The keys `map_finding` writes itself. -/
def reservedKeys : List String :=
  ["pgsleuth.schema.version", "pgsleuth.mapping.version", "pgsleuth.finding.schema.version",
    "pgsleuth.rule.id", "pgsleuth.rule.version", "pgsleuth.tier", "pgsleuth.pg.instance",
    "pgsleuth.pg.role", "db.name", "pgsleuth.evidence", "pgsleuth.remediation"]

/-- A finding fired at or after 1970 and not inside a leap second, whose own attributes stay clear
of the keys `map_finding` writes. -/
structure Mappable (f : Finding) : Prop where
  notBefore1970 : 0 ≤ f.firedAt.timestamp
  noLeapSecond : f.firedAt.subsecNanos.val < 1000000000
  clear : ∀ key ∈ f.otelAttributes, key ∉ reservedKeys

theorem envelopeKeys_subset (f : Finding) : envelopeKeys f ⊆ reservedKeys := by
  rw [envelopeKeys]
  cases f.pgInstance.dbName.isSome <;> cases f.evidence.json.isNull <;> decide

/-! ### Encodings of one field -/

theorem tierStr_injective : Function.Injective tierStr := by
  intro t t' h
  cases t <;> cases t' <;> first | rfl | exact absurd h (by decide)

theorem roleStr_injective : Function.Injective roleStr := by
  intro r r' h
  cases r <;> cases r' <;> first | rfl | exact absurd h (by decide)

theorem mapSeverity_injective : Function.Injective fun s => (mapSeverity s).1 := by
  intro s s' h
  cases s <;> cases s' <;> first | rfl | exact absurd h (by decide)

theorem attributeToAny_injective : Function.Injective attributeToAny := by
  intro a a' h
  cases a <;> cases a' <;> cases h <;> rfl

theorem ofU32_injective : Function.Injective AnyValue.ofU32 := by
  intro n n' h
  have hn := n.toNat_lt
  have hn' := n'.toNat_lt
  have htoInt := congrArg Int64.toInt (AnyValue.int.inj h)
  rw [Int64.toInt_ofNat_of_lt (by omega), Int64.toInt_ofNat_of_lt (by omega)] at htoInt
  exact UInt32.toNat_inj.mp (by exact_mod_cast htoInt)

theorem remediation_toJson_injective : Function.Injective Remediation.toJson := by
  intro r r' h
  have hread := congrArg Remediation.ofJson h
  rw [Remediation.ofJson_toJson, Remediation.ofJson_toJson] at hread
  exact Option.some.inj hread

/-- Instants a record can hold are told apart. -/
theorem chronoToSystemTime_inj {t t' : DateTime} (ht : 0 ≤ t.timestamp)
    (hn : t.subsecNanos.val < 1000000000) (ht' : 0 ≤ t'.timestamp)
    (hn' : t'.subsecNanos.val < 1000000000) (h : chronoToSystemTime t = chronoToSystemTime t') :
    t = t' := by
  obtain ⟨secs, nanos⟩ := t
  obtain ⟨secs', nanos'⟩ := t'
  simp only [chronoToSystemTime, if_pos ht, if_pos ht', SystemTime.mk.injEq] at h
  simp only at hn hn' ht ht'
  have hnanos : nanos = nanos' := Fin.ext (by omega)
  have hsecs : secs = secs' := by omega
  rw [hnanos, hsecs]

/-! ### The record of a finding -/

variable {render : Json → String} {f g : Finding}

/-- A finding's record. -/
def recordOf (render : Json → String) (f : Finding) : LogRecord := (mapFinding render f).toRecord

theorem Mappable.attribute_iff (hf : Mappable f) (render : Json → String) {key : String}
    {v : AnyValue} :
    (recordOf render f).attributes[key]? = some v ↔
      (key, v) ∈ envelope render f ∨ (key, v) ∈ extraAttributes f := by
  have hnodup : ((mapFinding render f).attributes.map Prod.fst).Nodup :=
    (nodup_keys_iff render f).mpr fun key hkey hmem =>
      hf.clear key hkey (envelopeKeys_subset f hmem)
  exact (Std.ExtTreeMap.getElem?_ofList_eq_some_iff hnodup).trans List.mem_append

/-- Under the keys of `map_finding` the record has what the envelope has. -/
theorem Mappable.attribute_of_mem (hf : Mappable f) {key : String} (hkey : key ∈ reservedKeys)
    {v : AnyValue} :
    (recordOf render f).attributes[key]? = some v ↔ (key, v) ∈ envelope render f := by
  rw [hf.attribute_iff render, or_iff_left]
  rw [mem_extraAttributes_iff]
  rintro ⟨a, ha, -⟩
  exact hf.clear key (Std.ExtTreeMap.mem_iff_isSome_getElem?.mpr (by simp [ha])) hkey

/-- Under all other keys it has what the rule wants there. -/
theorem Mappable.attribute_of_notMem (hf : Mappable f) {key : String} (hkey : key ∉ reservedKeys) :
    (recordOf render f).attributes[key]? = f.otelAttributes[key]?.map attributeToAny := by
  refine Option.ext ?_
  intro v
  rw [hf.attribute_iff render, or_iff_right, mem_extraAttributes_iff]
  · simp [eq_comm]
  · intro hmem
    refine hkey (envelopeKeys_subset f ?_)
    rw [← map_fst_envelope render]
    exact List.mem_map_of_mem hmem

/-- Findings with one record have one envelope. -/
theorem mem_envelope_of_recordOf_eq (hf : Mappable f) (hg : Mappable g)
    (h : recordOf render f = recordOf render g) {key : String} (hkey : key ∈ reservedKeys)
    {v : AnyValue} (hv : (key, v) ∈ envelope render f) : (key, v) ∈ envelope render g := by
  rwa [← hg.attribute_of_mem hkey, ← h, hf.attribute_of_mem hkey]

/-- One envelope comes from one database name. -/
theorem dbName_eq_of_envelope (hfg : ∀ v, ("db.name", v) ∈ envelope render f →
      ("db.name", v) ∈ envelope render g)
    (hgf : ∀ v, ("db.name", v) ∈ envelope render g → ("db.name", v) ∈ envelope render f) :
    f.pgInstance.dbName = g.pgInstance.dbName := by
  have hmem (f : Finding) (dbName : String) :
      ("db.name", AnyValue.string dbName) ∈ envelope render f ↔
        f.pgInstance.dbName = some dbName := by
    cases h : f.pgInstance.dbName <;> simp [envelope, h]
    exact eq_comm
  refine Option.ext ?_
  intro dbName
  rw [← hmem, ← hmem]
  exact ⟨hfg _, hgf _⟩

/-- One envelope comes from one evidence, when texts are told apart. -/
theorem evidence_eq_of_envelope (hrender : Function.Injective render)
    (hfg : ∀ v, ("pgsleuth.evidence", v) ∈ envelope render f →
      ("pgsleuth.evidence", v) ∈ envelope render g)
    (hgf : ∀ v, ("pgsleuth.evidence", v) ∈ envelope render g →
      ("pgsleuth.evidence", v) ∈ envelope render f) : f.evidence = g.evidence := by
  have hmem (f : Finding) (s : String) :
      ("pgsleuth.evidence", AnyValue.string s) ∈ envelope render f ↔
        f.evidence.json ≠ .null ∧ s = render f.evidence.json := by
    have hnull : f.evidence.json ≠ .null ↔ f.evidence.json.isNull = false := by
      rw [ne_eq, ← Json.isNull_iff, Bool.not_eq_true]
    rw [hnull]
    cases h : f.evidence.json.isNull <;> simp [envelope, h]
  refine JsonValue.ext ?_
  by_cases hf : f.evidence.json = .null
  · by_contra hne
    have hg : g.evidence.json ≠ .null := fun hg => hne (hf.trans hg.symm)
    exact ((hmem f _).mp (hgf _ ((hmem g _).mpr ⟨hg, rfl⟩))).1 hf
  · exact hrender ((hmem g _).mp (hfg _ ((hmem f _).mpr ⟨hf, rfl⟩))).2

/-- **No two findings have one record**, as long as no two documents have one text. -/
theorem toRecord_injOn (hrender : Function.Injective render) :
    Set.InjOn (recordOf render) {f | Mappable f} := by
  intro f hf g hg h
  have hfg (key : String) (hkey : key ∈ reservedKeys) (v : AnyValue) :
      (key, v) ∈ envelope render f → (key, v) ∈ envelope render g :=
    mem_envelope_of_recordOf_eq hf hg h hkey
  have hgf (key : String) (hkey : key ∈ reservedKeys) (v : AnyValue) :
      (key, v) ∈ envelope render g → (key, v) ∈ envelope render f :=
    mem_envelope_of_recordOf_eq hg hf h.symm hkey
  -- one key of the envelope, one value
  have hsame (key : String) (hkey : key ∈ reservedKeys) {v w : AnyValue}
      (hv : (key, v) ∈ envelope render f) (hw : (key, w) ∈ envelope render g) : v = w :=
    (Std.ExtTreeMap.mem_iff_eq_of_nodup
      (by rw [map_fst_envelope]; exact nodup_envelopeKeys g) hw v).mp (hfg key hkey v hv)
  have hschema : f.schemaVersion = g.schemaVersion :=
    ofU32_injective (hsame "pgsleuth.schema.version" (by decide) (by simp [envelope])
      (by simp [envelope]))
  have hruleId : f.ruleId = g.ruleId :=
    AnyValue.string.inj (hsame "pgsleuth.rule.id" (by decide) (by simp [envelope])
      (by simp [envelope]))
  have hruleVersion : f.ruleVersion = g.ruleVersion :=
    ofU32_injective (hsame "pgsleuth.rule.version" (by decide) (by simp [envelope])
      (by simp [envelope]))
  have htier : f.tier = g.tier :=
    tierStr_injective (AnyValue.string.inj (hsame "pgsleuth.tier" (by decide) (by simp [envelope])
      (by simp [envelope])))
  have hid : f.pgInstance.id = g.pgInstance.id :=
    AnyValue.string.inj (hsame "pgsleuth.pg.instance" (by decide) (by simp [envelope])
      (by simp [envelope]))
  have hrole : f.pgInstance.role = g.pgInstance.role :=
    roleStr_injective (AnyValue.string.inj (hsame "pgsleuth.pg.role" (by decide)
      (by simp [envelope]) (by simp [envelope])))
  have hremediation : f.remediation = g.remediation :=
    remediation_toJson_injective (hrender (AnyValue.string.inj
      (hsame "pgsleuth.remediation" (by decide) (by simp [envelope]) (by simp [envelope]))))
  have hdbName : f.pgInstance.dbName = g.pgInstance.dbName :=
    dbName_eq_of_envelope (hfg _ (by decide)) (hgf _ (by decide))
  have hevidence : f.evidence = g.evidence :=
    evidence_eq_of_envelope hrender (hfg _ (by decide)) (hgf _ (by decide))
  have hseverity : f.severity = g.severity :=
    mapSeverity_injective (congrArg LogRecord.severityNumber h)
  have hsummary : f.summary = g.summary := congrArg LogRecord.body h
  have hfiredAt : f.firedAt = g.firedAt :=
    chronoToSystemTime_inj hf.notBefore1970 hf.noLeapSecond hg.notBefore1970 hg.noLeapSecond
      (congrArg LogRecord.timestamp h)
  have hattributes : f.otelAttributes = g.otelAttributes := by
    refine Std.ExtTreeMap.ext_getElem? ?_
    intro key
    by_cases hkey : key ∈ reservedKeys
    · rw [Std.ExtTreeMap.getElem?_eq_none fun hmem => hf.clear key hmem hkey,
        Std.ExtTreeMap.getElem?_eq_none fun hmem => hg.clear key hmem hkey]
    · refine Option.map_injective attributeToAny_injective ?_
      calc f.otelAttributes[key]?.map attributeToAny
          = (recordOf render f).attributes[key]? := (hf.attribute_of_notMem hkey).symm
        _ = (recordOf render g).attributes[key]? := by rw [h]
        _ = g.otelAttributes[key]?.map attributeToAny := hg.attribute_of_notMem hkey
  obtain ⟨_, _, _, _, _, _, ⟨_, _, _⟩, _, _, _, _⟩ := f
  obtain ⟨_, _, _, _, _, _, ⟨_, _, _⟩, _, _, _, _⟩ := g
  simp only at *
  simp_all

/-- **Lossless.** As long as no two documents have one text, some decoder gets every finding back
from its record, read as a map. -/
theorem exists_decoder (hrender : Function.Injective render) :
    ∃ decode : LogRecord → Option Finding, ∀ f, Mappable f →
      decode (mapFinding render f).toRecord = some f := by
  classical
  refine ⟨fun r => if h : ∃ f, Mappable f ∧ recordOf render f = r then some h.choose else none, ?_⟩
  intro f hf
  have hex : ∃ g, Mappable g ∧ recordOf render g = (mapFinding render f).toRecord := ⟨f, hf, rfl⟩
  obtain ⟨hg, heq⟩ := hex.choose_spec
  calc (if h : ∃ g, Mappable g ∧ recordOf render g = (mapFinding render f).toRecord then
        some h.choose else none)
      = some hex.choose := dif_pos hex
    _ = some f := by rw [toRecord_injOn hrender hg hf heq]

theorem exists_decoder_toText : (∃ decode : LogRecord → Option Finding, ∀ f, Mappable f →
    decode (mapFinding Json.toText f).toRecord = some f) ∧ Mappable sampleFinding :=
  ⟨exists_decoder Json.toText_injective, by decide, by decide, by
    simp [sampleFinding, reservedKeys]⟩

end PgSleuth
