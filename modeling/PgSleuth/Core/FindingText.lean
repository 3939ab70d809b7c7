import PgSleuth.Core.FindingJson
import PgSleuth.ForMathlib.JsonText

/-!
# Findings through their text

A finding is written as the text of its document and read back from it. Two things can go wrong on
the way: JSON has no text for a double that is not finite, and the reader refuses a document that is
nested too deeply.

## Main definitions

* `ReadsBack` — what `serde_json` does with the text of a document

## Main results

* `Finding.roundTrip_iff` — which findings are read back from their text
* `Finding.not_roundTrip` — not all of them are
-/

namespace PgSleuth

open Json

/-- How many arrays and objects inside one another `serde_json` reads. -/
def recursionLimit : ℕ := 127

/-- What `serde_json` does with the text of a document: it reads it back, unless it is nested too
deeply, and then it refuses it. Doubles are read back to the last bit, which is what the crate
promises with its feature `float_roundtrip`. -/
structure ReadsBack (toString : Json → String) (fromStr : String → Option Json) : Prop where
  reads : ∀ v : Json, v.FitsWords → v.depth ≤ recursionLimit → fromStr (toString v) = some v
  refuses : ∀ v : Json, v.FitsWords → recursionLimit < v.depth → fromStr (toString v) = none

/-- A document without large integers, and not deeply nested. -/
def Small (d : ℕ) (v : Json) : Prop := v.FitsWords ∧ v.depth ≤ d

theorem PgInstanceRef.small_toJson (p : PgInstanceRef) : Small 2 p.toJson := by
  obtain ⟨id, dbName, role⟩ := p
  cases dbName <;>
    simp [Small, PgInstanceRef.toJson, PgRole.toJson, variantToJson, depth_object_le_iff]

theorem Remediation.small_toJson (r : Remediation) : Small 2 r.toJson := by
  obtain ⟨text, knobs⟩ := r
  cases knobs <;> simp [Small, Remediation.toJson, depth_object_le_iff, depth_array_le_iff]

theorem AttributeValue.small_toJson (a : AttributeValue) : Small 1 a.toJson := by
  cases a with
  | string s =>
    simp [Small, AttributeValue.toJson, tagged, variantToJson, depth_object_le_iff]
  | int i =>
    have := i.toInt_lt
    have := i.le_toInt
    simp [Small, AttributeValue.toJson, tagged, variantToJson, depth_object_le_iff]
    omega
  | double d =>
    cases d <;>
      simp [Small, AttributeValue.toJson, F64.toJson, tagged, variantToJson, depth_object_le_iff]
  | bool b =>
    simp [Small, AttributeValue.toJson, tagged, variantToJson, depth_object_le_iff]

theorem small_attributesToJson (attributes : Std.ExtTreeMap String AttributeValue) :
    Small 2 (attributesToJson attributes) := by
  rw [Small, attributesToJson, fitsWords_object, depth_object_le_iff, List.forall_mem_map,
    List.forall_mem_map]
  constructor
  · intro kv _
    exact kv.2.small_toJson.1
  · intro kv _
    exact kv.2.small_toJson.2

theorem small_string (d : ℕ) (s : String) : Small d (.string s) := by simp [Small]

theorem small_uint32 (d : ℕ) (n : UInt32) : Small d (.int n.toNat) := by
  have := n.toNat_lt
  simp only [Small, fitsWords_int, depth_int, Nat.zero_le, and_true]
  omega

/-- All fields of a finding but the evidence are small. -/
theorem Finding.small_or_evidence (rfc3339 : DateTime → String) (f : Finding) :
    ∀ kv ∈ f.fields rfc3339, Small 2 kv.2 ∨ kv.2 = f.evidence.json := by
  rw [Finding.fields, List.forall_mem_append]
  constructor
  · simp only [List.forall_mem_cons]
    exact ⟨.inl (small_uint32 ..), .inl (small_string ..), .inl (small_uint32 ..),
      .inl (small_string ..), .inl (small_string ..), .inl (small_string ..),
      .inl f.pgInstance.small_toJson, .inl (small_string ..), .inr trivial,
      .inl f.remediation.small_toJson, List.forall_mem_nil _⟩
  · split
    · exact List.forall_mem_nil _
    · exact List.forall_mem_singleton.mpr (.inl (small_attributesToJson _))

theorem Finding.fitsWords_toJson (rfc3339 : DateTime → String) (f : Finding) :
    (f.toJson rfc3339).FitsWords := by
  rw [Finding.toJson, fitsWords_object]
  intro kv hkv
  rcases f.small_or_evidence rfc3339 kv hkv with hsmall | hevidence
  · exact hsmall.1
  · exact hevidence ▸ f.evidence.normal.fitsWords

/-- A finding is nested as deeply as its evidence, and one level more. -/
theorem Finding.depth_toJson_le_iff (rfc3339 : DateTime → String) (f : Finding) :
    (f.toJson rfc3339).depth ≤ recursionLimit ↔ f.evidence.json.depth < recursionLimit := by
  have hevidence : ("evidence", f.evidence.json) ∈ f.fields rfc3339 := by simp [Finding.fields]
  rw [Finding.toJson, recursionLimit, depth_object_le_iff, Nat.lt_succ_iff]
  constructor
  · intro h
    exact h _ hevidence
  · intro h kv hkv
    rcases f.small_or_evidence rfc3339 kv hkv with hsmall | heq
    · exact hsmall.2.trans (by decide)
    · exact heq ▸ h

section roundTrip

variable {toString : Json → String} {fromStr : String → Option Json}
  {rfc3339 : DateTime → String} {parseRfc3339 : String → Option DateTime}

/-- Text or no text, what is read back is what the document says, as long as the reader reaches the
bottom of it. -/
theorem Finding.fromStr_toString_iff (htext : ReadsBack toString fromStr)
    (htime : ∀ t, parseRfc3339 (rfc3339 t) = some t) (f : Finding) :
    (fromStr (toString (f.toJson rfc3339))).bind (Finding.ofJson parseRfc3339) = some f ↔
      f.Writable ∧ f.evidence.json.depth < recursionLimit := by
  rw [← f.depth_toJson_le_iff rfc3339]
  rcases Nat.lt_or_ge recursionLimit (f.toJson rfc3339).depth with hdeep | hle
  · rw [htext.refuses _ (f.fitsWords_toJson rfc3339) hdeep]
    simp [Nat.not_le.mpr hdeep]
  · rw [htext.reads _ (f.fitsWords_toJson rfc3339) hle, Option.bind_some,
      Finding.ofJson_toJson_iff htime, and_iff_left hle]

theorem Finding.writable_iff (f : Finding) :
    f.Writable ↔ ∀ (key : String) (d : F64), f.otelAttributes[key]? = some (.double d) →
      ∃ q, d = .finite q := by
  constructor
  · intro h key d hd
    exact h key _ hd d rfl
  · rintro h key a ha d rfl
    exact h key d ha

/-- **Which findings are read back from their text**: those whose doubles are all finite and whose
evidence is not nested more deeply than the reader goes inside the finding. -/
theorem Finding.roundTrip_iff (htext : ReadsBack toString fromStr)
    (htime : ∀ t, parseRfc3339 (rfc3339 t) = some t) (f : Finding) :
    (fromStr (toString (f.toJson rfc3339))).bind (Finding.ofJson parseRfc3339) = some f ↔
      (∀ (key : String) (d : F64), f.otelAttributes[key]? = some (.double d) →
        ∃ q, d = .finite q) ∧ f.evidence.json.depth < recursionLimit := by
  rw [← f.writable_iff]
  exact f.fromStr_toString_iff htext htime

end roundTrip

/-! ### One finding -/

theorem readsBack_toText : ReadsBack Json.toText (Json.ofText recursionLimit) where
  reads v _ h := by rw [Json.ofText_toText, if_pos h]
  refuses v _ h := by rw [Json.ofText_toText, if_neg (Nat.not_le.mpr h)]

/-- A text for every instant, which is that of RFC 3339 for one of them. -/
def stamp (t : DateTime) : String :=
  if t = .atSecond 1781276400 then "2026-06-12T15:00:00Z"
  else toText (.array [.int t.timestamp, .int t.subsecNanos.val])

def parseStamp (s : String) : Option DateTime :=
  if s = "2026-06-12T15:00:00Z" then some (.atSecond 1781276400)
  else match ofText 1 s with
    | some (.array [.int timestamp, .int nanos]) =>
      if h : nanos.toNat < 2000000000 then some ⟨timestamp, nanos.toNat, h⟩ else none
    | _ => none

theorem parseStamp_stamp (t : DateTime) : parseStamp (stamp t) = some t := by
  rw [stamp]
  split
  · next h => rw [parseStamp, if_pos rfl, h]
  · obtain ⟨timestamp, nanos⟩ := t
    have hne : toText (.array [.int timestamp, .int nanos.val]) ≠ "2026-06-12T15:00:00Z" := by
      intro heq
      have hhead := congrArg (fun s => s.toList.head?) heq
      simp [toText, write, writeElems, delimit] at hhead
    rw [parseStamp, if_neg hne, ofText_toText, if_pos (by simp [depth_array_le_iff])]
    simp

/-- The finding of a replica that lags behind. -/
def sampleFinding : Finding where
  schemaVersion := findingSchemaVersion
  ruleId := "replica.lag.high"
  ruleVersion := 1
  tier := .standard
  severity := .high
  firedAt := .atSecond 1781276400
  pgInstance := { id := "prod-main", dbName := some "app", role := .replica }
  summary := "Replica prod-main lag 142s exceeds 60s"
  evidence := .ofJson (.object [("lag_seconds", .int 142), ("threshold_seconds", .int 60)])
  remediation :=
    { text := "Investigate write volume on primary", knobs := ["max_wal_senders"] }
  otelAttributes := .ofList [("pgsleuth.replica.id", AttributeValue.string "replica-2")]

theorem Finding.roundTrip_iff_sampleFinding :
    ((Json.ofText recursionLimit (toText (sampleFinding.toJson stamp))).bind
        (Finding.ofJson parseStamp) = some sampleFinding) ↔
      (∀ (key : String) (d : F64), sampleFinding.otelAttributes[key]? = some (.double d) →
        ∃ q, d = .finite q) ∧ sampleFinding.evidence.json.depth < recursionLimit :=
  Finding.roundTrip_iff readsBack_toText parseStamp_stamp sampleFinding

/-- Not every finding survives: an attribute that is not a number is written as null, and null is no
number. -/
theorem Finding.not_roundTrip :
    ¬ ∀ (toString : Json → String) (fromStr : String → Option Json)
      (rfc3339 : DateTime → String) (parseRfc3339 : String → Option DateTime),
      ReadsBack toString fromStr → (∀ t, parseRfc3339 (rfc3339 t) = some t) →
        ∀ f : Finding, (fromStr (toString (f.toJson rfc3339))).bind
          (Finding.ofJson parseRfc3339) = some f := by
  intro h
  have hread := h _ _ _ _ readsBack_toText parseStamp_stamp
    { sampleFinding with otelAttributes := .ofList [("lag.ratio", AttributeValue.double .nan)] }
  obtain ⟨hwritable, -⟩ :=
    (Finding.fromStr_toString_iff readsBack_toText parseStamp_stamp _).mp hread
  obtain ⟨q, hq⟩ := hwritable "lag.ratio" (.double .nan) (by simp) .nan rfl
  cases hq

end PgSleuth
