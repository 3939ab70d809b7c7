import PgSleuth.Core.FindingReread
import PgSleuth.Otel.Lossless

/-!
# Findings that lose nothing on the way

What a finding goes through once it is built: it may be written as JSON and read back, and it is
mapped to a log record. The rules of this repository build findings of one shape, a flat object as
evidence and a few attributes under keys of their own, and that shape survives both.

## Main definitions

* `Finding.Portable` — nothing is lost, either way
* `Finding.Plain` — the shape

## Main results

* `Finding.Plain.portable` — the shape suffices
-/

namespace PgSleuth

open Json

/-- **Nothing is lost.** The finding is read back from its text, even by a reader that gets no
double right, and its log record has every attribute once, under its key. -/
structure Finding.Portable (f : Finding) : Prop where
  text : ∀ (toString : Json → String) (fromStr : String → Option Json)
    (rfc3339 : DateTime → String) (parseRfc3339 : String → Option DateTime),
    ReadsBackExactly (fun _ => False) toString fromStr →
      (∀ t, parseRfc3339 (rfc3339 t) = some t) →
        (fromStr (toString (f.toJson rfc3339))).bind (Finding.deserialize parseRfc3339) = some f
  record : ∀ render, NoShadowing render f

/-- The evidence is an object of strings, truth values and integers that fit, and the attributes are
neither doubles nor under a key `map_finding` writes. -/
def Finding.Plain (f : Finding) : Prop :=
  ∃ (members : List (String × Json)) (attributes : List (String × AttributeValue)),
    f.evidence = .ofJson (.object members) ∧ f.otelAttributes = .ofList attributes ∧
    (∀ kv ∈ members, kv.2.depth = 0 ∧ kv.2.FitsWords ∧ kv.2.FloatsIn fun _ => False) ∧
    ∀ kv ∈ attributes, kv.1 ∉ reservedKeys ∧ ∀ d, kv.2 ≠ .double d

namespace Finding.Plain

variable {f : Finding}

/-- The attributes stay clear of the keys `map_finding` writes. -/
theorem clear (h : f.Plain) : ∀ key ∈ f.otelAttributes, key ∉ reservedKeys := by
  obtain ⟨members, attributes, -, hattributes, -, hclear⟩ := h
  intro key hkey
  obtain ⟨a, ha⟩ := Option.isSome_iff_exists.mp (Std.ExtTreeMap.mem_iff_isSome_getElem?.mp hkey)
  rw [hattributes] at ha
  exact (hclear _ (Std.ExtTreeMap.mem_of_getElem?_ofList ha)).1

theorem writable (h : f.Plain) : f.Writable := by
  obtain ⟨members, attributes, -, hattributes, -, hclear⟩ := h
  rintro key a ha d rfl
  rw [hattributes] at ha
  exact absurd rfl ((hclear _ (Std.ExtTreeMap.mem_of_getElem?_ofList ha)).2 d)

theorem depth_evidence_lt (h : f.Plain) : f.evidence.json.depth < recursionLimit := by
  obtain ⟨members, attributes, hevidence, -, hmembers, -⟩ := h
  rw [hevidence]
  calc (JsonValue.ofJson (.object members)).json.depth
      ≤ (Json.object members).depth := depth_normalize_le _
    _ ≤ 0 + 1 := depth_object_le_iff.mpr fun kv hkv => (hmembers kv hkv).1.le
    _ < recursionLimit := by decide

/-- There are no doubles. -/
theorem floatsIn (h : f.Plain) : f.FloatsIn fun _ => False := by
  obtain ⟨members, attributes, hevidence, hattributes, hmembers, hclear⟩ := h
  constructor
  · intro key q hq
    rw [hattributes] at hq
    exact (hclear _ (Std.ExtTreeMap.mem_of_getElem?_ofList hq)).2 _ rfl
  · rw [hevidence]
    exact FloatsIn.normalize (fitsWords_object.mpr fun kv hkv => (hmembers kv hkv).2.1)
      (floatsIn_object.mpr fun kv hkv => (hmembers kv hkv).2.2)

/-- **The shape suffices.** -/
theorem portable (h : f.Plain) : f.Portable where
  text _ _ _ _ htext htime :=
    (Finding.deserialize_text_iff htext htime h.floatsIn).mpr ⟨h.writable, h.depth_evidence_lt⟩
  record render := noShadowing_of_nodup render ((nodup_keys_iff render f).mpr
    fun key hkey hmem => h.clear key hkey (envelopeKeys_subset f hmem))

end Finding.Plain

end PgSleuth
