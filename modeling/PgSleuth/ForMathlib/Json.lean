import Mathlib.Algebra.Order.Ring.Rat
import Mathlib.Data.List.Forall2
import PgSleuth.ForMathlib.OrderedMap

/-!
# JSON documents and JSON values

A document is what the text of a JSON file says, with the members of an object in the order in which
they stand. A value is what a program keeps of it: members in key order and each key once, integers
that fit a machine word, and doubles for all other numbers. A value is a document of a special form,
and a program that reads a document into a value normalises it.

## Numbers

A finite double is the rational it stands for. JSON has no text for the others.

## Main definitions

* `Json` — a document
* `Json.depth` — how far arrays and objects are nested
* `Json.normalize` — what a program makes of a document
* `JsonValue` — a normalised document

## Main results

* `Json.induction` — to prove something of a document, prove it from its parts
* `Json.normalize_eq_self` — normalising a value changes nothing
* `JsonValue.get?_ofJson` — the members of an object whose keys all differ
-/

/-- A JSON document. -/
inductive Json
  | null
  | bool (b : Bool)
  | int (i : ℤ)
  | float (q : ℚ)
  | string (s : String)
  | array (vs : List Json)
  | object (fields : List (String × Json))

namespace Json

/-- Indexing an object by key. -/
def get? : Json → String → Option Json
  | object fields, key => fields.lookup key
  | _, _ => none

/-- Indexing an object by key, then the member by the next key, and so on. -/
def pointer (v : Json) : List String → Option Json
  | [] => some v
  | key :: path => (v.get? key).bind fun w => w.pointer path

/-- A path into an object whose keys all differ goes through the member with its first key. -/
theorem pointer_object {fields : List (String × Json)} (h : (fields.map Prod.fst).Nodup)
    {key : String} {v : Json} (hv : (key, v) ∈ fields) (path : List String) :
    (object fields).pointer (key :: path) = v.pointer path := by
  rw [pointer, get?, (List.lookup_eq_some_iff_mem h).mpr hv, Option.bind_some]

/-- Whether a document is `null`. -/
def isNull : Json → Bool
  | null => true
  | _ => false

theorem isNull_iff {v : Json} : v.isNull = true ↔ v = null := by
  cases v <;> simp [isNull]

/-- The documents directly inside this one. -/
def children : Json → List Json
  | array vs => vs
  | object fields => fields.map Prod.snd
  | _ => []

mutual

/-- How many arrays and objects there are inside one another. -/
def depth : Json → ℕ
  | array vs => depthElems vs + 1
  | object fields => depthFields fields + 1
  | _ => 0

/-- The greatest depth among the elements of an array. -/
def depthElems : List Json → ℕ
  | [] => 0
  | v :: vs => max v.depth (depthElems vs)

/-- The greatest depth among the members of an object. -/
def depthFields : List (String × Json) → ℕ
  | [] => 0
  | (_, v) :: fields => max v.depth (depthFields fields)

end

@[simp] theorem depth_null : null.depth = 0 := rfl

@[simp] theorem depth_bool (b : Bool) : (bool b).depth = 0 := rfl

@[simp] theorem depth_int (i : ℤ) : (int i).depth = 0 := rfl

@[simp] theorem depth_float (q : ℚ) : (float q).depth = 0 := rfl

@[simp] theorem depth_string (s : String) : (string s).depth = 0 := rfl

theorem depthElems_le_iff {vs : List Json} {d : ℕ} :
    depthElems vs ≤ d ↔ ∀ v ∈ vs, v.depth ≤ d := by
  induction vs with
  | nil => simp [depthElems]
  | cons v vs ih => simp [depthElems, ih]

theorem depthFields_le_iff {fields : List (String × Json)} {d : ℕ} :
    depthFields fields ≤ d ↔ ∀ kv ∈ fields, kv.2.depth ≤ d := by
  induction fields with
  | nil => simp [depthFields]
  | cons kv fields ih => simp [depthFields, ih]

theorem depth_array_le_iff {vs : List Json} {d : ℕ} :
    (array vs).depth ≤ d + 1 ↔ ∀ v ∈ vs, v.depth ≤ d := by
  rw [depth, Nat.add_le_add_iff_right, depthElems_le_iff]

theorem depth_object_le_iff {fields : List (String × Json)} {d : ℕ} :
    (object fields).depth ≤ d + 1 ↔ ∀ kv ∈ fields, kv.2.depth ≤ d := by
  rw [depth, Nat.add_le_add_iff_right, depthFields_le_iff]

/-- **Induction on documents.** What holds of a document as soon as it holds of the documents inside
it holds of all of them. -/
theorem induction {P : Json → Prop} (step : ∀ v, (∀ w ∈ v.children, P w) → P v) (v : Json) : P v :=
  @Json.rec P (fun vs => ∀ w ∈ vs, P w) (fun fields => ∀ kv ∈ fields, P kv.2) (fun kv => P kv.2)
    (step null (by simp [children])) (fun b => step (bool b) (by simp [children]))
    (fun i => step (int i) (by simp [children])) (fun q => step (float q) (by simp [children]))
    (fun s => step (string s) (by simp [children])) (fun vs h => step (array vs) h)
    (fun fields h => step (object fields) (List.forall_mem_map.mpr h))
    (by simp) (fun v vs hv h => List.forall_mem_cons.mpr ⟨hv, h⟩)
    (by simp) (fun kv fields hkv h => List.forall_mem_cons.mpr ⟨hkv, h⟩) (fun _ _ h => h) v

/-- A property of this document and of all inside it. -/
inductive Everywhere (p : Json → Prop) : Json → Prop
  | intro {v : Json} (here : p v) (below : ∀ w ∈ v.children, Everywhere p w) : Everywhere p v

theorem Everywhere.mono {p q : Json → Prop} (hpq : ∀ v, p v → q v) {v : Json}
    (h : Everywhere p v) : Everywhere q v := by
  induction h with
  | intro here _ ih => exact ⟨hpq _ here, ih⟩

theorem everywhere_of_children_eq_nil {p : Json → Prop} {v : Json} (hv : v.children = []) :
    Everywhere p v ↔ p v := by
  constructor
  · rintro ⟨here, -⟩
    exact here
  · intro here
    exact ⟨here, by simp [hv]⟩

theorem everywhere_array {p : Json → Prop} {vs : List Json} :
    Everywhere p (array vs) ↔ p (array vs) ∧ ∀ v ∈ vs, Everywhere p v := by
  constructor
  · rintro ⟨here, below⟩
    exact ⟨here, below⟩
  · rintro ⟨here, below⟩
    exact ⟨here, below⟩

theorem everywhere_object {p : Json → Prop} {fields : List (String × Json)} :
    Everywhere p (object fields) ↔ p (object fields) ∧ ∀ kv ∈ fields, Everywhere p kv.2 := by
  constructor
  · rintro ⟨here, below⟩
    exact ⟨here, List.forall_mem_map.mp below⟩
  · rintro ⟨here, below⟩
    exact ⟨here, List.forall_mem_map.mpr below⟩

/-! ### What a program keeps -/

/-- The members of an object are in key order. -/
def KeysOrdered : Json → Prop
  | object fields => fields.Pairwise fun a b => compare a.1 b.1 = .lt
  | _ => True

/-- An integer is one a machine word holds, signed or unsigned. -/
def FitsWord : Json → Prop
  | int i => -2 ^ 63 ≤ i ∧ i < 2 ^ 64
  | _ => True

/-- All integers of a document are ones a machine word holds. -/
def FitsWords (v : Json) : Prop := Everywhere FitsWord v

@[simp] theorem fitsWords_null : null.FitsWords := ⟨trivial, by simp [children]⟩

@[simp] theorem fitsWords_bool (b : Bool) : (bool b).FitsWords := ⟨trivial, by simp [children]⟩

@[simp] theorem fitsWords_int {i : ℤ} : (int i).FitsWords ↔ -2 ^ 63 ≤ i ∧ i < 2 ^ 64 :=
  everywhere_of_children_eq_nil rfl

@[simp] theorem fitsWords_float (q : ℚ) : (float q).FitsWords := ⟨trivial, by simp [children]⟩

@[simp] theorem fitsWords_string (s : String) : (string s).FitsWords :=
  ⟨trivial, by simp [children]⟩

@[simp] theorem fitsWords_array {vs : List Json} :
    (array vs).FitsWords ↔ ∀ v ∈ vs, v.FitsWords :=
  everywhere_array.trans (and_iff_right trivial)

@[simp] theorem fitsWords_object {fields : List (String × Json)} :
    (object fields).FitsWords ↔ ∀ kv ∈ fields, kv.2.FitsWords :=
  everywhere_object.trans (and_iff_right trivial)

/-- All doubles of a document are among the given ones. -/
def FloatsIn (exact : ℚ → Prop) (v : Json) : Prop :=
  Everywhere (fun v => ∀ q, v = float q → exact q) v

section floatsIn

variable {exact : ℚ → Prop}

@[simp] theorem floatsIn_null : null.FloatsIn exact := ⟨by simp, by simp [children]⟩

@[simp] theorem floatsIn_bool (b : Bool) : (bool b).FloatsIn exact := ⟨by simp, by simp [children]⟩

@[simp] theorem floatsIn_int (i : ℤ) : (int i).FloatsIn exact := ⟨by simp, by simp [children]⟩

@[simp] theorem floatsIn_float {q : ℚ} : (float q).FloatsIn exact ↔ exact q := by
  rw [FloatsIn, everywhere_of_children_eq_nil rfl]
  simp

@[simp] theorem floatsIn_string (s : String) : (string s).FloatsIn exact :=
  ⟨by simp, by simp [children]⟩

@[simp] theorem floatsIn_array {vs : List Json} :
    (array vs).FloatsIn exact ↔ ∀ v ∈ vs, v.FloatsIn exact :=
  everywhere_array.trans (and_iff_right (by simp))

@[simp] theorem floatsIn_object {fields : List (String × Json)} :
    (object fields).FloatsIn exact ↔ ∀ kv ∈ fields, kv.2.FloatsIn exact :=
  everywhere_object.trans (and_iff_right (by simp))

end floatsIn

/-- The double nearest to an integer, ties to even. -/
def nearestDouble (i : ℤ) : ℚ :=
  let ulp := 2 ^ (i.natAbs.log2 - 52)
  let down := i.natAbs / ulp
  let rest := i.natAbs % ulp
  let nearest := if ulp < 2 * rest ∨ 2 * rest = ulp ∧ down % 2 = 1 then down + 1 else down
  (i.sign * (nearest * ulp : ℕ) : ℤ)

mutual

/-- A document as a program keeps it: of two members with one key the later counts, and a number
that fits no word is a double. -/
def normalize : Json → Json
  | int i => if -2 ^ 63 ≤ i ∧ i < 2 ^ 64 then int i else float (nearestDouble i)
  | array vs => array (normalizeElems vs)
  | object fields => object (Std.ExtTreeMap.ofList (normalizeFields fields)).toList
  | v => v

/-- The elements of an array, normalised. -/
def normalizeElems : List Json → List Json
  | [] => []
  | v :: vs => v.normalize :: normalizeElems vs

/-- The members of an object, normalised, still in their order. -/
def normalizeFields : List (String × Json) → List (String × Json)
  | [] => []
  | (k, v) :: fields => (k, v.normalize) :: normalizeFields fields

end

theorem normalizeElems_eq_map (vs : List Json) : normalizeElems vs = vs.map normalize := by
  induction vs with
  | nil => rfl
  | cons v vs ih => rw [normalizeElems, ih, List.map_cons]

theorem normalizeFields_eq_map (fields : List (String × Json)) :
    normalizeFields fields = fields.map fun kv => (kv.1, kv.2.normalize) := by
  induction fields with
  | nil => rfl
  | cons kv fields ih => rw [normalizeFields, ih, List.map_cons]

/-- A document in the form a program keeps. -/
def Normal (v : Json) : Prop := Everywhere (fun v => v.KeysOrdered ∧ v.FitsWord) v

theorem Normal.fitsWords {v : Json} (h : v.Normal) : v.FitsWords := h.mono fun _ hv => hv.2

/-- **Normalising** gives a normal document. -/
theorem normal_normalize (v : Json) : v.normalize.Normal := by
  refine induction (P := fun v => v.normalize.Normal) ?_ v
  intro v ih
  cases v with
  | null => exact ⟨⟨trivial, trivial⟩, by simp [normalize, children]⟩
  | bool b => exact ⟨⟨trivial, trivial⟩, by simp [normalize, children]⟩
  | float q => exact ⟨⟨trivial, trivial⟩, by simp [normalize, children]⟩
  | string s => exact ⟨⟨trivial, trivial⟩, by simp [normalize, children]⟩
  | int i =>
    rw [normalize]
    split
    · exact ⟨⟨trivial, ‹_›⟩, by simp [children]⟩
    · exact ⟨⟨trivial, trivial⟩, by simp [children]⟩
  | array vs =>
    rw [normalize, normalizeElems_eq_map]
    refine ⟨⟨trivial, trivial⟩, ?_⟩
    intro w hw
    obtain ⟨v, hv, rfl⟩ := List.mem_map.mp hw
    exact ih v hv
  | object fields =>
    rw [normalize, normalizeFields_eq_map]
    refine ⟨⟨Std.ExtTreeMap.ordered_keys_toList, trivial⟩, ?_⟩
    intro w hw
    obtain ⟨⟨k, w⟩, hkw, rfl⟩ := List.mem_map.mp hw
    rw [Std.ExtTreeMap.mem_toList_iff_getElem?_eq_some] at hkw
    obtain ⟨⟨k', v⟩, hv, heq⟩ := List.mem_map.mp (Std.ExtTreeMap.mem_of_getElem?_ofList hkw)
    cases heq
    exact ih v (List.mem_map_of_mem hv)

/-- **A normal document** is its own normal form. -/
theorem normalize_eq_self {v : Json} (h : v.Normal) : v.normalize = v := by
  induction h with
  | @intro v here _ ih =>
    cases v with
    | null => rfl
    | bool b => rfl
    | float q => rfl
    | string s => rfl
    | int i =>
      have hfits : -2 ^ 63 ≤ i ∧ i < 2 ^ 64 := here.2
      rw [normalize, if_pos hfits]
    | array vs =>
      have helems : vs.map normalize = vs := (List.map_congr_left ih).trans (List.map_id' vs)
      rw [normalize, normalizeElems_eq_map, helems]
    | object fields =>
      have hfields : (fields.map fun kv => (kv.1, kv.2.normalize)) = fields := by
        refine (List.map_congr_left ?_).trans (List.map_id' fields)
        intro kv hkv
        rw [ih kv.2 (List.mem_map_of_mem hkv)]
      rw [normalize, normalizeFields_eq_map, hfields, Std.ExtTreeMap.toList_ofList here.1]

/-- Normalising makes nothing deeper. -/
theorem depth_normalize_le (v : Json) : v.normalize.depth ≤ v.depth := by
  refine induction (P := fun v => v.normalize.depth ≤ v.depth) ?_ v
  intro v ih
  cases v with
  | null => exact Nat.le_refl _
  | bool b => exact Nat.le_refl _
  | float q => exact Nat.le_refl _
  | string s => exact Nat.le_refl _
  | int i =>
    rw [normalize]
    split <;> exact Nat.le_refl _
  | array vs =>
    rw [normalize, normalizeElems_eq_map, depth.eq_1 vs, depth_array_le_iff, List.forall_mem_map]
    intro v hv
    exact (ih v hv).trans (depthElems_le_iff.mp (Nat.le_refl _) v hv)
  | object fields =>
    rw [normalize, normalizeFields_eq_map, depth.eq_2 fields, depth_object_le_iff]
    rintro ⟨k, w⟩ hkw
    rw [Std.ExtTreeMap.mem_toList_iff_getElem?_eq_some] at hkw
    obtain ⟨⟨k', v⟩, hv, heq⟩ := List.mem_map.mp (Std.ExtTreeMap.mem_of_getElem?_ofList hkw)
    cases heq
    exact (ih v (List.mem_map_of_mem hv)).trans
      (depthFields_le_iff.mp (Nat.le_refl _) ⟨k', v⟩ hv)

/-- Normalising makes no new doubles as long as all integers fit. -/
theorem FloatsIn.normalize {exact : ℚ → Prop} {v : Json} (hfits : v.FitsWords)
    (h : v.FloatsIn exact) : v.normalize.FloatsIn exact := by
  refine induction (P := fun v => v.FitsWords → v.FloatsIn exact → v.normalize.FloatsIn exact)
    ?_ v hfits h
  intro v ih hfits h
  cases v with
  | null => exact h
  | bool b => exact h
  | float q => exact h
  | string s => exact h
  | int i =>
    rw [Json.normalize, if_pos (fitsWords_int.mp hfits)]
    exact h
  | array vs =>
    rw [Json.normalize, normalizeElems_eq_map, floatsIn_array, List.forall_mem_map]
    intro v hv
    exact ih v hv (fitsWords_array.mp hfits v hv) (floatsIn_array.mp h v hv)
  | object fields =>
    rw [Json.normalize, normalizeFields_eq_map, floatsIn_object]
    rintro ⟨k, w⟩ hkw
    rw [Std.ExtTreeMap.mem_toList_iff_getElem?_eq_some] at hkw
    obtain ⟨⟨k', v⟩, hv, heq⟩ := List.mem_map.mp (Std.ExtTreeMap.mem_of_getElem?_ofList hkw)
    cases heq
    exact ih v (List.mem_map_of_mem hv) (fitsWords_object.mp hfits _ hv)
      (floatsIn_object.mp h _ hv)

/-- The members of an object whose keys all differ, normalised. -/
theorem get?_normalize_object {fields : List (String × Json)}
    (h : (fields.map Prod.fst).Nodup) (key : String) :
    (object fields).normalize.get? key = (fields.lookup key).map normalize := by
  have hkeys : ((fields.map fun kv => (kv.1, kv.2.normalize)).map Prod.fst).Nodup := by
    rwa [List.map_map]
  rw [normalize, normalizeFields_eq_map, get?,
    ← Std.ExtTreeMap.getElem?_ofList_eq_lookup (Std.ExtTreeMap.nodup_keys_toList _),
    Std.ExtTreeMap.ofList_toList, Std.ExtTreeMap.getElem?_ofList_eq_lookup hkeys]
  induction fields with
  | nil => rfl
  | cons kv fields ih =>
    rw [List.map_cons, List.lookup_cons, List.lookup_cons]
    split
    · rfl
    · exact ih (List.nodup_cons.mp h).2 (List.nodup_cons.mp hkeys).2

@[simp] theorem normalize_bool (b : Bool) : (bool b).normalize = bool b := rfl

@[simp] theorem normalize_string (s : String) : (string s).normalize = string s := rfl

/-- A `u64` fits. -/
@[simp] theorem normalize_int_uint64 (n : UInt64) : (int n.toNat).normalize = int n.toNat := by
  have := n.toNat_lt
  rw [normalize, if_pos (by omega)]

/-- A `u32` fits. -/
@[simp] theorem normalize_int_uint32 (n : UInt32) : (int n.toNat).normalize = int n.toNat := by
  have := n.toNat_lt
  rw [normalize, if_pos (by omega)]

/-- A `u8` fits. -/
@[simp] theorem normalize_int_uint8 (n : UInt8) : (int n.toNat).normalize = int n.toNat := by
  have := n.toNat_lt
  rw [normalize, if_pos (by omega)]

@[simp high] theorem fitsWords_int_uint64 (n : UInt64) : (int n.toNat).FitsWords := by
  have := n.toNat_lt
  rw [fitsWords_int]
  omega

@[simp high] theorem fitsWords_int_uint32 (n : UInt32) : (int n.toNat).FitsWords := by
  have := n.toNat_lt
  rw [fitsWords_int]
  omega

@[simp high] theorem fitsWords_int_uint8 (n : UInt8) : (int n.toNat).FitsWords := by
  have := n.toNat_lt
  rw [fitsWords_int]
  omega

end Json

/-- A JSON value, as a program keeps it. -/
@[ext] structure JsonValue where
  /-- The value, written out as a document. -/
  json : Json
  /-- It is in normal form. -/
  normal : json.Normal

namespace JsonValue

/-- What a program makes of a document. -/
def ofJson (v : Json) : JsonValue := ⟨v.normalize, v.normal_normalize⟩

/-- Indexing an object by key. -/
def get? (v : JsonValue) (key : String) : Option Json := v.json.get? key

/-- **Reading back** the document a value is written out as. -/
@[simp] theorem ofJson_json (v : JsonValue) : ofJson v.json = v :=
  JsonValue.ext (Json.normalize_eq_self v.normal)

/-- The members of an object whose keys all differ. -/
theorem get?_ofJson {fields : List (String × Json)} (h : (fields.map Prod.fst).Nodup)
    (key : String) :
    (ofJson (.object fields)).get? key = (fields.lookup key).map Json.normalize :=
  Json.get?_normalize_object h key

/-- A member of such an object, when normalising leaves its value alone. -/
theorem get?_ofJson_of_mem {fields : List (String × Json)} (h : (fields.map Prod.fst).Nodup)
    {key : String} {v : Json} (hmem : (key, v) ∈ fields) (hv : v.normalize = v) :
    (ofJson (.object fields)).get? key = some v := by
  rw [get?_ofJson h, (List.lookup_eq_some_iff_mem h).mpr hmem, Option.map_some, hv]

end JsonValue
