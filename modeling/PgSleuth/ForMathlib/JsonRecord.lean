import PgSleuth.ForMathlib.Json

/-!
# Reading records from JSON

A program reads a record from an object by the names of its fields: some must be there, some need
not, members with other names are passed over, and a field that is there twice is an error. Each
reader may fail, and a list is read when all its elements are.

A record may also be written as the array of its fields, and a variant without content as the key of
a null. A program that writes neither may still be given them.

## Main definitions

* `Json.optionalField`, `Json.requiredField` — a field by its name
* `Json.asRecord`, `Json.asUnitVariant` — a record and a variant in any form

## Main results

* `Json.optionalField_of_mem` — a field of an object whose keys all differ
* `Json.depth_lt_of_asRecord` — a field of a record is nested less deeply than the record
* `List.mapM_comp_eq_some_iff` — a list is read back exactly when its elements are
-/

namespace Json

/-- The value of a field that need not be there, unless it is there twice. -/
def optionalField (fields : List (String × Json)) (name : String) : Option (Option Json) :=
  match fields.filter fun kv => kv.1 = name with
  | [] => some none
  | [(_, v)] => some (some v)
  | _ => none

/-- The value of a field that must be there, once. -/
def requiredField (fields : List (String × Json)) (name : String) : Option Json :=
  (optionalField fields name).bind id

/-- **A field of an object** whose keys all differ: the member with its name, if there is one. -/
theorem optionalField_of_mem {fields : List (String × Json)} (h : (fields.map Prod.fst).Nodup)
    {name : String} {v : Json} (hv : (name, v) ∈ fields) :
    optionalField fields name = some (some v) := by
  obtain ⟨pre, post, rfl⟩ := List.append_of_mem hv
  rw [List.map_append, List.map_cons, List.nodup_middle, List.nodup_cons, List.mem_append] at h
  have hnone : ∀ l : List (String × Json), name ∉ l.map Prod.fst →
      l.filter (fun kv => kv.1 = name) = [] := by
    intro l hl
    rw [List.filter_eq_nil_iff]
    intro kv hkv heq
    exact hl (List.mem_map.mpr ⟨kv, hkv, of_decide_eq_true heq⟩)
  obtain ⟨hpre, hpost⟩ := not_or.mp h.1
  simp [optionalField, hnone pre hpre, hnone post hpost]

theorem optionalField_of_notMem {fields : List (String × Json)} {name : String}
    (h : name ∉ fields.map Prod.fst) : optionalField fields name = some none := by
  have hnone : fields.filter (fun kv => kv.1 = name) = [] := by
    rw [List.filter_eq_nil_iff]
    intro kv hkv heq
    exact h (List.mem_map.mpr ⟨kv, hkv, of_decide_eq_true heq⟩)
  rw [optionalField, hnone]

theorem requiredField_of_mem {fields : List (String × Json)} (h : (fields.map Prod.fst).Nodup)
    {name : String} {v : Json} (hv : (name, v) ∈ fields) : requiredField fields name = some v := by
  rw [requiredField, optionalField_of_mem h hv, Option.bind_some, id]

/-- A field that is there is read as its value is. -/
theorem bind_requiredField {fields : List (String × Json)} (h : (fields.map Prod.fst).Nodup)
    {name : String} {v : Json} (hv : (name, v) ∈ fields) {α : Type*} {read : Json → Option α}
    {a : α} (hread : read v = some a) : (requiredField fields name).bind read = some a := by
  rw [requiredField_of_mem h hv, Option.bind_some, hread]

/-- The members of an object. -/
def asObject : Json → Option (List (String × Json))
  | object fields => some fields
  | _ => none

/-- The elements of an array. -/
def asArray : Json → Option (List Json)
  | array vs => some vs
  | _ => none

/-- A string. -/
def asString : Json → Option String
  | string s => some s
  | _ => none

/-- A truth value. -/
def asBool : Json → Option Bool
  | bool b => some b
  | _ => none

/-! ### The forms a record may have -/

/-- The fields of a record with these names, which is an object, or else the array of its fields in
the order of their declaration, where those at the end may be missing. -/
def asRecord (names : List String) : Json → Option (List (String × Json))
  | object fields => some fields
  | array vs => if vs.length ≤ names.length then some (names.zip vs) else none
  | _ => none

/-- The name of a variant without content, which is a string, or else the key of a null. -/
def asUnitVariant : Json → Option String
  | string s => some s
  | object [(s, null)] => some s
  | _ => none

theorem asRecord_of_asObject (names : List String) {v : Json} {fields : List (String × Json)}
    (h : asObject v = some fields) : asRecord names v = some fields := by
  cases v with
  | object members => exact h
  | _ => cases h

theorem asUnitVariant_of_asString {v : Json} {s : String} (h : asString v = some s) :
    asUnitVariant v = some s := by
  cases v with
  | string t => exact h
  | _ => cases h

/-- A field of a record is nested less deeply than the record. -/
theorem depth_lt_of_asRecord {names : List String} {v : Json} {fields : List (String × Json)}
    (h : asRecord names v = some fields) {kv : String × Json} (hkv : kv ∈ fields) :
    kv.2.depth < v.depth := by
  cases v with
  | object members =>
    obtain rfl := Option.some.inj h
    exact Nat.lt_succ_iff.mpr (depthFields_le_iff.mp (Nat.le_refl _) kv hkv)
  | array vs =>
    rw [asRecord] at h
    obtain ⟨-, h⟩ := Option.ite_none_right_eq_some.mp h
    obtain rfl := Option.some.inj h
    have hmem : kv.2 ∈ vs := (List.of_mem_zip hkv).2
    exact Nat.lt_succ_iff.mpr (depthElems_le_iff.mp (Nat.le_refl _) kv.2 hmem)
  | _ => cases h

theorem mem_of_optionalField {fields : List (String × Json)} {name : String} {v : Json}
    (h : optionalField fields name = some (some v)) : (name, v) ∈ fields := by
  simp only [optionalField] at h
  split at h
  · cases h
  · next k w hfilter =>
    obtain rfl := Option.some.inj (Option.some.inj h)
    obtain ⟨hmem, hk⟩ := List.mem_filter.mp (hfilter ▸ List.mem_singleton_self (k, w))
    rwa [← of_decide_eq_true hk]
  · cases h

theorem mem_of_requiredField {fields : List (String × Json)} {name : String} {v : Json}
    (h : requiredField fields name = some v) : (name, v) ∈ fields := by
  obtain ⟨o, ho, hv⟩ := Option.bind_eq_some_iff.mp h
  rw [id] at hv
  exact mem_of_optionalField (hv ▸ ho)

end Json

/-- A reader that gets further than another at each of two stages gets further altogether. -/
theorem Option.bind_eq_some_of_le {α β : Type*} {o o' : Option α} {f g : α → Option β}
    (ho : ∀ a, o = some a → o' = some a) (hfg : ∀ a b, f a = some b → g a = some b) (b : β)
    (h : o.bind f = some b) : o'.bind g = some b := by
  obtain ⟨a, ha, hb⟩ := Option.bind_eq_some_iff.mp h
  exact Option.bind_eq_some_iff.mpr ⟨a, ho a ha, hfg a b hb⟩

/-- A reader that gets further with each element gets further with a list. -/
theorem List.mapM_eq_some_of_le {α β : Type*} {f g : α → Option β}
    (hfg : ∀ a b, f a = some b → g a = some b) {l : List α} {bs : List β}
    (h : l.mapM f = some bs) : l.mapM g = some bs := by
  induction l generalizing bs with
  | nil => exact h
  | cons a l ih =>
    rw [List.mapM_cons] at h ⊢
    obtain ⟨b, hb, h⟩ := Option.bind_eq_some_iff.mp h
    obtain ⟨bs', hbs', h⟩ := Option.bind_eq_some_iff.mp h
    exact Option.bind_eq_some_iff.mpr
      ⟨b, hfg a b hb, Option.bind_eq_some_iff.mpr ⟨bs', ih hbs', h⟩⟩

/-- **A list is read back** exactly when its elements are. -/
theorem List.mapM_comp_eq_some_iff {α β : Type*} {write : α → β} {read : β → Option α}
    {l : List α} : l.mapM (read ∘ write) = some l ↔ ∀ a ∈ l, read (write a) = some a := by
  induction l with
  | nil => simp
  | cons a l ih =>
    rw [List.mapM_cons, List.forall_mem_cons, ← ih]
    constructor
    · intro h
      obtain ⟨a', ha, h⟩ := Option.bind_eq_some_iff.mp h
      obtain ⟨l', hl, h⟩ := Option.bind_eq_some_iff.mp h
      obtain ⟨rfl, rfl⟩ := List.cons.inj (Option.some.inj h)
      exact ⟨ha, hl⟩
    · rintro ⟨ha, hl⟩
      rw [Function.comp_apply, ha, hl]
      rfl

/-- A list whose elements are read back or not at all is read back or not at all. -/
theorem List.mapM_comp_eq_none_or {α β : Type*} {write : α → β} {read : β → Option α} {l : List α}
    (h : ∀ a ∈ l, read (write a) = none ∨ read (write a) = some a) :
    l.mapM (read ∘ write) = none ∨ l.mapM (read ∘ write) = some l := by
  induction l with
  | nil => exact Or.inr rfl
  | cons a l ih =>
    obtain ⟨ha, hl⟩ := List.forall_mem_cons.mp h
    rw [List.mapM_cons, Function.comp_apply]
    rcases ha with ha | ha
    · simp [ha]
    · rcases ih hl with ih | ih
      · simp [ih]
      · simp [ha, ih]

/-- What is in a list that was read was read from something. -/
theorem List.exists_of_mem_mapM {α β : Type*} {read : α → Option β} {l : List α} {bs : List β}
    (h : l.mapM read = some bs) {b : β} (hb : b ∈ bs) : ∃ a ∈ l, read a = some b := by
  induction l generalizing bs with
  | nil =>
    cases h
    cases hb
  | cons a l ih =>
    rw [List.mapM_cons] at h
    obtain ⟨b', hb', h⟩ := Option.bind_eq_some_iff.mp h
    obtain ⟨bs', hbs', h⟩ := Option.bind_eq_some_iff.mp h
    obtain rfl := Option.some.inj h
    rcases List.mem_cons.mp hb with rfl | hb
    · exact ⟨a, List.mem_cons_self, hb'⟩
    · obtain ⟨a', ha', hread⟩ := ih hbs' hb
      exact ⟨a', List.mem_cons_of_mem _ ha', hread⟩

/-- A list of strings is read back. -/
@[simp] theorem Json.mapM_asString_string (l : List String) :
    l.mapM (asString ∘ Json.string) = some l :=
  List.mapM_comp_eq_some_iff.mpr fun _ _ => rfl
