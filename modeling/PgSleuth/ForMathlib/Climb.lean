import Mathlib.Data.List.Basic
import PgSleuth.ForMathlib.LastSome

/-!
# How far a sequence climbs

The growth of a counter between successive readings, falls counting as nothing, adds up to how far
the counter climbs. For a counter that never falls that is its last value less its first. A reading
that fails and is taken for zero adds a fall, which is free, and a climb back.

## Main definitions

* `climb` — the sum of the growths
* `GapsAtZero` — the readings after a gap follow a counter at zero

## Main results

* `climb_getD_le_iff` — gaps read as zero add nothing exactly when they are at zero
-/

/-- The sum of the growths between successive values. -/
def climb : List ℕ → ℕ
  | a :: b :: l => (b - a) + climb (b :: l)
  | _ => 0

@[simp] theorem climb_nil : climb [] = 0 := rfl

@[simp] theorem climb_singleton (a : ℕ) : climb [a] = 0 := rfl

theorem climb_concat (l : List ℕ) (b : ℕ) :
    climb (l ++ [b]) = climb l + (l.getLast?.map (b - ·)).getD 0 := by
  induction l with
  | nil => rfl
  | cons a l ih =>
    cases l with
    | nil => simp [climb]
    | cons a' l =>
      rw [List.cons_append, List.cons_append, climb, climb, ← List.cons_append, ih,
        List.getLast?_cons_cons, Nat.add_assoc]

/-! ### Readings that fail -/

/-- A reading that follows a gap follows a counter last read at zero, or is zero itself when nothing
was read before. -/
def GapsAtZero (l : List (Option ℕ)) : Prop :=
  ∀ pre v post, l = pre ++ none :: some v :: post → (lastSome pre).getD v = 0

/-- The first reading that did not fail. -/
def firstSome (l : List (Option ℕ)) : Option ℕ := (l.filterMap id).head?

theorem gapsAtZero_nil : GapsAtZero [] := by
  intro pre v post h
  simp at h

/-- One more reading is after a gap or it is not. -/
theorem gapsAtZero_concat {l : List (Option ℕ)} {o : Option ℕ} :
    GapsAtZero (l ++ [o]) ↔
      GapsAtZero l ∧ ∀ pre v, l = pre ++ [none] → o = some v → (lastSome pre).getD v = 0 := by
  constructor
  · intro h
    refine ⟨?_, ?_⟩
    · intro pre v post hl
      exact h pre v (post ++ [o]) (by simp [hl])
    · rintro pre v rfl rfl
      exact h pre v [] (by simp)
  · rintro ⟨hl, hlast⟩ pre v post heq
    rcases List.eq_nil_or_concat post with rfl | ⟨post, o', rfl⟩
    · have hsplit : l ++ [o] = (pre ++ [none]) ++ [some v] := by simpa using heq
      obtain ⟨hpre, ho⟩ := List.append_inj' hsplit rfl
      exact hlast pre v hpre (List.singleton_inj.mp ho)
    · have hsplit : l ++ [o] = (pre ++ none :: some v :: post) ++ [o'] := by simpa using heq
      exact hl pre v post (List.append_inj' hsplit rfl).1

theorem firstSome_concat (l : List (Option ℕ)) (o : Option ℕ) :
    firstSome (l ++ [o]) = (firstSome l).or o := by
  rw [firstSome, firstSome, List.filterMap_append, List.head?_append]
  cases o <;> simp

theorem firstSome_eq_none_iff {l : List (Option ℕ)} : firstSome l = none ↔ lastSome l = none := by
  simp [firstSome, lastSome]

/-- **One more reading**, and what it adds. Without a reading there is no climb, the climb is never
less than the growth, and it is no more than the growth exactly when the gaps are at zero. -/
theorem climb_getD_spec {l : List (Option ℕ)} (h : (l.filterMap id).Pairwise (· ≤ ·)) :
    (lastSome l = none → climb (l.map (·.getD 0)) = 0) ∧
      (lastSome l).getD 0 ≤ (firstSome l).getD 0 + climb (l.map (·.getD 0)) ∧
      ((firstSome l).getD 0 + climb (l.map (·.getD 0)) ≤ (lastSome l).getD 0 ↔ GapsAtZero l) := by
  induction l using List.reverseRecOn with
  | nil => simp [firstSome, gapsAtZero_nil]
  | append_singleton l o ih =>
    rw [List.filterMap_append, List.pairwise_append] at h
    obtain ⟨hnone, hge, hiff⟩ := ih h.1
    rw [List.map_append, List.map_singleton, climb_concat, lastSome_concat, firstSome_concat,
      List.getLast?_map, gapsAtZero_concat]
    cases o with
    | none =>
      -- a gap is read as a fall
      have hfall : ((l.getLast?.map (·.getD 0)).map ((none : Option ℕ).getD 0 - ·)).getD 0 = 0 := by
        cases l.getLast? <;> simp
      rw [hfall]
      simpa using ⟨hnone, hge, hiff⟩
    | some v =>
      cases hlast : l.getLast? with
      | none =>
        obtain rfl := List.getLast?_eq_none_iff.mp hlast
        simp [firstSome, gapsAtZero_nil]
      | some o' =>
        obtain ⟨init, rfl⟩ := List.getLast?_eq_some_iff.mp hlast
        cases o' with
        | some u =>
          have huv : u ≤ v := h.2.2 u (by simp) v (by simp)
          obtain ⟨f, hf⟩ : ∃ f, firstSome (init ++ [some u]) = some f :=
            Option.ne_none_iff_exists'.mp fun hf => by simpa using firstSome_eq_none_iff.mp hf
          simp only [lastSome_concat, Option.some_or, Option.getD_some, hf] at hge hiff
          simp only [hf, Option.some_or, Option.map_some, Option.getD_some, reduceCtorEq,
            false_implies, true_and]
          refine ⟨by omega, ?_⟩
          rw [← hiff, and_iff_left]
          · omega
          · intro pre v' heq
            simpa using (List.append_inj' heq rfl).2
        | none =>
          have hgap : (∀ pre v', init ++ [none] = pre ++ [none] → some v = some v' →
              (lastSome pre).getD v' = 0) ↔ (lastSome init).getD v = 0 := by
            simp
          rw [hgap]
          rw [lastSome_concat, Option.none_or] at hnone hge hiff
          cases hr : lastSome init with
          | none =>
            have hf : firstSome (init ++ [none]) = none :=
              firstSome_eq_none_iff.mpr (by rw [lastSome_concat, Option.none_or, hr])
            rw [hr, hf, hnone hr] at hiff
            rw [hf, hnone hr, ← hiff]
            simp only [Option.some_or, Option.none_or, Option.map_some, Option.getD_some,
              Option.getD_none, reduceCtorEq, false_imp_iff, true_and]
            omega
          | some r =>
            obtain ⟨f, hf⟩ : ∃ f, firstSome (init ++ [none]) = some f := by
              refine Option.ne_none_iff_exists'.mp fun hf => ?_
              have hlast := firstSome_eq_none_iff.mp hf
              rw [lastSome_concat, Option.none_or, hr] at hlast
              cases hlast
            simp only [hr, hf, Option.getD_some] at hge hiff
            simp only [hf, Option.some_or, Option.map_some, Option.getD_some, Option.getD_none,
              Nat.sub_zero, reduceCtorEq, false_implies, true_and]
            rw [← hiff]
            -- the climb back from zero is more than the growth unless nothing was read
            omega

/-- **Gaps read as zero** add nothing to the climb of a counter that never falls exactly when they
are at zero. -/
theorem climb_getD_le_iff {l : List (Option ℕ)} (h : (l.filterMap id).Pairwise (· ≤ ·)) :
    climb (l.map (·.getD 0)) ≤ (lastSome l).getD 0 - (firstSome l).getD 0 ↔ GapsAtZero l := by
  obtain ⟨hnone, -, hiff⟩ := climb_getD_spec h
  rw [← hiff]
  have hle : (firstSome l).getD 0 ≤ (lastSome l).getD 0 := by
    rw [firstSome, lastSome]
    revert h
    cases l.filterMap id with
    | nil => simp
    | cons a l =>
      intro h
      rw [List.head?_cons, List.getLast?_eq_some_getLast (List.cons_ne_nil a l)]
      rcases List.mem_cons.mp (List.getLast_mem (List.cons_ne_nil a l)) with heq | hmem
      · exact Nat.le_of_eq heq.symm
      · exact (List.pairwise_cons.mp h).1 _ hmem
  omega
