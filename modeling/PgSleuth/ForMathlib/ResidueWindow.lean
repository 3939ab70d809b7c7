import Mathlib.Data.Int.GCD
import Mathlib.Tactic.Ring

/-!
# Windows that contain a multiple

Cut the time line into windows `((j - 1) * I, j * I]` and mark the multiples of `L`. The number of
multiples in the first `j` windows is `j * I / L`, so a window contains one exactly when this
quotient grows. For `L ≤ I` every window does. For `L` longer than a window some do not, and the
question here is how many windows *in a row* can: the answer depends on how close a residue of
`a * I` modulo `L` can come to `L`, which is a matter of the greatest common divisor.

## Main results

* `exists_mul_mod_eq_sub_gcd` — the largest residue a multiple of `I` leaves modulo `L`
* `exists_marked_run_iff` — `N` windows in a row contain a multiple somewhere exactly when
  `N * (L - I) + gcd I L ≤ L`
-/

namespace ResidueWindow

/-- Every multiple of `I` leaves a residue modulo `L` that is a multiple of `gcd I L`, so no
residue comes closer to `L` than that. -/
theorem mul_mod_add_gcd_le {I L : ℕ} (hL : 0 < L) (a : ℕ) : a * I % L + I.gcd L ≤ L := by
  have hlt : a * I % L < L := Nat.mod_lt _ hL
  have hdvd : I.gcd L ∣ L - a * I % L := by
    refine Nat.dvd_sub (Nat.gcd_dvd_right I L) ?_
    exact (Nat.dvd_mod_iff (Nat.gcd_dvd_right I L)).mpr
      (Dvd.dvd.mul_left (Nat.gcd_dvd_left I L) a)
  have := Nat.le_of_dvd (by omega) hdvd
  omega

/-- **The closest approach is attained.** -/
theorem exists_mul_mod_eq_sub_gcd {I L : ℕ} (hL : 0 < L) : ∃ a, a * I % L = L - I.gcd L := by
  have hg : 0 < I.gcd L := Nat.gcd_pos_of_pos_right I hL
  rcases Nat.lt_or_ge (I.gcd L) L with h | h
  · obtain ⟨m, -, hm⟩ := Nat.exists_mul_mod_eq_gcd h
    obtain ⟨q, hq⟩ := Nat.gcd_dvd_right I L
    have hqpos : 0 < q := Nat.pos_of_ne_zero fun h0 => by simp [h0] at hq; omega
    -- `q - 1` copies of a residue equal to the divisor
    refine ⟨m * (q - 1), ?_⟩
    have hmul : I.gcd L * (q - 1) = L - I.gcd L := by
      rw [Nat.mul_sub, Nat.mul_one, ← hq]
    calc m * (q - 1) * I % L = I * m * (q - 1) % L := by congr 1; ring
      _ = I * m % L * (q - 1) % L := by rw [Nat.mod_mul_mod]
      _ = (L - I.gcd L) % L := by rw [hm, hmul]
      _ = L - I.gcd L := Nat.mod_eq_of_lt (by omega)
  · have hle : I.gcd L ≤ L := Nat.gcd_le_right I hL
    exact ⟨0, by simp; omega⟩

/-- While `I ≤ L` a window holds at most one multiple. -/
theorem succ_mul_div_le {I L : ℕ} (hL : 0 < L) (hI : I ≤ L) (a : ℕ) :
    (a + 1) * I / L ≤ a * I / L + 1 := by
  calc (a + 1) * I / L = (a * I + I) / L := by rw [Nat.add_mul, Nat.one_mul]
    _ ≤ (a * I + L) / L := Nat.div_le_div_right (by omega)
    _ = a * I / L + 1 := Nat.add_div_right _ hL

theorem add_mul_div_le {I L : ℕ} (hL : 0 < L) (hI : I ≤ L) (a n : ℕ) :
    (a + n) * I / L ≤ a * I / L + n := by
  induction n with
  | zero => simp
  | succ n ih =>
    have := succ_mul_div_le hL hI (a + n)
    rw [← Nat.add_assoc]
    omega

/-- When every window holds at most one multiple, `N` marked windows in a row add up to exactly
`N` multiples, and that is a condition on the residue at the start. -/
theorem marked_run_iff {I L : ℕ} (hL : 0 < L) (hI : I ≤ L) (a N : ℕ) :
    (∀ i < N, (a + i) * I / L < (a + i + 1) * I / L) ↔ N * (L - I) ≤ a * I % L := by
  have hsum : (∀ i < N, (a + i) * I / L < (a + i + 1) * I / L) ↔
      a * I / L + N ≤ (a + N) * I / L := by
    induction N with
    | zero => simp
    | succ N ih =>
      have hstep := succ_mul_div_le hL hI (a + N)
      have hall := add_mul_div_le hL hI a N
      rw [Nat.forall_lt_succ_right, ih, ← Nat.add_assoc a N 1]
      omega
  have hdiv : a * I = a * I / L * L + a * I % L := by
    rw [Nat.mul_comm (a * I / L) L]
    exact (Nat.div_add_mod (a * I) L).symm
  have hNI : N * I ≤ N * L := Nat.mul_le_mul_left N hI
  rw [hsum, Nat.le_div_iff_mul_le hL, Nat.mul_sub]
  constructor
  · intro h
    have : a * I / L * L + N * L ≤ a * I + N * I := by
      calc a * I / L * L + N * L = (a * I / L + N) * L := by ring
        _ ≤ (a + N) * I := h
        _ = a * I + N * I := by ring
    omega
  · intro h
    calc (a * I / L + N) * L = a * I / L * L + N * L := by ring
      _ ≤ a * I + N * I := by omega
      _ = (a + N) * I := by ring

/-- **How many windows in a row can contain a multiple.** Somewhere on the time line `N`
consecutive windows of length `I` each contain a multiple of `L` exactly when `N` times the excess
of `L` over `I` leaves room for one greatest common divisor. The subtraction is truncated: for
`L ≤ I` there is no excess and every `N` qualifies. -/
theorem exists_marked_run_iff {I L : ℕ} (hL : 0 < L) (N : ℕ) :
    (∃ a, ∀ i < N, (a + i) * I / L < (a + i + 1) * I / L) ↔ N * (L - I) + I.gcd L ≤ L := by
  rcases Nat.le_total I L with hI | hI
  · simp only [marked_run_iff hL hI]
    constructor
    · rintro ⟨a, ha⟩
      have := mul_mod_add_gcd_le (I := I) hL a
      omega
    · intro h
      obtain ⟨a, ha⟩ := exists_mul_mod_eq_sub_gcd (I := I) hL
      exact ⟨a, by omega⟩
  · have hgcd : I.gcd L ≤ L := Nat.gcd_le_right I hL
    have hmarked : ∀ a, a * I / L < (a + 1) * I / L := by
      intro a
      calc a * I / L < a * I / L + 1 := Nat.lt_succ_self _
        _ = (a * I + L) / L := (Nat.add_div_right _ hL).symm
        _ ≤ (a * I + I) / L := Nat.div_le_div_right (by omega)
        _ = (a + 1) * I / L := by rw [Nat.add_mul, Nat.one_mul]
    refine iff_of_true ⟨0, fun i _ => hmarked (0 + i)⟩ ?_
    rw [Nat.sub_eq_zero_of_le hI, Nat.mul_zero, Nat.zero_add]
    exact hgcd

end ResidueWindow
