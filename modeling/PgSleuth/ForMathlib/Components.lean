import PgSleuth.ForMathlib.Mealy

/-!
# Machines made of machines

A system whose state has parts, and each of whose steps runs some of the parts on inputs of their
own. What happens to one part in a run of the system is then a run of that part, on the inputs the
system has fed to it; whatever is known about runs of the part is known about the system. Nothing
here knows how the system decides what to feed.

The second half is about what a part does *not* depend on. To show that some inputs have no
influence on what is visible of a run, it is enough to look at single steps: an input of that kind
shows nothing and leaves the relevant part of the state alone, and every other input treats states
alike that agree on it.

## Main definitions

* `Mealy.fed` — what a run feeds to a part
* `Mealy.Component` — one step of a system, as seen by a part
* `Mealy.Unwinding` — the two conditions on single steps

## Main results

* `Mealy.Component.final`, `Mealy.Component.flatMap_outputs` — a run of a system, as seen by a
  part: where it gets to, and what it puts out
* `Mealy.Unwinding.purge` — inputs without influence can be left out of a run
-/

namespace Mealy

variable {σ ι ω τ κ ν ρ : Type*}

/-! ### What a part is fed -/

section fed

variable (step : σ → ι → σ × ω) (feed : σ → ι → List κ)

/-- What a run from `s` feeds to a part, in order. -/
def fed : σ → List ι → List κ
  | _, [] => []
  | s, i :: is => feed s i ++ fed (step s i).1 is

@[simp] theorem fed_nil (s : σ) : fed step feed s [] = [] := rfl

@[simp] theorem fed_cons (s : σ) (i : ι) (is : List ι) :
    fed step feed s (i :: is) = feed s i ++ fed step feed (step s i).1 is := rfl

@[simp] theorem fed_append (s : σ) (is js : List ι) :
    fed step feed s (is ++ js) = fed step feed s is ++ fed step feed (final step s is) js := by
  induction is generalizing s with
  | nil => rfl
  | cons i is ih => simp [ih]

/-- What is fed one item after the other can be transformed one item after the other. -/
theorem filterMap_fed {κ' : Type*} (g : κ → Option κ') (s : σ) (is : List ι) :
    (fed step feed s is).filterMap g = fed step (fun s i => (feed s i).filterMap g) s is := by
  induction is generalizing s with
  | nil => rfl
  | cons i is ih => simp [ih]

/-- A feed that does not look at the state. -/
theorem fed_eq_flatMap {feed : σ → ι → List κ} {g : ι → List κ} (h : ∀ s i, feed s i = g i)
    (s : σ) (is : List ι) : fed step feed s is = is.flatMap g := by
  induction is generalizing s with
  | nil => rfl
  | cons i is ih => simp [ih, h]

theorem fed_congr {feed feed' : σ → ι → List κ} (h : ∀ s i, feed s i = feed' s i) (s : σ)
    (is : List ι) : fed step feed s is = fed step feed' s is := by
  induction is generalizing s with
  | nil => rfl
  | cons i is ih => simp [ih, h]

variable {step feed}

/-- When no input feeds more than one item, an initial stretch of the feed is the feed of an initial
stretch. -/
theorem exists_prefix_of_prefix_fed (h : ∀ s i, (feed s i).length ≤ 1) {s : σ} {is : List ι}
    {w : List κ} (hw : w <+: fed step feed s is) :
    ∃ pre, pre <+: is ∧ fed step feed s pre = w := by
  induction is generalizing s w with
  | nil => exact ⟨[], List.prefix_refl _, (List.prefix_nil.mp hw).symm⟩
  | cons i is ih =>
    cases w with
    | nil => exact ⟨[], List.nil_prefix, rfl⟩
    | cons k w =>
      have hi := h s i
      rw [fed_cons] at hw
      generalize hfeed : feed s i = now at hw hi
      rcases now with _ | ⟨k', _ | ⟨k'', now⟩⟩
      · obtain ⟨pre, hpre, heq⟩ := ih hw
        exact ⟨i :: pre, (List.prefix_cons_inj i).mpr hpre, by rw [fed_cons, heq, hfeed]; rfl⟩
      · obtain ⟨rfl, hrest⟩ := List.cons_prefix_cons.mp hw
        obtain ⟨pre, hpre, heq⟩ := ih hrest
        exact ⟨i :: pre, (List.prefix_cons_inj i).mpr hpre, by rw [fed_cons, heq, hfeed]; rfl⟩
      · simp at hi

/-- When no input feeds more than one item, a stretch of the feed is the feed of a stretch. -/
theorem exists_infix_of_infix_fed (h : ∀ s i, (feed s i).length ≤ 1) {s : σ} {is : List ι}
    {w : List κ} (hw : w <:+: fed step feed s is) :
    ∃ pre mid post, is = pre ++ mid ++ post ∧ fed step feed (final step s pre) mid = w := by
  obtain ⟨front, back, heq⟩ := hw
  have hfront : front <+: fed step feed s is := ⟨w ++ back, by rw [← heq, List.append_assoc]⟩
  obtain ⟨pre, ⟨rest, rfl⟩, rfl⟩ := exists_prefix_of_prefix_fed h hfront
  rw [fed_append, List.append_assoc, List.append_cancel_left_eq] at heq
  obtain ⟨mid, ⟨post, rfl⟩, rfl⟩ := exists_prefix_of_prefix_fed h ⟨back, heq⟩
  exact ⟨pre, mid, post, (List.append_assoc ..).symm, rfl⟩

end fed

/-! ### Parts -/

/-- What a run shows, collected step by step. -/
theorem flatMap_outputs_eq_fed (step : σ → ι → σ × ω) (view : ω → List ρ) (s : σ) (is : List ι) :
    (outputs step s is).flatMap view = fed step (fun s i => view (step s i).2) s is := by
  induction is generalizing s with
  | nil => rfl
  | cons i is ih => simp [ih]

/-- One step of a system, as seen by a part: `proj` is the part's state, and a step of the system
runs the part on the inputs `feed`. -/
def Component (step : σ → ι → σ × ω) (part : τ → κ → τ × ν) (proj : σ → τ)
    (feed : σ → ι → List κ) : Prop :=
  ∀ s i, proj (step s i).1 = final part (proj s) (feed s i)

namespace Component

variable {step : σ → ι → σ × ω} {part : τ → κ → τ × ν} {proj : σ → τ} {feed : σ → ι → List κ}

/-- **A run of a system, as seen by a part**: the part has run on what it was fed. -/
theorem final (h : Component step part proj feed) (s : σ) (is : List ι) :
    proj (final step s is) = Mealy.final part (proj s) (fed step feed s is) := by
  induction is generalizing s with
  | nil => rfl
  | cons i is ih => rw [final_cons, ih, h, fed_cons, final_append]

/-- What a part puts out in a run of the system, collected step by step of the system. -/
theorem flatMap_outputs (h : Component step part proj feed) (report : ν → List ρ) (s : σ)
    (is : List ι) :
    (outputs part (proj s) (fed step feed s is)).flatMap report =
      fed step (fun s i => (outputs part (proj s) (feed s i)).flatMap report) s is := by
  induction is generalizing s with
  | nil => rfl
  | cons i is ih =>
    rw [fed_cons, fed_cons, outputs_append, List.flatMap_append, ← ih, h]

end Component

/-! ### Inputs without influence -/

/-- The inputs outside `p` have no influence on what `view` shows: they show nothing and keep the
states related, and the inputs in `p` treat related states alike. -/
structure Unwinding (step : σ → ι → σ × ω) (R : σ → σ → Prop) (p : ι → Bool)
    (view : ω → List ρ) : Prop where
  respects : ∀ s t i, R s t → p i = false → R (step s i).1 t ∧ view (step s i).2 = []
  consistent : ∀ s t i, R s t → p i = true →
    R (step s i).1 (step t i).1 ∧ view (step s i).2 = view (step t i).2

/-- **Inputs without influence can be left out of a run.** -/
theorem Unwinding.purge {step : σ → ι → σ × ω} {R : σ → σ → Prop} {p : ι → Bool}
    {view : ω → List ρ} (h : Unwinding step R p view) {s t : σ} (hst : R s t) (is : List ι) :
    (outputs step s is).flatMap view = (outputs step t (is.filter p)).flatMap view ∧
      R (Mealy.final step s is) (Mealy.final step t (is.filter p)) := by
  induction is generalizing s t with
  | nil => exact ⟨rfl, hst⟩
  | cons i is ih =>
    cases hi : p i with
    | false =>
      obtain ⟨hR, hview⟩ := h.respects s t i hst hi
      obtain ⟨houts, hfinal⟩ := ih hR
      refine ⟨?_, ?_⟩
      · simp [hi, hview, houts]
      · simpa [hi] using hfinal
    | true =>
      obtain ⟨hR, hview⟩ := h.consistent s t i hst hi
      obtain ⟨houts, hfinal⟩ := ih hR
      refine ⟨?_, ?_⟩
      · simp [hi, hview, houts]
      · simpa [hi] using hfinal

end Mealy
