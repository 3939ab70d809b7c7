import Mathlib.Data.List.Basic
import Mathlib.Data.List.Induction

/-!
# Mealy machines run over finite input lists

A polling loop, a rule fed by a ring buffer and a kernel program that keeps a map between two
probes all have the same shape: a total step function `σ → ι → σ × ω` from a state and one input
to the next state and one output. This file runs such a function over a list of inputs and proves
the few rules every one of those developments needs. Nothing here knows about any particular
machine.

## Total semantics

A machine never gets stuck. An input the program ignores is an input whose step leaves the state
alone, so "the loop skips this tick" needs no partiality and no separate relation.

## Main definitions

* `Mealy.final` — the state after a list of inputs
* `Mealy.outputs` — the outputs, one per input
* `Mealy.outputsOn` — the outputs of the inputs of one kind

## Main results

* `Mealy.getElem?_outputs` — an output is one step from the state its prefix leads to
* `Mealy.final_induction` — an invariant that may mention the history
* `Mealy.simulation` — machines in related states give the same outputs
* `Mealy.getElem?_outputsOn` — the `j`-th output of a kind comes from an input after which `j` of
  that kind had been seen
-/

namespace Mealy

variable {σ ι ω : Type*} (step : σ → ι → σ × ω)

/-- The state after feeding the inputs `is`, from `s`. -/
def final (s : σ) (is : List ι) : σ := is.foldl (fun s i => (step s i).1) s

/-- The outputs of feeding the inputs `is`, from `s`: one per input, in order. -/
def outputs : σ → List ι → List ω
  | _, [] => []
  | s, i :: is => (step s i).2 :: outputs (step s i).1 is

@[simp] theorem final_nil (s : σ) : final step s [] = s := rfl

@[simp] theorem final_cons (s : σ) (i : ι) (is : List ι) :
    final step s (i :: is) = final step (step s i).1 is := rfl

@[simp] theorem final_append (s : σ) (is js : List ι) :
    final step s (is ++ js) = final step (final step s is) js := by
  simp [final]

@[simp] theorem outputs_nil (s : σ) : outputs step s [] = [] := rfl

@[simp] theorem outputs_cons (s : σ) (i : ι) (is : List ι) :
    outputs step s (i :: is) = (step s i).2 :: outputs step (step s i).1 is := rfl

@[simp] theorem outputs_append (s : σ) (is js : List ι) :
    outputs step s (is ++ js) = outputs step s is ++ outputs step (final step s is) js := by
  induction is generalizing s with
  | nil => rfl
  | cons i is ih => simp [ih]

@[simp] theorem length_outputs (s : σ) (is : List ι) :
    (outputs step s is).length = is.length := by
  induction is generalizing s with
  | nil => rfl
  | cons i is ih => simp [ih]

/-- Inputs may be translated on the way in. -/
theorem outputs_map {κ : Type*} (f : κ → ι) (s : σ) (is : List κ) :
    outputs step s (is.map f) = outputs (fun s i => step s (f i)) s is := by
  induction is generalizing s with
  | nil => rfl
  | cons i is ih => simp [ih]

/-- The output at index `k` is one step from the state the first `k` inputs lead to. -/
theorem getElem?_outputs (s : σ) (is : List ι) (k : ℕ) :
    (outputs step s is)[k]? = is[k]?.map fun i => (step (final step s (is.take k)) i).2 := by
  induction is generalizing s k with
  | nil => simp
  | cons i is ih =>
    cases k with
    | zero => simp
    | succ k => simp [ih]

/-- **The invariant rule.** A property of the history and the state that holds of the empty
history and is kept by every step a run takes holds after every run. -/
theorem final_induction {P : List ι → σ → Prop} {s : σ} (nil : P [] s)
    (concat : ∀ is i, P is (final step s is) → P (is ++ [i]) (step (final step s is) i).1)
    (is : List ι) : P is (final step s is) := by
  induction is using List.reverseRecOn with
  | nil => exact nil
  | append_singleton is i ih =>
    rw [final_append]
    exact concat is i ih

/-- **The simulation rule.** Two machines whose states stay related, and whose outputs agree on
related states, give the same outputs in every run and end in related states. -/
theorem simulation {τ : Type*} {step' : τ → ι → τ × ω} {R : σ → τ → Prop}
    (hstep : ∀ s t i, R s t → R (step s i).1 (step' t i).1 ∧ (step s i).2 = (step' t i).2)
    {s : σ} {t : τ} (h : R s t) (is : List ι) :
    outputs step s is = outputs step' t is ∧ R (final step s is) (final step' t is) := by
  induction is generalizing s t with
  | nil => exact ⟨rfl, h⟩
  | cons i is ih =>
    obtain ⟨hnext, hout⟩ := hstep s t i h
    obtain ⟨houts, hfinal⟩ := ih hnext
    exact ⟨by rw [outputs_cons, outputs_cons, hout, houts], hfinal⟩

/-! ### The outputs of one kind of input -/

section outputsOn

variable (p : ι → Bool)

/-- The outputs of the inputs satisfying `p`, in order, when all of `is` is fed from `s`. -/
def outputsOn : σ → List ι → List ω
  | _, [] => []
  | s, i :: is =>
    if p i then (step s i).2 :: outputsOn (step s i).1 is else outputsOn (step s i).1 is

@[simp] theorem outputsOn_nil (s : σ) : outputsOn step p s [] = [] := rfl

theorem outputsOn_cons (s : σ) (i : ι) (is : List ι) :
    outputsOn step p s (i :: is) =
      if p i then (step s i).2 :: outputsOn step p (step s i).1 is
      else outputsOn step p (step s i).1 is := rfl

theorem outputsOn_append (s : σ) (is js : List ι) :
    outputsOn step p s (is ++ js) =
      outputsOn step p s is ++ outputsOn step p (final step s is) js := by
  induction is generalizing s with
  | nil => rfl
  | cons i is ih => cases hp : p i <;> simp [outputsOn_cons, hp, ih]

@[simp] theorem length_outputsOn (s : σ) (is : List ι) :
    (outputsOn step p s is).length = is.countP p := by
  induction is generalizing s with
  | nil => rfl
  | cons i is ih => cases hp : p i <;> simp [outputsOn_cons, hp, ih]

/-- When all inputs are of the kind, so are all outputs. -/
theorem outputsOn_eq_outputs {is : List ι} (h : ∀ i ∈ is, p i = true) (s : σ) :
    outputsOn step p s is = outputs step s is := by
  induction is generalizing s with
  | nil => rfl
  | cons i is ih =>
    rw [outputsOn_cons, if_pos (h i (List.mem_cons_self ..)),
      ih fun i hi => h i (List.mem_cons_of_mem _ hi), outputs_cons]

/-- Where the `j`-th output of the kind comes from. -/
theorem getElem?_outputsOn {s : σ} {is : List ι} {j : ℕ} {o : ω} :
    (outputsOn step p s is)[j]? = some o ↔
      ∃ pre i post, is = pre ++ i :: post ∧ p i = true ∧ pre.countP p = j ∧
        (step (final step s pre) i).2 = o := by
  induction is generalizing s j with
  | nil => simp
  | cons i is ih =>
    rw [outputsOn_cons]
    constructor
    · intro h
      cases hp : p i with
      | true =>
        rw [if_pos hp] at h
        cases j with
        | zero => exact ⟨[], i, is, rfl, hp, rfl, by simpa using h⟩
        | succ j =>
          obtain ⟨pre, i', post, rfl, hp', hcount, ho⟩ := ih.mp (by simpa using h)
          exact ⟨i :: pre, i', post, rfl, hp', by simp [hp, hcount], ho⟩
      | false =>
        rw [if_neg (by simp [hp])] at h
        obtain ⟨pre, i', post, rfl, hp', hcount, ho⟩ := ih.mp h
        exact ⟨i :: pre, i', post, rfl, hp', by simp [hp, hcount], ho⟩
    · rintro ⟨pre, i', post, heq, hp', hcount, ho⟩
      cases pre with
      | nil =>
        obtain ⟨rfl, rfl⟩ := List.cons_eq_cons.mp heq
        subst hcount
        simpa [hp'] using ho
      | cons i₀ pre =>
        obtain ⟨rfl, rfl⟩ := List.cons_eq_cons.mp heq
        cases hp : p i with
        | true =>
          obtain rfl : pre.countP p + 1 = j := by simpa [hp] using hcount
          simpa using ih.mpr ⟨pre, i', post, rfl, hp', rfl, ho⟩
        | false =>
          simpa using ih.mpr ⟨pre, i', post, rfl, hp', by simpa [hp] using hcount, ho⟩

/-- Where the outputs of the kind come from. -/
theorem mem_outputsOn_iff {s : σ} {is : List ι} {o : ω} :
    o ∈ outputsOn step p s is ↔
      ∃ pre i post, is = pre ++ i :: post ∧ p i = true ∧ (step (final step s pre) i).2 = o := by
  rw [List.mem_iff_getElem?]
  constructor
  · rintro ⟨j, hj⟩
    obtain ⟨pre, i, post, heq, hi, -, ho⟩ := (getElem?_outputsOn step p).mp hj
    exact ⟨pre, i, post, heq, hi, ho⟩
  · rintro ⟨pre, i, post, heq, hi, ho⟩
    exact ⟨pre.countP p, (getElem?_outputsOn step p).mpr ⟨pre, i, post, heq, hi, rfl, ho⟩⟩

/-- Inputs of another kind that leave every state alone have no influence on these outputs. -/
theorem outputsOn_filter {q : ι → Bool} (hq : ∀ i, q i = false → p i = false)
    (h : ∀ s i, q i = false → (step s i).1 = s) (s : σ) (is : List ι) :
    outputsOn step p s (is.filter q) = outputsOn step p s is := by
  induction is generalizing s with
  | nil => rfl
  | cons i is ih =>
    cases hi : q i with
    | true => simp [hi, outputsOn_cons, ih]
    | false => simp [hi, outputsOn_cons, hq i hi, h s i hi, ih]

end outputsOn

/-- Where the outputs come from. -/
theorem mem_outputs_iff {s : σ} {is : List ι} {o : ω} :
    o ∈ outputs step s is ↔
      ∃ pre i post, is = pre ++ i :: post ∧ (step (final step s pre) i).2 = o := by
  rw [← outputsOn_eq_outputs step (fun _ => true) fun _ _ => rfl, mem_outputsOn_iff]
  simp

end Mealy
