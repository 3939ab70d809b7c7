import Mathlib.Data.List.Infix
import PgSleuth.ForMathlib.Mealy

/-!
# Queues with a fixed capacity

A first-in first-out queue with a producer that cannot wait: a push onto a full queue is refused and
the item is lost. A pop from an empty queue gets nothing. The bound is a field, so an overfull queue
cannot be built.

## When nothing is lost

The queue is as long as the worst stretch of its past: nothing is refused exactly when in no stretch
of the operations the pushes outnumber the pops by more than the capacity. The condition is about
the traffic alone and mentions no queue.

## Main definitions

* `BoundedQueue.step` — one operation
* `BoundedQueue.accepted`, `BoundedQueue.popped` — what went in and what came out
* `BoundedQueue.KeepsPace` — the condition on the traffic

## Main results

* `BoundedQueue.popped_append_items` — what came out, and then what is still there, is what went in
* `BoundedQueue.accepted_eq_pushed_iff` — when nothing is lost
-/

/-- A first-in first-out queue of at most `capacity` items. -/
@[ext]
structure BoundedQueue (α : Type*) (capacity : ℕ) where
  /-- The items, the oldest first. -/
  items : List α
  bounded : items.length ≤ capacity

namespace BoundedQueue

variable {α : Type*} {capacity : ℕ}

/-- The queue with no items. -/
def empty : BoundedQueue α capacity := ⟨[], Nat.zero_le _⟩

@[simp] theorem items_empty : (empty : BoundedQueue α capacity).items = [] := rfl

/-- Whether a push would succeed. -/
def hasRoom (q : BoundedQueue α capacity) : Bool := q.items.length < capacity

/-- Put an item at the end, or leave a full queue as it is. -/
def push (q : BoundedQueue α capacity) (a : α) : BoundedQueue α capacity :=
  if h : q.items.length < capacity then ⟨q.items ++ [a], by simpa [Nat.succ_le_iff] using h⟩ else q

/-- Drop the oldest item. -/
def pop (q : BoundedQueue α capacity) : BoundedQueue α capacity :=
  ⟨q.items.tail, Nat.le_trans (by simp) q.bounded⟩

@[simp] theorem items_pop (q : BoundedQueue α capacity) : q.pop.items = q.items.tail := rfl

theorem items_push (q : BoundedQueue α capacity) (a : α) :
    (q.push a).items = if q.hasRoom then q.items ++ [a] else q.items := by
  by_cases h : q.items.length < capacity
  · simp [push, hasRoom, h]
  · simp [push, hasRoom, h]

theorem pop_of_items_eq_nil {q : BoundedQueue α capacity} (h : q.items = []) : q.pop = q :=
  BoundedQueue.ext (by rw [items_pop, h, List.tail_nil])

theorem push_of_hasRoom_eq_false {q : BoundedQueue α capacity} (h : q.hasRoom = false) (a : α) :
    q.push a = q := by
  rw [push, dif_neg (by simpa [hasRoom] using h)]

/-! ### Operations -/

/-- One use of a queue. -/
inductive Op (α : Type*)
  | push (a : α)
  | pop

namespace Op

/-- The item an operation offers. -/
def pushed : Op α → Option α
  | .push a => some a
  | .pop => none

def isPush : Op α → Bool
  | .push _ => true
  | .pop => false

def isPop : Op α → Bool
  | .push _ => false
  | .pop => true

end Op

/-- What comes of an operation: the item that went in, and the item that came out. -/
structure Outcome (α : Type*) where
  accepted : Option α
  popped : Option α

/-- One operation. -/
def step (q : BoundedQueue α capacity) : Op α → BoundedQueue α capacity × Outcome α
  | .push a => (q.push a, ⟨if q.hasRoom then some a else none, none⟩)
  | .pop => (q.pop, ⟨none, q.items.head?⟩)

/-- The items that went in. -/
def accepted (q : BoundedQueue α capacity) (ops : List (Op α)) : List α :=
  (Mealy.outputs step q ops).filterMap Outcome.accepted

/-- The items that came out. -/
def popped (q : BoundedQueue α capacity) (ops : List (Op α)) : List α :=
  (Mealy.outputs step q ops).filterMap Outcome.popped

/-- One operation, as an equation: what came out and what is left is what was there and what went
in. -/
theorem step_conserves (q : BoundedQueue α capacity) (op : Op α) :
    (q.step op).2.popped.toList ++ (q.step op).1.items =
      q.items ++ (q.step op).2.accepted.toList := by
  cases op with
  | push a => cases h : q.hasRoom <;> simp [step, items_push, h]
  | pop => cases h : q.items <;> simp [step, h]

/-- **Nothing is lost or duplicated or reordered inside the queue.** -/
theorem popped_append_items (q : BoundedQueue α capacity) (ops : List (Op α)) :
    q.popped ops ++ (Mealy.final step q ops).items = q.items ++ q.accepted ops := by
  induction ops generalizing q with
  | nil => simp [popped, accepted]
  | cons op ops ih =>
    have hstep := q.step_conserves op
    have hrest := ih (q.step op).1
    simp only [popped, accepted, Mealy.outputs_cons, Mealy.final_cons] at hrest ⊢
    have hcons (g : Outcome α → Option α) (os : List (Outcome α)) (o : Outcome α) :
        (o :: os).filterMap g = (g o).toList ++ os.filterMap g := by
      cases h : g o <;> simp [h]
    rw [hcons, hcons, List.append_assoc, hrest, ← List.append_assoc, hstep, List.append_assoc]

/-- What goes in is some of what is offered. -/
theorem accepted_sublist (q : BoundedQueue α capacity) (ops : List (Op α)) :
    (q.accepted ops).Sublist (ops.filterMap Op.pushed) := by
  induction ops generalizing q with
  | nil => exact List.Sublist.refl _
  | cons op ops ih =>
    have hrest := ih (q.step op).1
    simp only [accepted, Mealy.outputs_cons] at hrest ⊢
    cases op with
    | push a =>
      cases h : q.hasRoom with
      | true => simpa [step, h, Op.pushed] using hrest
      | false =>
        simp only [step, h, Op.pushed, List.filterMap_cons] at hrest ⊢
        exact hrest.cons a
    | pop => simpa [step, Op.pushed, List.filterMap_cons] using hrest

/-! ### When nothing is lost -/

/-- In no stretch do the pushes outnumber the pops by more than `capacity`. -/
def KeepsPace (capacity : ℕ) (ops : List (Op α)) : Prop :=
  ∀ w, w <:+: ops → w.countP Op.isPush ≤ w.countP Op.isPop + capacity

/-- How long the queue gets, at most: some stretch that ends now has brought all of it in. -/
theorem exists_suffix_length_le (ops : List (Op α)) :
    ∃ w, w <:+ ops ∧ (Mealy.final step (empty : BoundedQueue α capacity) ops).items.length +
      w.countP Op.isPop ≤ w.countP Op.isPush := by
  induction ops using List.reverseRecOn with
  | nil => exact ⟨[], List.suffix_refl _, by simp⟩
  | append_singleton ops op ih =>
    obtain ⟨w, hw, hle⟩ := ih
    simp only [Mealy.final_append, Mealy.final_cons, Mealy.final_nil]
    generalize Mealy.final step (empty : BoundedQueue α capacity) ops = q at hle ⊢
    cases op with
    | push a =>
      refine ⟨w ++ [.push a], (List.suffix_append_self_iff).mpr hw, ?_⟩
      simp only [step, items_push, List.countP_append, List.countP_singleton, Op.isPush, Op.isPop]
      cases q.hasRoom <;> simp <;> omega
    | pop =>
      cases hq : q.items with
      | nil => exact ⟨[], List.nil_suffix, by simp [step, hq]⟩
      | cons a as =>
        refine ⟨w ++ [.pop], (List.suffix_append_self_iff).mpr hw, ?_⟩
        simp only [hq, List.length_cons] at hle
        simp [step, hq, List.countP_append, List.countP_singleton, Op.isPush, Op.isPop]
        omega

/-- How long the queue gets, at least, when nothing is refused: a stretch brings in what it pushes
beyond what it pops. -/
theorem countP_isPush_le (q : BoundedQueue α capacity) (ops : List (Op α))
    (h : q.accepted ops = ops.filterMap Op.pushed) :
    q.items.length + ops.countP Op.isPush ≤
      (Mealy.final step q ops).items.length + ops.countP Op.isPop := by
  have hlen := congrArg List.length (q.popped_append_items ops)
  have hpush : (ops.filterMap Op.pushed).length = ops.countP Op.isPush := by
    rw [List.length_filterMap_eq_countP]
    congr 1
    funext op
    cases op <;> rfl
  have hpop : (q.popped ops).length ≤ ops.countP Op.isPop := by
    clear h hlen hpush
    induction ops generalizing q with
    | nil => simp [popped]
    | cons op ops ih =>
      have hrest := ih (q.step op).1
      simp only [popped, Mealy.outputs_cons] at hrest ⊢
      cases op with
      | push a => simpa [step, Op.isPop] using hrest
      | pop =>
        rw [List.countP_cons_of_pos rfl]
        cases hq : q.items <;> simp [step, hq] at hrest ⊢ <;> omega
  rw [List.length_append, List.length_append, h, hpush] at hlen
  omega

theorem accepted_append (q : BoundedQueue α capacity) (ops ops' : List (Op α)) :
    q.accepted (ops ++ ops') = q.accepted ops ++ (Mealy.final step q ops).accepted ops' := by
  simp [accepted]

/-- When nothing is refused, nothing is refused in any stretch. -/
theorem accepted_stretch {q : BoundedQueue α capacity} {ops ops' : List (Op α)}
    (h : q.accepted (ops ++ ops') = (ops ++ ops').filterMap Op.pushed) :
    q.accepted ops = ops.filterMap Op.pushed ∧
      (Mealy.final step q ops).accepted ops' = ops'.filterMap Op.pushed := by
  rw [accepted_append, List.filterMap_append] at h
  have hlen := (q.accepted_sublist ops).length_le
  have hlen' := ((Mealy.final step q ops).accepted_sublist ops').length_le
  have heq := congrArg List.length h
  rw [List.length_append, List.length_append] at heq
  exact List.append_inj h (by omega)

/-- **When nothing is lost.** Starting empty, every item offered is accepted exactly when in no
stretch of the traffic the pushes outnumber the pops by more than the capacity. -/
theorem accepted_eq_pushed_iff (ops : List (Op α)) :
    (empty : BoundedQueue α capacity).accepted ops = ops.filterMap Op.pushed ↔
      KeepsPace capacity ops := by
  constructor
  · rintro h w ⟨pre, post, rfl⟩
    obtain ⟨hfront, -⟩ := accepted_stretch h
    obtain ⟨-, hw⟩ := accepted_stretch hfront
    have hle := countP_isPush_le _ w hw
    have hbound := (Mealy.final step (Mealy.final step (empty : BoundedQueue α capacity) pre)
      w).bounded
    omega
  · intro h
    induction ops using List.reverseRecOn with
    | nil => rfl
    | append_singleton ops op ih =>
      rw [accepted_append, List.filterMap_append,
        ih fun w hw => h w (hw.trans (List.prefix_append ..).isInfix)]
      congr 1
      cases op with
      | pop => rfl
      | push a =>
        -- a refusal would mean a full queue, and so a stretch that outruns it
        obtain ⟨w, hw, hle⟩ := @exists_suffix_length_le α capacity ops
        have hpace := h (w ++ [.push a]) ((List.suffix_append_self_iff).mpr hw).isInfix
        simp only [List.countP_append, List.countP_singleton, Op.isPush, Op.isPop] at hpace
        have hroom : (Mealy.final step (empty : BoundedQueue α capacity) ops).hasRoom = true := by
          simp only [hasRoom, decide_eq_true_eq]
          simp at hpace
          omega
        simp [accepted, step, hroom, Op.pushed]

end BoundedQueue
