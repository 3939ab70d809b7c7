import PgSleuth.Cli.CollectPgStmt

/-!
# Are the recorded counters conserved?

The collector's counters are labelled with query, database and user, and a dashboard that adds up
what was recorded under one label expects the counter of that row back. The remembered counters are
keyed by the query alone, so a row may be compared with the row of another user. This file says
exactly when no harm comes of it.

## Main definitions

* `WellFormedPolls` — one row for each label in a poll, and counters that never drop
* `Conserved` — the totals recorded under every label are the counters last seen
* `ComparedWithOwn` — every row is compared with counters that are as good as its own

## Main results

* `conservesThroughout_iff` — a run conserves every counter throughout exactly when every row is
  compared with counters as good as its own
-/

namespace PgSleuth

open StatementSample

/-- Each label occurs at most once in a poll, execution times are in range, and no counter of a
label ever drops. -/
structure WellFormedPolls (polls : List (List StatementSample)) : Prop where
  nodup : ∀ poll ∈ polls, (poll.map identity).Nodup
  execTime : ∀ s ∈ polls.flatten, s.ExecTimeInRange
  monotone : ∀ id c,
    ((polls.flatten.filter (·.identity = id)).map (·.value c)).Pairwise (· ≤ ·)

/-- The totals recorded under every label are the counters last seen under it. -/
def Conserved (polls : List (List StatementSample)) : Prop :=
  ∀ id c, emitted (·.identity = id) (recorded polls) c =
    lastValue (·.identity = id) polls.flatten c

/-- The deltas recorded at the poll with index `k`. -/
def recordedAt (polls : List (List StatementSample)) (k : ℕ) : List PgStmtDelta :=
  (Mealy.outputs emitDeltas .new polls)[k]?.getD []

/-- After every poll of the run the totals are conserved, and a poll that shows the same view as the
one before it records zeros. -/
def ConservesThroughout (polls : List (List StatementSample)) : Prop :=
  (∀ k, Conserved (polls.take k)) ∧
    ∀ k poll, polls[k]? = some poll → polls[k + 1]? = some poll →
      ∀ d ∈ recordedAt polls (k + 1), ∀ c, d.get c = 0

/-- The counters of the last row of the same query are those of the last row of the same label, or
the row has not changed since and they are no smaller. -/
def ComparedWithOwn (polls : List (List StatementSample)) : Prop :=
  ∀ pre s post, polls.flatten = pre ++ s :: post → ∀ c,
    let stored := lastValue (·.queryid = s.queryid) pre c
    let own := lastValue (·.identity = s.identity) pre c
    stored = own ∨ (s.value c = own ∧ own ≤ stored)

/-! ### Rows -/

/-- The poll a row of the flattened list is in. -/
theorem exists_poll_of_flatten_eq {polls : List (List StatementSample)} {s : StatementSample}
    {pre post : List StatementSample} (h : polls.flatten = pre ++ s :: post) :
    ∃ k p p', polls[k]? = some (p ++ s :: p') ∧ pre = (polls.take k).flatten ++ p := by
  induction polls generalizing pre with
  | nil => simp at h
  | cons poll polls ih =>
    rw [List.flatten_cons] at h
    rcases List.append_eq_append_iff.mp h with ⟨q, rfl, hrest⟩ | ⟨q, rfl, hrest⟩
    · obtain ⟨k, p, p', hk, rfl⟩ := ih hrest
      exact ⟨k + 1, p, p', hk, by simp⟩
    · cases q with
      | nil =>
        have hrest : polls.flatten = [] ++ s :: post := hrest.symm
        obtain ⟨k, p, p', hk, hp⟩ := ih hrest
        obtain ⟨hflat, rfl⟩ := List.append_eq_nil_iff.mp hp.symm
        exact ⟨k + 1, [], p', hk, by simp [hflat]⟩
      | cons r q =>
        obtain ⟨rfl, -⟩ := List.cons_eq_cons.mp hrest
        exact ⟨0, pre, q, rfl, by simp⟩

/-- Under a label, a row is never below the last one. -/
theorem WellFormedPolls.lastValue_le {polls : List (List StatementSample)}
    (h : WellFormedPolls polls) {pre post : List StatementSample} {s : StatementSample}
    (heq : polls.flatten = pre ++ s :: post) (c : StmtCounter) :
    lastValue (·.identity = s.identity) pre c ≤ s.value c := by
  rw [lastValue]
  cases hlast : (pre.filter (·.identity = s.identity)).getLast? with
  | none => exact Nat.zero_le _
  | some r =>
    have hmono := h.monotone s.identity c
    rw [heq, List.filter_append, List.filter_cons_of_pos (by simp), List.map_append,
      List.map_cons, List.pairwise_append] at hmono
    exact hmono.2.2 _ (List.mem_map_of_mem (List.mem_of_getLast? hlast)) _
      (List.mem_cons_self ..)

/-- Nothing is recorded under a label that no row has. -/
theorem emitted_identity_of_notMem {rows : List StatementSample} {id : Int64 × String × String}
    (h : id ∉ rows.map identity) (prev : PrevMap) (c : StmtCounter) :
    emitted (·.identity = id) (Mealy.outputs emitRow prev rows) c = 0 := by
  rw [← map_identity_outputs prev] at h
  have hnil : (Mealy.outputs emitRow prev rows).filter (·.identity = id) = [] := by
    refine List.filter_eq_nil_iff.mpr ?_
    intro d hd
    have hne : d.identity ≠ id := fun heq => h (heq ▸ List.mem_map_of_mem hd)
    simpa using hne
  rw [emitted, hnil]
  rfl

theorem notMem_of_nodup {p p' : List StatementSample} {s : StatementSample}
    (h : ((p ++ s :: p').map identity).Nodup) :
    s.identity ∉ p.map identity ∧ s.identity ∉ p'.map identity := by
  rw [List.map_append, List.map_cons, List.nodup_append, List.nodup_cons] at h
  obtain ⟨-, ⟨hright, -⟩, hleft⟩ := h
  exact ⟨fun hmem => hleft _ hmem _ (List.mem_cons_self ..) rfl, hright⟩

/-- What a poll with one row for each label records under the label of one of its rows. -/
theorem emitted_identity_poll {rows p p' : List StatementSample} {s : StatementSample}
    (hnodup : ((p ++ s :: p').map identity).Nodup)
    (hexec : ∀ r ∈ rows ++ (p ++ s :: p'), r.ExecTimeInRange) (c : StmtCounter) :
    emitted (·.identity = s.identity) (Mealy.outputs emitRow .new (rows ++ (p ++ s :: p'))) c =
      emitted (·.identity = s.identity) (Mealy.outputs emitRow .new rows) c +
        (s.value c - lastValue (·.queryid = s.queryid) (rows ++ p) c) := by
  obtain ⟨hp, hp'⟩ := notMem_of_nodup hnodup
  have hrows : ∀ r ∈ rows ++ p, r.ExecTimeInRange := fun r hr =>
    hexec r (by simp only [List.mem_append, List.mem_cons] at hr ⊢; tauto)
  have hrow := toNat_emitRow_get hrows (hexec s (by simp)) c
  have hlabel : (emitRow (Mealy.final emitRow .new (rows ++ p)) s).2.identity = s.identity := rfl
  rw [Mealy.outputs_append, Mealy.outputs_append, Mealy.outputs_cons, emitted_append,
    emitted_append, emitted_identity_of_notMem hp, Nat.zero_add, ← Mealy.final_append,
    emitted_cons, emitted_identity_of_notMem hp', hlabel, if_pos (decide_eq_true rfl),
    hrow, Nat.add_zero]

/-- The counters last seen after such a poll. -/
theorem lastValue_identity_poll (rows : List StatementSample) {p p' : List StatementSample}
    {s : StatementSample} (hnodup : ((p ++ s :: p').map identity).Nodup) (c : StmtCounter) :
    lastValue (·.identity = s.identity) (rows ++ (p ++ s :: p')) c = s.value c ∧
      lastValue (·.identity = s.identity) (rows ++ p) c =
        lastValue (·.identity = s.identity) rows c := by
  obtain ⟨hp, hp'⟩ := notMem_of_nodup hnodup
  have hforall {q : List StatementSample} (hq : s.identity ∉ q.map identity) :
      ∀ r ∈ q, decide (r.identity = s.identity) = false := fun r hr =>
    decide_eq_false fun heq => hq (heq ▸ List.mem_map_of_mem hr)
  constructor
  · rw [List.append_cons, ← List.append_assoc, ← List.append_assoc,
      lastValue_append_of_forall_not _ (hforall hp'), lastValue_concat]
    simp
  · exact lastValue_append_of_forall_not _ (hforall hp) c

/-! ### Conservation -/

theorem recorded_eq (polls : List (List StatementSample)) :
    recorded polls = Mealy.outputs emitRow .new polls.flatten :=
  flatten_outputs_emitDeltas ..

/-- **Rows compared with counters as good as their own conserve every counter**, row by row. -/
theorem emitted_eq_lastValue {polls : List (List StatementSample)} (h : WellFormedPolls polls)
    (hown : ComparedWithOwn polls) {rows post : List StatementSample}
    (heq : polls.flatten = rows ++ post) (id : Int64 × String × String) (c : StmtCounter) :
    emitted (·.identity = id) (Mealy.outputs emitRow .new rows) c =
      lastValue (·.identity = id) rows c := by
  induction rows using List.reverseRecOn generalizing post with
  | nil => rfl
  | append_singleton rows s ih =>
    rw [List.append_assoc, List.singleton_append] at heq
    have hrange : ∀ r ∈ rows ++ s :: post, r.ExecTimeInRange := fun r hr =>
      h.execTime r (heq ▸ hr)
    have hlabel : (emitRow (Mealy.final emitRow .new rows) s).2.identity = s.identity := rfl
    rw [emitted_concat (fun r hr => hrange r (List.mem_append_left _ hr)) (hrange s (by simp)),
      lastValue_concat, ih heq, hlabel]
    by_cases hid : s.identity = id
    · subst hid
      have hle := h.lastValue_le heq c
      have hcompared := hown rows s post heq c
      simp only [decide_true, if_true]
      rcases hcompared with hstored | ⟨hvalue, hstored⟩
      · omega
      · omega
    · simp [hid]

/-- Conversely, conservation before and after a poll is a statement about each of its rows. -/
theorem comparedWithOwn_of_conserved {polls : List (List StatementSample)}
    (h : WellFormedPolls polls) (hcons : ∀ k, Conserved (polls.take k)) :
    ComparedWithOwn polls := by
  intro pre s post heq c stored own
  have hle : own ≤ s.value c := h.lastValue_le heq c
  obtain ⟨k, p, p', hk, rfl⟩ := exists_poll_of_flatten_eq heq
  have hnodup := h.nodup _ (List.mem_of_getElem? hk)
  have hbefore := hcons k s.identity c
  have hafter := hcons (k + 1) s.identity c
  have htake : (polls.take (k + 1)).flatten = (polls.take k).flatten ++ (p ++ s :: p') := by
    rw [List.take_add_one, hk]
    simp
  have hexec : ∀ r ∈ (polls.take k).flatten ++ (p ++ s :: p'), r.ExecTimeInRange := by
    intro r hr
    rw [← htake] at hr
    obtain ⟨poll, hpoll, hr⟩ := List.mem_flatten.mp hr
    exact h.execTime r (List.mem_flatten.mpr ⟨poll, List.mem_of_mem_take hpoll, hr⟩)
  obtain ⟨hlast, hskip⟩ := lastValue_identity_poll (polls.take k).flatten hnodup c
  rw [recorded_eq] at hbefore hafter
  rw [htake, emitted_identity_poll hnodup hexec, hbefore, hlast, ← hskip] at hafter
  show stored = own ∨ (s.value c = own ∧ own ≤ stored)
  have hafter : own + (s.value c - stored) = s.value c := hafter
  omega

/-- A poll that shows the same view as the one before it records zeros. -/
theorem recordedAt_eq_zero_of_conserved {polls : List (List StatementSample)}
    (hcons : ∀ k, Conserved (polls.take k)) {k : ℕ} {poll : List StatementSample}
    (hk : polls[k]? = some poll) (hk' : polls[k + 1]? = some poll) :
    ∀ d ∈ recordedAt polls (k + 1), ∀ c, d.get c = 0 := by
  intro d hd c
  have hat : recordedAt polls (k + 1) =
      Mealy.outputs emitRow (Mealy.final emitDeltas .new (polls.take (k + 1))) poll := by
    rw [recordedAt, Mealy.getElem?_outputs, hk']
    rfl
  have hrecorded : recorded (polls.take (k + 1 + 1)) =
      recorded (polls.take (k + 1)) ++ recordedAt polls (k + 1) := by
    rw [recorded, List.take_add_one (i := k + 1), hk', Mealy.outputs_append,
      List.flatten_append, hat]
    simp [recorded, emitDeltas]
  obtain ⟨s, hs, hsd⟩ : ∃ s ∈ poll, s.identity = d.identity := by
    rw [hat] at hd
    have hmem := List.mem_map_of_mem (f := PgStmtDelta.identity) hd
    rw [map_identity_outputs] at hmem
    exact List.mem_map.mp hmem
  have hexists : ∃ s ∈ poll, decide (s.identity = d.identity) = true := ⟨s, hs, by simpa using hsd⟩
  have hbefore := hcons (k + 1) d.identity c
  have hafter := hcons (k + 1 + 1) d.identity c
  -- both polls end with the same last row under the label
  rw [hrecorded, emitted_append, hbefore, List.take_add_one (i := k + 1), hk',
    List.take_add_one (i := k), hk] at hafter
  simp only [Option.toList_some, List.flatten_append, List.flatten_cons, List.flatten_nil,
    List.append_nil, lastValue_append_of_exists _ hexists] at hafter
  have hzero : emitted (·.identity = d.identity) (recordedAt polls (k + 1)) c = 0 := by omega
  rw [emitted, List.sum_eq_zero_iff_forall_eq_nat] at hzero
  have hget := hzero _ (List.mem_map_of_mem (List.mem_filter.mpr ⟨hd, by simp⟩))
  exact UInt64.toNat_inj.mp hget

/-- **Exactly when every counter is conserved throughout a run**: when every row is compared with
the counters of its own label, or has not changed since the last row of its label and is compared
with counters no smaller. Polls in which every query has one label satisfy this; two users running
one query, whose rows alternate, do not. -/
theorem conservesThroughout_iff {polls : List (List StatementSample)} (h : WellFormedPolls polls) :
    ConservesThroughout polls ↔ ComparedWithOwn polls := by
  constructor
  · rintro ⟨hcons, -⟩
    exact comparedWithOwn_of_conserved h hcons
  · intro hown
    have hcons : ∀ k, Conserved (polls.take k) := by
      intro k id c
      have hflat : polls.flatten = (polls.take k).flatten ++ (polls.drop k).flatten := by
        rw [← List.flatten_append, List.take_append_drop]
      rw [recorded_eq]
      exact emitted_eq_lastValue h hown hflat id c
    exact ⟨hcons, fun k poll hk hk' => recordedAt_eq_zero_of_conserved hcons hk hk'⟩

/-! ### Two users, one query -/

/-- A row of query 7 in database `app`. -/
def rowOf (username : String) (calls : UInt64) : StatementSample where
  queryid := 7
  database := "app"
  username := username
  calls := calls
  totalExecTimeMs := .finite 0
  rows := 0
  sharedBlksHit := 0
  sharedBlksRead := 0

/-- The same view, polled twice. -/
def twoUsers : List (List StatementSample) :=
  [[rowOf "a" 100, rowOf "b" 60], [rowOf "a" 100, rowOf "b" 60]]

theorem wellFormed_twoUsers : WellFormedPolls twoUsers where
  nodup := by decide
  execTime := by
    intro s hs
    have htime : s.totalExecTimeMs = .finite 0 := by
      simp only [twoUsers, List.flatten_cons, List.flatten_nil, List.append_nil, List.mem_append,
        List.mem_cons, List.not_mem_nil, or_false] at hs
      rcases hs with (rfl | rfl) | (rfl | rfl) <;> rfl
    exact ⟨0, htime, le_refl 0, by norm_num⟩
  monotone := by
    intro id c
    by_cases ha : (rowOf "a" 100).identity = id
    · subst ha
      simp [twoUsers, rowOf, identity]
    · by_cases hb : (rowOf "b" 60).identity = id
      · subst hb
        simp [twoUsers, rowOf, identity]
      · simp [twoUsers, ha, hb]

theorem conservesThroughout_iff_twoUsers :
    WellFormedPolls twoUsers ∧ (ConservesThroughout twoUsers ↔ ComparedWithOwn twoUsers) :=
  ⟨wellFormed_twoUsers, conservesThroughout_iff wellFormed_twoUsers⟩

/-- Counters are not always conserved: a view that shows 100 and 60 calls of one query by two users,
polled twice, is recorded as 140 calls by the first and none by the second. -/
theorem not_conserved :
    ¬ ∀ polls : List (List StatementSample), WellFormedPolls polls → Conserved polls := by
  intro h
  have hcons := h twoUsers wellFormed_twoUsers (7, "app", "a") .calls
  have hemitted : emitted (·.identity = (7, "app", "a")) (recorded twoUsers) .calls = 140 := by
    decide
  have hlast : lastValue (·.identity = (7, "app", "a")) twoUsers.flatten .calls = 100 := by decide
  rw [hemitted, hlast] at hcons
  exact absurd hcons (by decide)

end PgSleuth
