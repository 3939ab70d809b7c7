import PgSleuth.Cli.CpuStat
import PgSleuth.ForMathlib.Numeral
import PgSleuth.ForMathlib.Words

/-!
# Texts of `cpu.stat`

`CpuStat.parse` against a grammar of what may stand in the file: lines that report one of the three
counters, and lines that do not. The grammar is about characters alone and knows nothing of how the
file is read. A text is any list of such lines in any order; carriage returns before line feeds and
an ended last line are whitespace and an empty line to it.

## Main definitions

* `DataLine`, `NoiseLine` — the two kinds of lines
* `Describes` — a line and what it reports
* `textOf` — the text with these lines

## Main results

* `keyValue_of_dataLine`, `NoiseLine.keyValue` — what is read from a line of each kind
* `parse_textOf` — the parser recovers what the lines report, the last report of each counter
-/

namespace PgSleuth

namespace CgroupThrottle

/-! ### The grammar -/

/-- Nothing but whitespace. -/
def Blank (cs : List Char) : Prop := ∀ c ∈ cs, isWhitespace c = true

/-- At least one character, and no whitespace. -/
abbrev Token (cs : List Char) : Prop := List.IsWord isWhitespace cs

/-- Nothing, or something that starts with whitespace. -/
def EndsToken (cs : List Char) : Prop := ∀ c ∈ cs.head?, isWhitespace c = true

/-- The counters of the file that are read. -/
inductive StatKey
  | nrPeriods
  | nrThrottled
  | throttledUsec
deriving DecidableEq

/-- The name of a counter. -/
def StatKey.text : StatKey → List Char
  | .nrPeriods => "nr_periods".toList
  | .nrThrottled => "nr_throttled".toList
  | .throttledUsec => "throttled_usec".toList

/-- The line reports `n` for `key`: the key and a numeral with whitespace between them, perhaps
whitespace in front, and perhaps more after more whitespace. -/
inductive DataLine (key : StatKey) (n : UInt64) : List Char → Prop
  | mk {lead gap num rest : List Char} (hlead : Blank lead) (hgap : Blank gap) (hne : gap ≠ [])
      (hnum : IsNumeral num n.toNat) (hrest : EndsToken rest) :
      DataLine key n (lead ++ (key.text ++ (gap ++ (num ++ rest))))

/-- The line reports nothing. -/
inductive NoiseLine : List Char → Prop
  | blank {line : List Char} (h : Blank line) : NoiseLine line
  | singleToken {lead token rest : List Char} (hlead : Blank lead) (htoken : Token token)
      (hrest : Blank rest) : NoiseLine (lead ++ (token ++ rest))
  | unknownKey {lead token rest : List Char} (hlead : Blank lead) (htoken : Token token)
      (hunknown : ∀ key : StatKey, token ≠ key.text) (hrest : EndsToken rest) :
      NoiseLine (lead ++ (token ++ rest))
  /-- One of the keys, with something that is not the numeral of a `u64`. -/
  | badValue {lead gap val rest : List Char} (key : StatKey) (hlead : Blank lead)
      (hgap : Blank gap) (hne : gap ≠ []) (hval : Token val)
      (hbad : ∀ n : UInt64, ¬ IsNumeral val n.toNat) (hrest : EndsToken rest) :
      NoiseLine (lead ++ (key.text ++ (gap ++ (val ++ rest))))

/-- The line reports this, or nothing. -/
def Describes (line : List Char) : Option (StatKey × UInt64) → Prop
  | some (key, n) => DataLine key n line
  | none => NoiseLine line

/-- The text with these lines. -/
def textOf (ls : List (List Char)) : String := String.ofList (['\n'].intercalate ls)

/-- The counter `key` of a snapshot. -/
def CpuStat.get (stat : CpuStat) : StatKey → UInt64
  | .nrPeriods => stat.nrPeriods
  | .nrThrottled => stat.nrThrottled
  | .throttledUsec => stat.throttledUsec

/-- What a report says about the counter `key`. -/
def reportOf (key : StatKey) (report : StatKey × UInt64) : Option UInt64 :=
  if report.1 = key then some report.2 else none

/-! ### One line -/

theorem parseU64_eq_some_iff {s : List Char} {n : UInt64} :
    parseU64 s = some n ↔ IsNumeral s n.toNat := by
  have hbound := n.toNat_lt
  have hparse : parseU64 s = (Numeral.parse s).bind fun m =>
      if m < 2 ^ 64 then some (.ofNat m) else none := by
    rw [parseU64, Numeral.parse]
    generalize (if s.head? = some '+' then s.tail else s) = digits
    by_cases h : digits ≠ [] ∧ digits.all Char.isDigit = true
    · simp [h, Nat.ofDigitChars]
    · simp only [if_neg h, Option.bind_none]
      exact if_neg fun h' => h ⟨h'.1, h'.2.1⟩
  rw [hparse, Option.bind_eq_some_iff, ← Numeral.parse_eq_some_iff]
  constructor
  · rintro ⟨m, hm, hmn⟩
    obtain ⟨hlt, hmn⟩ := Option.ite_none_right_eq_some.mp hmn
    rw [← Option.some.inj hmn, UInt64.toNat_ofNat_of_lt' hlt, hm]
  · intro h
    exact ⟨n.toNat, h, by rw [if_pos hbound, UInt64.ofNat_toNat]⟩

theorem token_of_isNumeral {s : List Char} {n : ℕ} (h : IsNumeral s n) : Token s := by
  refine ⟨h.ne_nil, fun c hc => ?_⟩
  rcases h.isDigit_or_eq hc with hdigit | rfl
  · exact isWhitespace_of_isDigit hdigit
  · decide

theorem token_text (key : StatKey) : Token key.text := by
  cases key <;> decide

/-- A gap ends a token. -/
theorem endsToken_gap {gap : List Char} (hgap : Blank gap) (hne : gap ≠ []) (l : List Char) :
    EndsToken (gap ++ l) := by
  obtain ⟨c, gap, rfl⟩ := List.exists_cons_of_ne_nil hne
  intro c' hc'
  obtain rfl : c = c' := by simpa using hc'
  exact hgap c (List.mem_cons_self ..)

/-- The first two tokens of a line. -/
theorem splitWhitespace_two {lead key gap val rest : List Char} (hlead : Blank lead)
    (hkey : Token key) (hgap : Blank gap) (hne : gap ≠ []) (hval : Token val)
    (hrest : EndsToken rest) :
    splitWhitespace (lead ++ (key ++ (gap ++ (val ++ rest)))) =
      key :: val :: splitWhitespace rest := by
  show List.words isWhitespace _ = _
  rw [List.words_append_left hlead,
    List.words_append_of_isWord hkey (endsToken_gap hgap hne _), List.words_append_left hgap,
    List.words_append_of_isWord hval hrest]
  rfl

/-- **What is read from a line that reports something.** -/
theorem keyValue_of_dataLine {key : StatKey} {n : UInt64} {line : List Char}
    (h : DataLine key n line) : keyValue line = some (key.text, n) := by
  obtain ⟨hlead, hgap, hne, hnum, hrest⟩ := h
  rw [keyValue, splitWhitespace_two hlead (token_text key) hgap hne (token_of_isNumeral hnum) hrest]
  show (parseU64 _).map _ = _
  rw [parseU64_eq_some_iff.mpr hnum]
  rfl

/-- **What is read from a line that does not**: nothing, or a key that is not asked for. -/
theorem NoiseLine.keyValue {line : List Char} (h : NoiseLine line) {kv : List Char × UInt64}
    (hkv : keyValue line = some kv) (key : StatKey) : kv.1 ≠ key.text := by
  rw [CgroupThrottle.keyValue] at hkv
  cases h with
  | blank h =>
    have hwords : splitWhitespace line = [] := List.words_eq_nil h
    rw [hwords] at hkv
    cases hkv
  | @singleToken lead token rest hlead htoken hrest =>
    have hwords : splitWhitespace (lead ++ (token ++ rest)) = [token] := by
      show List.words isWhitespace _ = _
      rw [List.words_append_left hlead, List.words_append_right _ hrest,
        List.words_eq_singleton htoken]
    rw [hwords] at hkv
    cases hkv
  | @unknownKey lead token rest hlead htoken hunknown hrest =>
    have hwords : splitWhitespace (lead ++ (token ++ rest)) = token :: splitWhitespace rest := by
      show List.words isWhitespace _ = _
      rw [List.words_append_left hlead, List.words_append_of_isWord htoken hrest]
      rfl
    rw [hwords] at hkv
    cases hrest : splitWhitespace rest with
    | nil =>
      rw [hrest] at hkv
      cases hkv
    | cons val _ =>
      rw [hrest] at hkv
      obtain ⟨n, -, rfl⟩ := Option.map_eq_some_iff.mp hkv
      exact hunknown key
  | @badValue lead gap val rest key' hlead hgap hne hval hbad hrest =>
    rw [splitWhitespace_two hlead (token_text key') hgap hne hval hrest] at hkv
    obtain ⟨n, hn, -⟩ := Option.map_eq_some_iff.mp hkv
    exact absurd (parseU64_eq_some_iff.mp hn) (hbad n)

/-! ### What a line does to the snapshot -/

/-- Enter what a line reports. -/
def CpuStat.enter (out : CpuStat) : Option (StatKey × UInt64) → CpuStat
  | some (.nrPeriods, n) => { out with nrPeriods := n }
  | some (.nrThrottled, n) => { out with nrThrottled := n }
  | some (.throttledUsec, n) => { out with throttledUsec := n }
  | none => out

theorem get_enter (out : CpuStat) (entry : Option (StatKey × UInt64)) (key : StatKey) :
    (out.enter entry).get key = (entry.bind (reportOf key)).getD (out.get key) := by
  cases entry with
  | none => rfl
  | some report =>
    obtain ⟨key', n⟩ := report
    cases key' <;> cases key <;> rfl

theorem parseLine_of_describes {line : List Char} {entry : Option (StatKey × UInt64)}
    (h : Describes line entry) (out : CpuStat) : out.parseLine line = out.enter entry := by
  rw [CpuStat.parseLine]
  cases entry with
  | none =>
    cases hkv : keyValue line with
    | none => rfl
    | some kv =>
      have hne := NoiseLine.keyValue h hkv
      have hperiods : kv.1 ≠ "nr_periods".toList := hne .nrPeriods
      have hthrottled : kv.1 ≠ "nr_throttled".toList := hne .nrThrottled
      have husec : kv.1 ≠ "throttled_usec".toList := hne .throttledUsec
      show (if _ then _ else if _ then _ else if _ then _ else _) = _
      rw [if_neg hperiods, if_neg hthrottled, if_neg husec]
      rfl
  | some report =>
    obtain ⟨key, n⟩ := report
    rw [keyValue_of_dataLine h]
    cases key <;> rfl

/-! ### A text -/

/-- A carriage return at the end of a line makes no difference. -/
theorem parseLine_stripCarriageReturn (out : CpuStat) (line : List Char) :
    out.parseLine (stripCarriageReturn line) = out.parseLine line := by
  have hwords : splitWhitespace (stripCarriageReturn line) = splitWhitespace line := by
    rw [stripCarriageReturn]
    split
    · rename_i hlast
      have hcr : ∀ c ∈ ['\r'], isWhitespace c = true := by
        intro c hc
        rw [List.mem_singleton.mp hc]
        rfl
      have hsplit : line = line.dropLast ++ ['\r'] :=
        (List.dropLast_append_getLast? _ hlast).symm
      conv_rhs => rw [hsplit]
      exact (List.words_append_right _ hcr).symm
    · rfl
  rw [CpuStat.parseLine, CpuStat.parseLine, keyValue, keyValue, hwords]

/-- Nor does an empty line at the end, so the parser goes over what stands between the line
feeds. -/
theorem foldl_lines (text : List Char) (out : CpuStat) :
    (lines text).foldl CpuStat.parseLine out =
      (text.splitOn '\n').foldl CpuStat.parseLine out := by
  have hne : text.splitOn '\n' ≠ [] := List.splitOn_ne_nil _ _
  rw [lines]
  generalize text.splitOn '\n' = parts at hne
  obtain ⟨init, last, rfl⟩ := List.eq_nil_or_concat' parts |>.resolve_left hne
  have hstrip : (fun out line => CpuStat.parseLine out (stripCarriageReturn line)) =
      CpuStat.parseLine := by
    funext out line
    exact parseLine_stripCarriageReturn out line
  simp only [List.dropLast_concat, List.getLast?_concat, List.foldl_append, List.foldl_map, hstrip]
  cases last with
  | nil => rfl
  | cons c last => rfl

/-- **The parser enters the reports of a text, line by line.** -/
theorem parse_eq_foldl {ls : List (List Char)} {entries : List (Option (StatKey × UInt64))}
    (hlines : ∀ line ∈ ls, '\n' ∉ line) (h : List.Forall₂ Describes ls entries) :
    CpuStat.parse (textOf ls) = entries.foldl CpuStat.enter ⟨0, 0, 0⟩ := by
  have hfold : ∀ out : CpuStat,
      ls.foldl CpuStat.parseLine out = entries.foldl CpuStat.enter out := by
    induction h with
    | nil => exact fun _ => rfl
    | cons hline _ ih =>
      intro out
      rw [List.foldl_cons, List.foldl_cons, parseLine_of_describes hline]
      exact ih (fun line hmem => hlines line (List.mem_cons_of_mem _ hmem)) _
  rw [CpuStat.parse, textOf, String.toList_ofList, foldl_lines, ← hfold]
  by_cases hls : ls = []
  · rw [hls]
    rfl
  · rw [List.splitOn_intercalate _ hlines hls]

/-- The last report of a counter wins. -/
theorem get_foldl_enter (entries : List (Option (StatKey × UInt64))) (out : CpuStat)
    (key : StatKey) :
    (entries.foldl CpuStat.enter out).get key =
      (lastSome (entries.map fun entry => entry.bind (reportOf key))).getD (out.get key) := by
  induction entries using List.reverseRecOn with
  | nil => rfl
  | append_singleton entries entry ih =>
    rw [List.foldl_concat, get_enter, ih, List.map_append, List.map_singleton, lastSome_concat]
    cases entry.bind (reportOf key) <;> rfl

theorem CpuStat.ext_get {a b : CpuStat} (h : ∀ key, a.get key = b.get key) : a = b := by
  obtain ⟨ap, at', au⟩ := a
  obtain ⟨bp, bt, bu⟩ := b
  obtain rfl : ap = bp := h .nrPeriods
  obtain rfl : at' = bt := h .nrThrottled
  obtain rfl : au = bu := h .throttledUsec
  rfl

/-- The reports of a snapshot, one for each counter. -/
def CpuStat.reports (stat : CpuStat) : List (StatKey × UInt64) :=
  [(.nrPeriods, stat.nrPeriods), (.nrThrottled, stat.nrThrottled),
    (.throttledUsec, stat.throttledUsec)]

/-- With one report of each counter, in any order, the last one is the only one. -/
theorem lastSome_of_perm {entries : List (Option (StatKey × UInt64))} {stat : CpuStat}
    (h : entries.reduceOption.Perm stat.reports) (key : StatKey) :
    lastSome (entries.map fun entry => entry.bind (reportOf key)) = some (stat.get key) := by
  have hkey : stat.reports.filterMap (reportOf key) = [stat.get key] := by
    cases key <;> rfl
  have hreports : (entries.map fun entry => entry.bind (reportOf key)).filterMap id =
      entries.reduceOption.filterMap (reportOf key) := by
    rw [List.reduceOption, List.filterMap_map, List.filterMap_filterMap]
    rfl
  have hperm := h.filterMap (reportOf key)
  rw [hkey, List.perm_singleton] at hperm
  rw [lastSome, hreports, hperm]
  rfl

/-- **The parser recovers what the lines report**, for any lines in any order. Each counter is what
the last line that reports it says, or zero; so a text with one line for each of the three counters
of a snapshot, between any number of lines that report nothing, is read as that snapshot. -/
theorem parse_textOf {ls : List (List Char)} {entries : List (Option (StatKey × UInt64))}
    (hlines : ∀ line ∈ ls, '\n' ∉ line) (h : List.Forall₂ Describes ls entries) :
    (∀ key, (CpuStat.parse (textOf ls)).get key =
      (lastSome (entries.map fun entry => entry.bind (reportOf key))).getD 0) ∧
    ∀ stat : CpuStat,
      entries.reduceOption.Perm stat.reports → CpuStat.parse (textOf ls) = stat := by
  have hget : ∀ key, (CpuStat.parse (textOf ls)).get key =
      (lastSome (entries.map fun entry => entry.bind (reportOf key))).getD 0 := by
    intro key
    rw [parse_eq_foldl hlines h, get_foldl_enter]
    cases key <;> rfl
  refine ⟨hget, fun stat hperm => CpuStat.ext_get fun key => ?_⟩
  rw [hget, lastSome_of_perm hperm]
  rfl

/-! ### What the kernel writes -/

/-- The line the kernel writes for a counter. -/
def dataLine (key : StatKey) (n : UInt64) : List Char := key.text ++ ' ' :: Nat.toDigits 10 n.toNat

theorem describes_dataLine (key : StatKey) (n : UInt64) :
    Describes (dataLine key n) (some (key, n)) := by
  have h : DataLine key n ([] ++ (key.text ++ ([' '] ++ (Nat.toDigits 10 n.toNat ++ [])))) :=
    .mk (by simp [Blank]) (by simp [Blank, isWhitespace]) (by simp) (isNumeral_toDigits _)
      (by simp [EndsToken])
  rwa [List.append_nil] at h

/-- Another counter, and the three of the snapshot behind it. -/
def kernelLines : List (List Char) :=
  ["usage_usec 12345".toList, dataLine .nrThrottled 5, dataLine .throttledUsec 250000,
    dataLine .nrPeriods 1000]

theorem parse_textOf_kernelLines : CpuStat.parse (textOf kernelLines) = ⟨1000, 5, 250000⟩ := by
  have hunknown : NoiseLine ([] ++ ("usage_usec".toList ++ " 12345".toList)) :=
    .unknownKey (by simp [Blank]) (by decide) (fun key => by cases key <;> decide)
      (by simp [EndsToken, isWhitespace])
  have hlines : List.Forall₂ Describes kernelLines
      [none, some (.nrThrottled, 5), some (.throttledUsec, 250000), some (.nrPeriods, 1000)] :=
    .cons hunknown (.cons (describes_dataLine ..) (.cons (describes_dataLine ..)
      (.cons (describes_dataLine ..) .nil)))
  exact (parse_textOf (by decide +kernel) hlines).2 ⟨1000, 5, 250000⟩ (by decide)

end CgroupThrottle

end PgSleuth
