import PgSleuth.ForMathlib.Json

/-!
# The text of a JSON document

A writer without blanks and a reader that goes a given number of arrays and objects deep. The reader
gives back what was written when the document is not nested more deeply, and refuses it otherwise.

## Numbers

JSON has no text for most rationals. A number that is not an integer is written as a fraction here,
which no text of JSON is; everything else is written as `serde_json` writes it.

## Main results

* `Json.readValue_write` — what the reader makes of what was written
* `Json.ofText_toText` — the same for whole texts
* `Json.toText_injective` — a text is the text of one document
-/

namespace Json

/-! ### Strings -/

/-- A character inside a string. -/
def escape (c : Char) : List Char :=
  if c = '"' then ['\\', '"']
  else if c = '\\' then ['\\', '\\']
  else if c = Char.ofNat 0x08 then ['\\', 'b']
  else if c = Char.ofNat 0x0c then ['\\', 'f']
  else if c = '\n' then ['\\', 'n']
  else if c = '\r' then ['\\', 'r']
  else if c = '\t' then ['\\', 't']
  else if c.toNat < 0x20 then
    ['\\', 'u', '0', '0', Nat.digitChar (c.toNat / 16), Nat.digitChar (c.toNat % 16)]
  else [c]

/-- A string, with its quotes. -/
def writeString (s : List Char) : List Char := '"' :: (s.flatMap escape ++ ['"'])

/-- The value of a hexadecimal digit. -/
def hexValue (c : Char) : ℕ := if c.isDigit then c.toNat - '0'.toNat else c.toNat - 'a'.toNat + 10

/-- The character an escape of one letter stands for. -/
def unescape : Char → Option Char
  | '"' => some '"'
  | '\\' => some '\\'
  | '/' => some '/'
  | 'b' => some (Char.ofNat 0x08)
  | 'f' => some (Char.ofNat 0x0c)
  | 'n' => some '\n'
  | 'r' => some '\r'
  | 't' => some '\t'
  | _ => none

/-- A string after its opening quote, and what follows it. -/
def readString : List Char → Option (List Char × List Char)
  | [] => none
  | '"' :: cs => some ([], cs)
  | '\\' :: 'u' :: a :: b :: c :: d :: cs =>
    (readString cs).map fun p =>
      (Char.ofNat (((hexValue a * 16 + hexValue b) * 16 + hexValue c) * 16 + hexValue d) :: p.1,
        p.2)
  | '\\' :: e :: cs => (unescape e).bind fun c => (readString cs).map fun p => (c :: p.1, p.2)
  | c :: cs => (readString cs).map fun p => (c :: p.1, p.2)

theorem readString_escape (c : Char) (cs : List Char) :
    readString (escape c ++ cs) = (readString cs).map fun p => (c :: p.1, p.2) := by
  unfold escape
  split_ifs with hquote hbackslash hb hf hn hr ht hcontrol
  · simp [readString, unescape, hquote]
  · simp [readString, unescape, hbackslash]
  · simp [readString, unescape, hb]
  · simp [readString, unescape, hf]
  · simp [readString, unescape, hn]
  · simp [readString, unescape, hr]
  · simp [readString, unescape, ht]
  · have hdigit : ∀ n < 16, hexValue (Nat.digitChar n) = n := by decide
    have hzero : hexValue '0' = 0 := by decide
    have hcode : ((0 * 16 + 0) * 16 + c.toNat / 16) * 16 + c.toNat % 16 = c.toNat := by omega
    rw [List.cons_append, List.cons_append, List.cons_append, List.cons_append, List.cons_append,
      List.cons_append, List.nil_append, readString, hzero, hdigit _ (by omega),
      hdigit _ (by omega), hcode, Char.ofNat_toNat]
  · rw [List.singleton_append, readString.eq_def]
    split <;> simp_all

/-- **A string is read back**, and what follows it is left. -/
theorem readString_escaped (s cs : List Char) :
    readString (s.flatMap escape ++ '"' :: cs) = some (s, cs) := by
  induction s with
  | nil => rfl
  | cons c s ih => rw [List.flatMap_cons, List.append_assoc, readString_escape, ih, Option.map_some]

/-! ### Numbers -/

/-- An integer in decimal. -/
def writeInt : ℤ → List Char
  | .ofNat n => Nat.toDigits 10 n
  | .negSucc n => '-' :: Nat.toDigits 10 (n + 1)

/-- A fraction. -/
def writeFraction (q : ℚ) : List Char := writeInt q.num ++ '/' :: Nat.toDigits 10 q.den

/-- Decimal digits, and what follows them. -/
def readNat (cs : List Char) : Option (ℕ × List Char) :=
  let digits := cs.takeWhile Char.isDigit
  if digits = [] then none else some (Nat.ofDigitChars 10 digits 0, cs.dropWhile Char.isDigit)

/-- Decimal digits with a sign, and what follows them. -/
def readInt : List Char → Option (ℤ × List Char)
  | '-' :: cs => (readNat cs).map fun p => (-p.1, p.2)
  | cs => (readNat cs).map fun p => (p.1, p.2)

/-- An integer or a fraction, and what follows it. -/
def readNumber (cs : List Char) : Option (Json × List Char) :=
  (readInt cs).bind fun p =>
    match p.2 with
    | '/' :: cs => (readNat cs).map fun q => (float (p.1 / q.1), q.2)
    | _ => some (int p.1, p.2)

/-- What may follow a document: nothing, or what follows an element or a member. -/
def Ends (cs : List Char) : Prop := ∀ c ∈ cs.head?, c = ',' ∨ c = ']' ∨ c = '\x7d'

theorem readNat_toDigits (n : ℕ) {cs : List Char} (h : ∀ c ∈ cs.head?, c.isDigit = false) :
    readNat (Nat.toDigits 10 n ++ cs) = some (n, cs) := by
  have hdigits : ∀ c ∈ Nat.toDigits 10 n, c.isDigit = true := fun c hc =>
    Nat.isDigit_of_mem_toDigits (by decide) (by decide) hc
  have hcs : cs.takeWhile Char.isDigit = [] ∧ cs.dropWhile Char.isDigit = cs := by
    cases cs with
    | nil => exact ⟨rfl, rfl⟩
    | cons c cs =>
      have hc : c.isDigit = false := h c rfl
      simp [hc]
  rw [readNat, List.takeWhile_append_of_pos hdigits, List.dropWhile_append_of_pos hdigits, hcs.1,
    hcs.2, List.append_nil, if_neg Nat.toDigits_ne_nil, Nat.ofDigitChars_ten_toDigits]

theorem readInt_writeInt (i : ℤ) {cs : List Char} (h : ∀ c ∈ cs.head?, c.isDigit = false) :
    readInt (writeInt i ++ cs) = some (i, cs) := by
  cases i with
  | ofNat n =>
    cases hds : Nat.toDigits 10 n with
    | nil => exact absurd hds Nat.toDigits_ne_nil
    | cons d ds =>
      have hd : d.isDigit = true :=
        Nat.isDigit_of_mem_toDigits (b := 10) (n := n) (by decide) (by decide) (by simp [hds])
      have hminus : d ≠ '-' := by
        rintro rfl
        exact absurd hd (by decide)
      have hread := readNat_toDigits n h
      rw [hds] at hread
      rw [writeInt, hds, List.cons_append, readInt, ← List.cons_append, hread]
      · rfl
      · intro cs' heq
        exact hminus (List.cons.inj heq).1
  | negSucc n =>
    rw [writeInt, List.cons_append, readInt, readNat_toDigits (n + 1) h]
    rfl

theorem Ends.isDigit_eq_false {cs : List Char} (h : Ends cs) :
    ∀ c ∈ cs.head?, c.isDigit = false := by
  intro c hc
  rcases h c hc with rfl | rfl | rfl <;> decide

theorem readNumber_writeInt (i : ℤ) {cs : List Char} (h : Ends cs) :
    readNumber (writeInt i ++ cs) = some (int i, cs) := by
  rw [readNumber, readInt_writeInt i h.isDigit_eq_false, Option.bind_some]
  cases cs with
  | nil => rfl
  | cons c cs => rcases h c rfl with rfl | rfl | rfl <;> rfl

theorem readNumber_writeFraction (q : ℚ) {cs : List Char} (h : Ends cs) :
    readNumber (writeFraction q ++ cs) = some (float q, cs) := by
  have hslash : ∀ c ∈ ('/' :: (Nat.toDigits 10 q.den ++ cs)).head?, c.isDigit = false := by
    intro c hc
    obtain rfl := Option.some.inj hc
    rfl
  rw [writeFraction, List.append_assoc, List.cons_append, readNumber, readInt_writeInt _ hslash,
    Option.bind_some]
  simp only [readNat_toDigits q.den h.isDigit_eq_false, Option.map_some]
  rw [Rat.num_div_den]

/-! ### Arrays and objects -/

/-- The texts of the elements after the first, and the closing bracket. -/
def delimitTail (close : Char) : List (List Char) → List Char
  | [] => [close]
  | t :: ts => ',' :: (t ++ delimitTail close ts)

/-- The texts of the elements, with brackets and commas. -/
def delimit (openWith close : Char) : List (List Char) → List Char
  | [] => [openWith, close]
  | t :: ts => openWith :: (t ++ delimitTail close ts)

section readList

variable {α : Type*} (item : List Char → Option (α × List Char)) (close : Char)

/-- At most so many elements after the first, and what follows the closing bracket. -/
def readTail : ℕ → List Char → Option (List α × List Char)
  | n + 1, c :: cs =>
    if c = close then some ([], cs)
    else if c = ',' then
      (item cs).bind fun p => (readTail n p.2).map fun ps => (p.1 :: ps.1, ps.2)
    else none
  | _, _ => none

/-- The elements after the opening bracket, and what follows the closing one. -/
def readList (cs : List Char) : Option (List α × List Char) :=
  if cs.head? = some close then some ([], cs.tail)
  else (item cs).bind fun p => (readTail item close cs.length p.2).map fun ps => (p.1 :: ps.1, ps.2)

variable {item close} {good : α → Prop} [DecidablePred good] {write : α → List Char}

/-- What follows an element ends it. -/
theorem ends_delimitTail (hclose : close = ']' ∨ close = '\x7d') (ts : List (List Char))
    (cs : List Char) : Ends (delimitTail close ts ++ cs) := by
  intro c hc
  cases ts with
  | nil =>
    obtain rfl : close = c := Option.some.inj hc
    exact Or.inr hclose
  | cons t ts => exact Or.inl (Option.some.inj hc).symm

/-- Elements are read back as long as they are good. -/
theorem readTail_delimitTail (hclose : close = ']' ∨ close = '\x7d') {as : List α}
    (hitem : ∀ a ∈ as, ∀ cs, Ends cs →
      item (write a ++ cs) = if good a then some (a, cs) else none)
    {n : ℕ} (hn : as.length < n) (cs : List Char) :
    readTail item close n (delimitTail close (as.map write) ++ cs) =
      if ∀ a ∈ as, good a then some (as, cs) else none := by
  induction as generalizing n with
  | nil =>
    cases n with
    | zero => cases hn
    | succ n => simp [delimitTail, readTail]
  | cons a as ih =>
    cases n with
    | zero => cases hn
    | succ n =>
      have hne : ',' ≠ close := by rcases hclose with rfl | rfl <;> decide
      have hrest := ih (fun a' ha' => hitem a' (List.mem_cons_of_mem _ ha'))
        (Nat.lt_of_succ_lt_succ hn)
      rw [List.map_cons, delimitTail, List.cons_append, List.append_assoc, readTail, if_neg hne,
        if_pos rfl, hitem a (List.mem_cons_self ..) _ (ends_delimitTail hclose _ cs)]
      simp only [List.forall_mem_cons]
      by_cases ha : good a
      · rw [if_pos ha, Option.bind_some, hrest]
        by_cases has : ∀ a' ∈ as, good a'
        · rw [if_pos has, if_pos ⟨ha, has⟩, Option.map_some]
        · rw [if_neg has, if_neg fun h => has h.2, Option.map_none]
      · rw [if_neg ha, if_neg fun h => ha h.1, Option.bind_none]

theorem length_lt_length_delimitTail (close : Char) (ts : List (List Char)) :
    ts.length < (delimitTail close ts).length := by
  induction ts with
  | nil => simp [delimitTail]
  | cons t ts ih =>
    rw [delimitTail, List.length_cons, List.length_cons, List.length_append]
    omega

/-- **A list is read back** as long as its elements are good. -/
theorem readList_delimit (hclose : close = ']' ∨ close = '\x7d') {as : List α}
    (hhead : ∀ a ∈ as, ∀ cs, (write a ++ cs).head? ≠ some close)
    (hitem : ∀ a ∈ as, ∀ cs, Ends cs →
      item (write a ++ cs) = if good a then some (a, cs) else none)
    (openWith : Char) (cs : List Char) :
    ∃ cs', delimit openWith close (as.map write) ++ cs = openWith :: cs' ∧
      readList item close cs' = if ∀ a ∈ as, good a then some (as, cs) else none := by
  cases as with
  | nil => exact ⟨close :: cs, rfl, by simp [readList]⟩
  | cons a as =>
    refine ⟨write a ++ (delimitTail close (as.map write) ++ cs), by simp [delimit], ?_⟩
    have hlen : as.length < (write a ++ (delimitTail close (as.map write) ++ cs)).length := by
      have hlt := length_lt_length_delimitTail close (as.map write)
      rw [List.length_map] at hlt
      simp only [List.length_append]
      omega
    rw [readList, if_neg (hhead a (List.mem_cons_self ..) _),
      hitem a (List.mem_cons_self ..) _ (ends_delimitTail hclose _ cs)]
    simp only [List.forall_mem_cons]
    by_cases ha : good a
    · rw [if_pos ha, Option.bind_some, readTail_delimitTail hclose
        (fun a' ha' => hitem a' (List.mem_cons_of_mem _ ha')) hlen]
      by_cases has : ∀ a' ∈ as, good a'
      · rw [if_pos has, if_pos ⟨ha, has⟩, Option.map_some]
      · rw [if_neg has, if_neg fun h => has h.2, Option.map_none]
    · rw [if_neg ha, if_neg fun h => ha h.1, Option.bind_none]

end readList

/-! ### Documents -/

mutual

/-- The text of a document. -/
def write : Json → List Char
  | null => "null".toList
  | bool true => "true".toList
  | bool false => "false".toList
  | int i => writeInt i
  | float q => writeFraction q
  | string s => writeString s.toList
  | array vs => delimit '[' ']' (writeElems vs)
  | object fields => delimit '\x7b' '\x7d' (writeFields fields)

/-- The texts of the elements of an array. -/
def writeElems : List Json → List (List Char)
  | [] => []
  | v :: vs => v.write :: writeElems vs

/-- The texts of the members of an object. -/
def writeFields : List (String × Json) → List (List Char)
  | [] => []
  | (k, v) :: fields => (writeString k.toList ++ ':' :: v.write) :: writeFields fields

end

/-- A member of an object, and what follows it. -/
def readMember (value : List Char → Option (Json × List Char)) :
    List Char → Option ((String × Json) × List Char)
  | '"' :: cs =>
    (readString cs).bind fun p =>
      match p.2 with
      | ':' :: cs => (value cs).map fun q => ((.ofList p.1, q.1), q.2)
      | _ => none
  | _ => none

/-- A document with at most so many arrays and objects inside one another, and what follows it. -/
def readValue : ℕ → List Char → Option (Json × List Char)
  | _, 'n' :: 'u' :: 'l' :: 'l' :: cs => some (null, cs)
  | _, 't' :: 'r' :: 'u' :: 'e' :: cs => some (bool true, cs)
  | _, 'f' :: 'a' :: 'l' :: 's' :: 'e' :: cs => some (bool false, cs)
  | _, '"' :: cs => (readString cs).map fun p => (string (.ofList p.1), p.2)
  | d + 1, '[' :: cs => (readList (readValue d) ']' cs).map fun p => (array p.1, p.2)
  | d + 1, '\x7b' :: cs =>
    (readList (readMember (readValue d)) '\x7d' cs).map fun p => (object p.1, p.2)
  | _, cs => readNumber cs

/-- The text of a document. -/
def toText (v : Json) : String := .ofList v.write

/-- The document of a text, if there are at most so many arrays and objects inside one another. -/
def ofText (limit : ℕ) (s : String) : Option Json :=
  (readValue limit s.toList).bind fun p => if p.2 = [] then some p.1 else none

example : (object [("lag", int (-1)), ("on", array [bool true, null])]).toText =
    "\x7b\"lag\":-1,\"on\":[true,null]\x7d" := by decide

theorem writeElems_eq_map (vs : List Json) : writeElems vs = vs.map write := by
  induction vs with
  | nil => rfl
  | cons v vs ih => rw [writeElems, ih, List.map_cons]

/-- The text of a member of an object. -/
def writeMember (kv : String × Json) : List Char := writeString kv.1.toList ++ ':' :: kv.2.write

theorem writeFields_eq_map (fields : List (String × Json)) :
    writeFields fields = fields.map writeMember := by
  induction fields with
  | nil => rfl
  | cons kv fields ih => rw [writeFields, ih, List.map_cons, writeMember]

/-- A number begins with a digit or a sign. -/
theorem exists_writeInt_eq_cons (i : ℤ) :
    ∃ c cs, writeInt i = c :: cs ∧ (c.isDigit = true ∨ c = '-') := by
  cases i with
  | ofNat n =>
    cases hds : Nat.toDigits 10 n with
    | nil => exact absurd hds Nat.toDigits_ne_nil
    | cons d ds =>
      exact ⟨d, ds, hds, Or.inl
        (Nat.isDigit_of_mem_toDigits (b := 10) (n := n) (by decide) (by decide) (by simp [hds]))⟩
  | negSucc n => exact ⟨'-', _, rfl, Or.inr rfl⟩

/-- What begins with a digit or a sign is read as a number. -/
theorem readValue_of_numeral (d : ℕ) {c : Char} (hc : c.isDigit = true ∨ c = '-')
    (cs : List Char) : readValue d (c :: cs) = readNumber (c :: cs) := by
  have hne {c' : Char} {cs' : List Char} (hdigit : c'.isDigit = false) (hminus : c' ≠ '-') :
      c :: cs ≠ c' :: cs' := by
    rintro heq
    obtain ⟨rfl, -⟩ := List.cons.inj heq
    rcases hc with hc | hc
    · rw [hdigit] at hc
      cases hc
    · exact hminus hc
  rw [readValue]
  · exact fun _ => hne (by decide) (by decide)
  · exact fun _ => hne (by decide) (by decide)
  · exact fun _ => hne (by decide) (by decide)
  · exact fun _ => hne (by decide) (by decide)
  · exact fun _ _ _ => hne (by decide) (by decide)
  · exact fun _ _ _ => hne (by decide) (by decide)

/-- The text of a document does not begin like the end of a list. -/
theorem head?_write_ne (v : Json) (cs : List Char) : (v.write ++ cs).head? ≠ some ']' := by
  have hint (i : ℤ) (cs : List Char) : (writeInt i ++ cs).head? ≠ some ']' := by
    obtain ⟨c, cs', heq, hc⟩ := exists_writeInt_eq_cons i
    rw [heq]
    rintro h
    obtain rfl : c = ']' := Option.some.inj h
    exact absurd hc (by decide)
  cases v with
  | null => simp [write]
  | bool b => cases b <;> simp [write]
  | int i => exact hint i cs
  | float q =>
    rw [write, writeFraction, List.append_assoc]
    exact hint _ _
  | string s => simp [write, writeString]
  | array vs => cases vs <;> simp [write, writeElems, delimit]
  | object fields =>
    cases fields with
    | nil => simp [write, writeFields, delimit]
    | cons kv fields => simp [write, writeFields, delimit]

theorem readMember_writeMember {d : ℕ} {kv : String × Json} {cs : List Char}
    (hvalue : readValue d (kv.2.write ++ cs) = if kv.2.depth ≤ d then some (kv.2, cs) else none) :
    readMember (readValue d) (writeMember kv ++ cs) =
      if kv.2.depth ≤ d then some (kv, cs) else none := by
  have heq : writeMember kv ++ cs =
      '"' :: (kv.1.toList.flatMap escape ++ '"' :: ':' :: (kv.2.write ++ cs)) := by
    simp [writeMember, writeString]
  rw [heq, readMember, readString_escaped, Option.bind_some]
  simp only [hvalue, String.ofList_toList]
  split <;> rfl

/-- **What the reader makes of what was written**: the document and what follows it, or nothing when
the document is nested too deeply. -/
theorem readValue_write (v : Json) (d : ℕ) {cs : List Char} (h : Ends cs) :
    readValue d (v.write ++ cs) = if v.depth ≤ d then some (v, cs) else none := by
  induction v using induction generalizing d cs with
  | step v ih =>
    cases v with
    | null => simp [write, readValue]
    | bool b => cases b <;> simp [write, readValue]
    | int i =>
      obtain ⟨c, cs', heq, hc⟩ := exists_writeInt_eq_cons i
      have hread := readNumber_writeInt i h
      rw [heq, List.cons_append] at hread
      rw [write, heq, List.cons_append, readValue_of_numeral d hc, hread]
      simp
    | float q =>
      obtain ⟨c, cs', heq, hc⟩ := exists_writeInt_eq_cons q.num
      have hread := readNumber_writeFraction q h
      rw [writeFraction, heq, List.cons_append, List.cons_append] at hread
      rw [write, writeFraction, heq, List.cons_append, List.cons_append,
        readValue_of_numeral d hc, hread]
      simp
    | string s =>
      rw [write, writeString, List.cons_append, List.append_assoc, List.singleton_append, readValue,
        readString_escaped]
      simp
    | array vs =>
      have hitem (d : ℕ) (v : Json) (hv : v ∈ vs) (cs : List Char) (hcs : Ends cs) :
          readValue d (v.write ++ cs) = if v.depth ≤ d then some (v, cs) else none :=
        ih v hv d hcs
      have hhead (v : Json) (_ : v ∈ vs) := head?_write_ne v
      rw [write, writeElems_eq_map]
      cases d with
      | zero =>
        obtain ⟨cs', heq, -⟩ := readList_delimit (Or.inl rfl) hhead (hitem 0) '[' cs
        rw [heq, if_neg (by rw [depth]; omega)]
        rfl
      | succ d =>
        obtain ⟨cs', heq, hread⟩ := readList_delimit (Or.inl rfl) hhead (hitem d) '[' cs
        rw [heq, readValue, hread]
        simp only [depth_array_le_iff]
        split <;> rfl
    | object fields =>
      have hitem (d : ℕ) (kv : String × Json) (hkv : kv ∈ fields) (cs : List Char) (hcs : Ends cs) :
          readMember (readValue d) (writeMember kv ++ cs) =
            if kv.2.depth ≤ d then some (kv, cs) else none :=
        readMember_writeMember (ih kv.2 (List.mem_map_of_mem hkv) d hcs)
      have hhead (kv : String × Json) (_ : kv ∈ fields) (cs : List Char) :
          (writeMember kv ++ cs).head? ≠ some '\x7d' := by simp [writeMember, writeString]
      rw [write, writeFields_eq_map]
      cases d with
      | zero =>
        obtain ⟨cs', heq, -⟩ := readList_delimit (Or.inr rfl) hhead (hitem 0) '\x7b' cs
        rw [heq, if_neg (by rw [depth]; omega)]
        rfl
      | succ d =>
        obtain ⟨cs', heq, hread⟩ := readList_delimit (Or.inr rfl) hhead (hitem d) '\x7b' cs
        rw [heq, readValue, hread]
        simp only [depth_object_le_iff]
        split <;> rfl

/-- **Reading a text back**: it gives the document, or nothing when the document is nested too
deeply. -/
theorem ofText_toText (limit : ℕ) (v : Json) :
    ofText limit v.toText = if v.depth ≤ limit then some v else none := by
  have hends : Ends [] := by simp [Ends]
  have hread := readValue_write v limit hends
  rw [List.append_nil] at hread
  rw [ofText, toText, String.toList_ofList, hread]
  split <;> rfl

/-- **A text is the text of one document.** -/
theorem toText_injective : Function.Injective toText := by
  intro v w h
  have hv := ofText_toText (max v.depth w.depth) v
  have hw := ofText_toText (max v.depth w.depth) w
  rw [if_pos (le_max_left ..)] at hv
  rw [if_pos (le_max_right ..), ← h, hv] at hw
  exact Option.some.inj hw

end Json
