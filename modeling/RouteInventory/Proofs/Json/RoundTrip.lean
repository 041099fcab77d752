import RouteInventory.Json.Reader
import RouteInventory.Proofs.Json.Fields
import RouteInventory.Proofs.Number.Digits

/-!
# Reading back written JSON

`Json.read` takes the stable text of a writable value back to that value with its fields sorted, for
every indent. A written value is read from the front of a text whatever follows, as long as what
follows does not continue a number.
-/

namespace RouteInventory.Json

open Text Number

variable {limit : Option Nat}

/-! ### Texts -/

theorem readText_escape {start : Nat} (escape : List Char) {tail : List Char} {c : Char}
    (h : readEscape start (escape ++ tail) = .ok (c, tail)) :
    readText start ('\\' :: escape ++ tail) =
      (readText start tail).map fun (body, after) => (c :: body, after) := by
  rw [List.cons_append, readText, if_neg (by decide), if_pos rfl]
  split
  · rename_i fault hf
    simp [h] at hf
  · rename_i d after hd
    obtain ⟨rfl, rfl⟩ := Prod.mk.inj (Except.ok.inj (h.symm.trans hd))
    rfl

theorem fourHex?_hex {n : Nat} (h : n < 16 ^ 4) (tail : List Char) :
    fourHex? (hex 4 n ++ tail) = some n := by
  have hlen : (hex 4 n).length = 4 := length_hex (by decide) h
  have htake : (hex 4 n ++ tail).take 4 = hex 4 n := by
    rw [List.take_append_of_le_length (by omega), List.take_of_length_le (by omega)]
  have hall : (hex 4 n).all isHexDigit = true :=
    List.all_eq_true.mpr fun c hc => digit?_isSome_of_mem_hex hc
  simp only [fourHex?, htake, hlen, hall, ofDigits_hex, decide_true, Bool.and_self, if_true]

theorem readEscape_hex (start : Nat) {c : Char} (h : c.toNat < 0x20) {tail : List Char}
    (ht : tail ≠ []) : readEscape start ('u' :: hex 4 c.toNat ++ tail) = .ok (c, tail) := by
  have hlen : (hex 4 c.toNat).length = 4 := length_hex (by decide) (by omega)
  have hpos : 0 < tail.length := List.length_pos_iff.mpr ht
  have hdrop : (hex 4 c.toNat ++ tail).drop 4 = tail := by
    rw [List.drop_append_of_le_length (by omega), List.drop_of_length_le (by omega),
      List.nil_append]
  have hlow : isHighSurrogate c.toNat = false := by
    simp only [isHighSurrogate, Bool.and_eq_false_imp, decide_eq_true_eq]
    omega
  have hscalar : scalarOf c.toNat = c := by
    rw [scalarOf, if_neg, Char.ofNat_toNat]
    simp only [isHighSurrogate, isLowSurrogate, Bool.or_eq_true, Bool.and_eq_true,
      decide_eq_true_eq]
    omega
  rw [List.cons_append, readEscape, if_neg (by decide), if_neg (by
    rw [List.length_append]
    omega), fourHex?_hex (by omega)]
  simp only [hdrop, hlow, hscalar, Bool.false_and, Bool.false_eq_true, if_false]

theorem readText_escapedChar (start : Nat) (c : Char) {tail : List Char} (ht : tail ≠ []) :
    readText start (escapedChar c ++ tail) =
      (readText start tail).map fun (body, after) => (c :: body, after) := by
  unfold escapedChar
  split
  · rename_i h
    subst h
    exact readText_escape ['"'] rfl
  split
  · rename_i h
    subst h
    exact readText_escape ['\\'] rfl
  split
  · rename_i h
    subst h
    exact readText_escape ['n'] rfl
  split
  · rename_i h
    subst h
    exact readText_escape ['r'] rfl
  split
  · rename_i h
    subst h
    exact readText_escape ['t'] rfl
  split
  · rename_i h
    have hc : c = Char.ofNat 8 := by rw [← h, Char.ofNat_toNat]
    subst hc
    exact readText_escape ['b'] rfl
  split
  · rename_i h
    have hc : c = Char.ofNat 12 := by rw [← h, Char.ofNat_toNat]
    subst hc
    exact readText_escape ['f'] rfl
  split
  · rename_i h
    exact readText_escape _ (readEscape_hex start h ht)
  · rename_i hquote hslash _ _ _ _ _ hcontrol
    rw [List.singleton_append, readText, if_neg hquote, if_neg hslash, if_neg hcontrol]

theorem readText_flatMap (start : Nat) (body tail : List Char) :
    readText start (body.flatMap escapedChar ++ '"' :: tail) = .ok (body, tail) := by
  induction body with
  | nil =>
    rw [List.flatMap_nil, List.nil_append, readText, if_pos rfl]
  | cons c body ih =>
    rw [List.flatMap_cons, List.append_assoc, readText_escapedChar start c (by simp), ih]
    rfl

theorem readText_writeText (s : String) (start : Nat) (tail : List Char) :
    readText start (s.toList.flatMap escapedChar ++ ['"'] ++ tail) = .ok (s.toList, tail) := by
  rw [List.append_assoc]
  exact readText_flatMap start s.toList tail

/-! ### Whole numbers -/

/-- Whether a text does not continue a number that ends in front of it. -/
def EndsNumber (text : List Char) : Prop :=
  ∀ c, text.head? = some c → isDigit c = false ∧ c ≠ '.' ∧ c ≠ 'e' ∧ c ≠ 'E'

theorem endsNumber_cons {c : Char} {text : List Char}
    (h : isDigit c = false ∧ c ≠ '.' ∧ c ≠ 'e' ∧ c ≠ 'E') : EndsNumber (c :: text) := by
  intro d hd
  cases hd
  exact h

theorem takeWhile_isDigit {digits tail : List Char} (hd : ∀ c ∈ digits, isDigit c = true)
    (ht : EndsNumber tail) : (digits ++ tail).takeWhile isDigit = digits := by
  rw [List.takeWhile_append_of_pos hd]
  cases tail with
  | nil => simp
  | cons c tail => simp [(ht c rfl).1]

theorem wholePart_decimal (n : Nat) {tail : List Char} (ht : EndsNumber tail) :
    wholePart (decimal n ++ tail) = decimal n := by
  rw [wholePart]
  split
  · rename_i h
    rcases Nat.eq_zero_or_pos n with rfl | hn
    · exact decimal_zero.symm
    · obtain ⟨c, digits, hc⟩ := List.exists_cons_of_ne_nil (decimal_ne_nil n)
      have hzero := head?_decimal_ne_zero hn
      rw [hc] at h hzero
      exact absurd (beq_iff_eq.mp h) hzero
  · exact takeWhile_isDigit (fun c hc => isDigit_of_mem_decimal hc) ht

theorem fractionPart_of_endsNumber {tail : List Char} (ht : EndsNumber tail) :
    fractionPart tail = [] := by
  cases tail with
  | nil => rfl
  | cons c tail =>
    unfold fractionPart
    split
    · rename_i h
      exact absurd (List.cons.inj h).1 (ht c rfl).2.1
    · rfl

theorem exponentPart_of_endsNumber {tail : List Char} (ht : EndsNumber tail) :
    exponentPart tail = none := by
  cases tail with
  | nil => rfl
  | cons c tail =>
    rw [exponentPart, if_neg]
    have := (ht c rfl).2.2
    simp only [Bool.or_eq_true, decide_eq_true_eq, not_or]
    exact this

theorem head?_decimal_append (n : Nat) (tail : List Char) :
    ((decimal n ++ tail).head? == some '-') = false := by
  obtain ⟨c, digits, hc⟩ := List.exists_cons_of_ne_nil (decimal_ne_nil n)
  have hd : isDigit c = true := isDigit_of_mem_decimal (hc ▸ List.mem_cons_self ..)
  rw [hc]
  refine beq_eq_false_iff_ne.mpr fun h => ?_
  cases h
  exact absurd hd (by decide)

theorem readNumber_digits {n : Nat} (h : isBeyond limit (decimal n).length = false) (negative : Bool)
    {tail : List Char} (ht : EndsNumber tail) :
    readNumber limit ((if negative then ['-'] else []) ++ (decimal n ++ tail)) =
      .ok (int (if negative then -n else n), tail) := by
  have hne : (decimal n).isEmpty = false := by simp [decimal_ne_nil]
  have hsign : (((if negative then ['-'] else []) ++ (decimal n ++ tail)).head? == some '-') =
      negative := by
    cases negative
    · exact head?_decimal_append n tail
    · rfl
  have hbody : (if negative then ((if negative then ['-'] else []) ++ (decimal n ++ tail)).drop 1
      else (if negative then ['-'] else []) ++ (decimal n ++ tail)) = decimal n ++ tail := by
    cases negative <;> rfl
  simp only [readNumber, hsign, hbody, wholePart_decimal n ht, hne, List.drop_left,
    fractionPart_of_endsNumber ht, List.isEmpty_nil, exponentPart_of_endsNumber ht, h,
    ofDigits_decimal, Bool.false_eq_true, if_false, Bool.and_false, if_true]

theorem ne_of_isDigit {c d : Char} (h : isDigit c = true) (hd : isDigit d = false) : c ≠ d := by
  rintro rfl
  rw [h] at hd
  cases hd

theorem readWord?_digit {c : Char} (text : List Char) (h : isDigit c = true) :
    readWord? (c :: text) = none := by
  have hn : 'n' ≠ c := (ne_of_isDigit h rfl).symm
  have ht : 't' ≠ c := (ne_of_isDigit h rfl).symm
  have hf : 'f' ≠ c := (ne_of_isDigit h rfl).symm
  have hN : 'N' ≠ c := (ne_of_isDigit h rfl).symm
  have hI : 'I' ≠ c := (ne_of_isDigit h rfl).symm
  have hminus : '-' ≠ c := (ne_of_isDigit h rfl).symm
  simp [readWord?, after?, hn, ht, hf, hN, hI, hminus]

theorem readWord?_minus {c : Char} (text : List Char) (h : isDigit c = true) :
    readWord? ('-' :: c :: text) = none := by
  have hI : 'I' ≠ c := (ne_of_isDigit h rfl).symm
  simp [readWord?, after?, hI]

theorem readNumber_decimalInt {n : Int} (h : isBeyond limit (decimal n.natAbs).length = false)
    {tail : List Char} (ht : EndsNumber tail) : readNumber limit (decimalInt n ++ tail) = .ok (int n, tail) := by
  cases n with
  | ofNat n => exact readNumber_digits h false ht
  | negSucc n => exact readNumber_digits h true ht

theorem decimalInt_eq_cons (n : Int) :
    (∃ c rest, decimalInt n = c :: rest ∧ isDigit c = true) ∨
      ∃ c rest, decimalInt n = '-' :: c :: rest ∧ isDigit c = true := by
  have hdecimal (k : Nat) : ∃ c rest, decimal k = c :: rest ∧ isDigit c = true := by
    obtain ⟨c, rest, hc⟩ := List.exists_cons_of_ne_nil (decimal_ne_nil k)
    exact ⟨c, rest, hc, isDigit_of_mem_decimal (hc ▸ List.mem_cons_self ..)⟩
  cases n with
  | ofNat k => exact .inl (hdecimal k)
  | negSucc k =>
    obtain ⟨c, rest, hc, hd⟩ := hdecimal (k + 1)
    exact .inr ⟨c, rest, congrArg _ hc, hd⟩

theorem readValue_decimalInt {n : Int} (h : isBeyond limit (decimal n.natAbs).length = false)
    {tail : List Char} (ht : EndsNumber tail) (fuel : Nat) :
    readValue limit (fuel + 1) (decimalInt n ++ tail) = .ok (int n, tail) := by
  have hnumber := readNumber_decimalInt h ht
  rcases decimalInt_eq_cons n with ⟨c, rest, hc, hd⟩ | ⟨c, rest, hc, hd⟩ <;>
    rw [hc, List.cons_append] at hnumber ⊢
  · rw [readValue, if_neg (ne_of_isDigit hd rfl), if_neg (ne_of_isDigit hd rfl),
      if_neg (ne_of_isDigit hd rfl), readWord?_digit _ hd]
    exact hnumber
  · rw [readValue, if_neg (by decide), if_neg (by decide), if_neg (by decide), List.cons_append,
      readWord?_minus _ hd]
    exact hnumber

/-! ### Gaps between values -/

/-- What the text of a value begins with: no space, no bracket or brace that closes, and no mark of
the byte order. -/
def StartsValue (text : List Char) : Prop :=
  ∃ c rest, text = c :: rest ∧ isSpace c = false ∧ c ≠ ']' ∧ c ≠ '\x7d' ∧ c ≠ Char.ofNat 0xfeff

theorem StartsValue.append {text : List Char} (h : StartsValue text) (tail : List Char) :
    StartsValue (text ++ tail) := by
  obtain ⟨c, rest, rfl, hc⟩ := h
  exact ⟨c, rest ++ tail, rfl, hc⟩

theorem skipSpaces_cons {gap rest : List Char} {c : Char} (hg : ∀ c ∈ gap, isSpace c = true)
    (hc : isSpace c = false) : skipSpaces (gap ++ c :: rest) = c :: rest := by
  rw [skipSpaces, List.dropWhile_append_of_pos hg, List.dropWhile_cons_of_neg (by simp [hc])]

theorem skipSpaces_of_startsValue (gap : List Char) {text : List Char} (hg : ∀ c ∈ gap, isSpace c = true)
    (h : StartsValue text) : skipSpaces (gap ++ text) = text := by
  obtain ⟨c, rest, rfl, hc, _⟩ := h
  exact skipSpaces_cons hg hc

theorem isSpace_of_mem_lineBreak {indent : Option Nat} {depth : Nat} {c : Char}
    (h : c ∈ lineBreak indent depth) : isSpace c = true := by
  cases indent with
  | none => cases h
  | some n =>
    rcases List.mem_cons.mp h with rfl | h
    · rfl
    · rw [(List.mem_replicate.mp h).2]
      rfl

theorem separator_eq_cons (indent : Option Nat) (depth : Nat) :
    ∃ gap, separator indent depth = ',' :: gap ∧ ∀ c ∈ gap, isSpace c = true := by
  cases indent with
  | none => exact ⟨[' '], rfl, by simp [isSpace]⟩
  | some n => exact ⟨lineBreak (some n) depth, rfl, fun c => isSpace_of_mem_lineBreak⟩

theorem startsValue_writeText (s : String) : StartsValue (writeText s) :=
  ⟨'"', _, rfl, rfl, by decide, by decide, by decide⟩

theorem startsValue_decimalInt (n : Int) : StartsValue (decimalInt n) := by
  rcases decimalInt_eq_cons n with ⟨c, rest, hc, hd⟩ | ⟨c, rest, hc, hd⟩
  · refine ⟨c, rest, hc, ?_, ne_of_isDigit hd rfl, ne_of_isDigit hd rfl, ne_of_isDigit hd rfl⟩
    have hspace : c ≠ ' ' := ne_of_isDigit hd rfl
    have htab : c ≠ '\t' := ne_of_isDigit hd rfl
    have hline : c ≠ '\n' := ne_of_isDigit hd rfl
    have hreturn : c ≠ '\r' := ne_of_isDigit hd rfl
    simp [isSpace, hspace, htab, hline, hreturn]
  · exact ⟨'-', _, hc, rfl, by decide, by decide, by decide⟩

theorem startsValue_enclose (indent : Option Nat) (depth : Nat) {opening : Char} (closing : Char)
    (items : List (List Char)) (h : StartsValue [opening]) :
    StartsValue (enclose indent depth opening closing items) := by
  obtain ⟨c, rest, heq, hc⟩ := h
  obtain ⟨rfl, -⟩ := List.cons.inj heq
  rw [enclose]
  split
  · exact ⟨_, _, rfl, hc⟩
  · exact ⟨_, _, rfl, hc⟩

theorem startsValue_write {v : Json} (h : WritableWithin limit v) (indent : Option Nat) (depth : Nat) :
    StartsValue (write indent depth v) := by
  cases h with
  | null => exact ⟨'n', _, rfl, rfl, by decide, by decide, by decide⟩
  | bool b =>
    cases b
    · exact ⟨'f', _, rfl, rfl, by decide, by decide, by decide⟩
    · exact ⟨'t', _, rfl, rfl, by decide, by decide, by decide⟩
  | int => exact startsValue_decimalInt _
  | text s => exact startsValue_writeText s
  | list =>
    rw [write]
    exact startsValue_enclose _ _ _ _ ⟨_, _, rfl, rfl, by decide, by decide, by decide⟩
  | object =>
    rw [write]
    exact startsValue_enclose _ _ _ _ ⟨_, _, rfl, rfl, by decide, by decide, by decide⟩

/-! ### Lists and objects -/

/-- A value is read back at a depth, whatever follows its text but more of a number. -/
def ReadsBack (limit : Option Nat) (indent : Option Nat) (depth : Nat) (v : Json) : Prop :=
  ∀ fuel tail, (write indent depth v).length ≤ fuel → EndsNumber tail →
    readValue limit fuel (write indent depth v ++ tail) = .ok (v.sorted, tail)

/-- What follows the last item of a list or object. -/
def ending (indent : Option Nat) (depth : Nat) (closing : Char) (tail : List Char) : List Char :=
  lineBreak indent depth ++ closing :: tail

section Ending

variable {indent : Option Nat} {depth : Nat} (closing : Char) {tail : List Char}

theorem skipSpaces_ending (h : isSpace closing = false) :
    skipSpaces (ending indent depth closing tail) = closing :: tail :=
  skipSpaces_cons (fun _ => isSpace_of_mem_lineBreak) h

theorem endsNumber_ending (h : isDigit closing = false ∧ closing ≠ '.' ∧ closing ≠ 'e' ∧ closing ≠ 'E') :
    EndsNumber (ending indent depth closing tail) := by
  cases indent with
  | none => exact endsNumber_cons h
  | some n => exact endsNumber_cons ⟨rfl, by decide, by decide, by decide⟩

end Ending

/-- Written items with separators between them. -/
def joined (indent : Option Nat) (depth : Nat) (texts : List (List Char)) : List Char :=
  (separator indent depth).intercalate texts

theorem joined_singleton (indent : Option Nat) (depth : Nat) (text : List Char) :
    joined indent depth [text] = text := List.intercalate_singleton

theorem joined_cons_cons (indent : Option Nat) (depth : Nat) (a b : List Char)
    (rest : List (List Char)) : ∃ gap, (∀ c ∈ gap, isSpace c = true) ∧
      joined indent depth (a :: b :: rest) = a ++ ',' :: (gap ++ joined indent depth (b :: rest)) := by
  obtain ⟨gap, hsep, hgap⟩ := separator_eq_cons indent depth
  refine ⟨gap, hgap, ?_⟩
  rw [joined, List.intercalate_cons_cons, hsep, joined, hsep]
  simp only [List.append_assoc, List.cons_append]

theorem startsValue_joined (indent : Option Nat) (depth : Nat) {text : List Char}
    (h : StartsValue text) (rest : List (List Char)) :
    StartsValue (joined indent depth (text :: rest)) := by
  cases rest with
  | nil =>
    rw [joined_singleton]
    exact h
  | cons next rest =>
    obtain ⟨gap, -, heq⟩ := joined_cons_cons indent depth text next rest
    rw [heq]
    exact h.append _

theorem endsNumber_comma (text : List Char) : EndsNumber (',' :: text) :=
  endsNumber_cons ⟨rfl, by decide, by decide, by decide⟩

theorem skipSpaces_comma (text : List Char) : skipSpaces (',' :: text) = ',' :: text := rfl

theorem readItems_write {indent : Option Nat} {depth : Nat} {items : List Json} (hne : items ≠ [])
    (hread : ∀ x ∈ items, ReadsBack limit indent (depth + 1) x)
    (hstart : ∀ x ∈ items, StartsValue (write indent (depth + 1) x)) (fuel : Nat) (tail : List Char)
    (hfuel : (joined indent (depth + 1) (items.map (write indent (depth + 1)))).length < fuel) :
    readItems limit fuel (joined indent (depth + 1) (items.map (write indent (depth + 1))) ++
      ending indent depth ']' tail) = .ok (items.map sorted, tail) := by
  induction items generalizing fuel with
  | nil => exact absurd rfl hne
  | cons x rest ih =>
    obtain ⟨hx, hrest⟩ := List.forall_mem_cons.mp hread
    obtain ⟨fuel, rfl⟩ : ∃ k, fuel = k + 1 := ⟨fuel - 1, by omega⟩
    cases rest with
    | nil =>
      simp only [List.map_cons, List.map_nil, joined_singleton] at hfuel ⊢
      have hvalue := hx fuel (ending indent depth ']' tail) (by omega)
        (endsNumber_ending _ ⟨rfl, by decide, by decide, by decide⟩)
      rw [readItems, hvalue]
      simp only [skipSpaces_ending ']' rfl]
    | cons y rest =>
      obtain ⟨_, hy⟩ := List.forall_mem_cons.mp hstart
      obtain ⟨gap, hgap, heq⟩ := joined_cons_cons indent (depth + 1) (write indent (depth + 1) x)
        (write indent (depth + 1) y) (rest.map (write indent (depth + 1)))
      have hbegin := (startsValue_joined indent (depth + 1) (hy y (List.mem_cons_self ..))
        (rest.map (write indent (depth + 1)))).append (ending indent depth ']' tail)
      simp only [List.map_cons, heq, List.length_append, List.length_cons] at hfuel ih ⊢
      have hlast := ih (by simp) hrest hy fuel (by omega)
      have hvalue := hx fuel (',' :: (gap ++ joined indent (depth + 1) (write indent (depth + 1) y ::
        rest.map (write indent (depth + 1))) ++ ending indent depth ']' tail)) (by omega)
        (endsNumber_comma _)
      rw [readItems, List.append_assoc, List.cons_append, hvalue]
      simp only [skipSpaces_comma, List.append_assoc, skipSpaces_of_startsValue gap hgap hbegin, hlast]
      rfl

theorem writeField_append (indent : Option Nat) (depth : Nat) (field : String × Json)
    (tail : List Char) : writeField indent depth field ++ tail =
      '"' :: (field.1.toList.flatMap escapedChar ++ '"' ::
        (':' :: ' ' :: (write indent depth field.2 ++ tail))) := by
  simp [writeField, writeText]

theorem startsValue_writeField (indent : Option Nat) (depth : Nat) (field : String × Json) :
    StartsValue (writeField indent depth field) := (startsValue_writeText field.1).append _

/-- After a field the reading goes on with what follows it. -/
theorem readFields_writeField {indent : Option Nat} {depth : Nat} {field : String × Json}
    (hread : ReadsBack limit indent depth field.2) (hstart : StartsValue (write indent depth field.2))
    {fuel : Nat} {tail : List Char} (hfuel : (writeField indent depth field).length ≤ fuel)
    (ht : EndsNumber tail) :
    readFields limit (fuel + 1) (writeField indent depth field ++ tail) =
      match skipSpaces tail with
      | '\x7d' :: rest => .ok ([(field.1, field.2.sorted)], rest)
      | ',' :: rest => (readFields limit fuel (skipSpaces rest)).map fun (fields, tail) =>
          ((field.1, field.2.sorted) :: fields, tail)
      | other => .error ⟨.commaExpected, other.length⟩ := by
  have hlen : (write indent depth field.2).length ≤ fuel := by
    simp only [writeField, List.length_append, List.length_cons] at hfuel
    omega
  have hcolon (text : List Char) : skipSpaces (':' :: text) = ':' :: text := rfl
  have hspace := skipSpaces_of_startsValue [' '] (by simp [isSpace]) (hstart.append tail)
  rw [List.singleton_append] at hspace
  have hfields := readFields.eq_def limit (fuel + 1) (writeField indent depth field ++ tail)
  simp only [writeField_append, readText_flatMap, hcolon, hspace, hread fuel tail hlen ht,
    String.ofList_toList] at hfields ⊢
  exact hfields

theorem readFields_write {indent : Option Nat} {depth : Nat} {fields : List (String × Json)}
    (hne : fields ≠ []) (hread : ∀ p ∈ fields, ReadsBack limit indent (depth + 1) p.2)
    (hstart : ∀ p ∈ fields, StartsValue (write indent (depth + 1) p.2)) (fuel : Nat)
    (tail : List Char)
    (hfuel : (joined indent (depth + 1) (fields.map (writeField indent (depth + 1)))).length < fuel) :
    readFields limit fuel (joined indent (depth + 1) (fields.map (writeField indent (depth + 1))) ++
      ending indent depth '\x7d' tail) = .ok (fields.map fun p => (p.1, sorted p.2), tail) := by
  induction fields generalizing fuel with
  | nil => exact absurd rfl hne
  | cons p rest ih =>
    obtain ⟨hp, hrest⟩ := List.forall_mem_cons.mp hread
    obtain ⟨hbegin, hbegins⟩ := List.forall_mem_cons.mp hstart
    obtain ⟨fuel, rfl⟩ : ∃ k, fuel = k + 1 := ⟨fuel - 1, by omega⟩
    cases rest with
    | nil =>
      simp only [List.map_cons, List.map_nil, joined_singleton] at hfuel ⊢
      rw [readFields_writeField hp hbegin (by omega)
        (endsNumber_ending _ ⟨rfl, by decide, by decide, by decide⟩)]
      simp only [skipSpaces_ending '\x7d' rfl]
    | cons q rest =>
      obtain ⟨gap, hgap, heq⟩ := joined_cons_cons indent (depth + 1)
        (writeField indent (depth + 1) p) (writeField indent (depth + 1) q)
        (rest.map (writeField indent (depth + 1)))
      have hnext := (startsValue_joined indent (depth + 1) (startsValue_writeField indent (depth + 1) q)
        (rest.map (writeField indent (depth + 1)))).append (ending indent depth '\x7d' tail)
      simp only [List.map_cons, heq, List.length_append, List.length_cons] at hfuel ih ⊢
      have hlast := ih (by simp) hrest hbegins fuel (by omega)
      rw [List.append_assoc, List.cons_append,
        readFields_writeField hp hbegin (by omega) (endsNumber_comma _)]
      simp only [skipSpaces_comma, List.append_assoc, skipSpaces_of_startsValue gap hgap hnext, hlast]
      rfl

/-! ### Values -/

theorem enclose_append (indent : Option Nat) (depth : Nat) (opening closing : Char)
    {texts : List (List Char)} (h : texts ≠ []) (tail : List Char) :
    enclose indent depth opening closing texts ++ tail = opening :: (lineBreak indent (depth + 1) ++
      (joined indent (depth + 1) texts ++ ending indent depth closing tail)) := by
  rw [enclose, if_neg (by simpa using h)]
  simp [joined, ending]

theorem length_joined_lt (indent : Option Nat) (depth : Nat) (opening closing : Char)
    {texts : List (List Char)} (h : texts ≠ []) :
    (joined indent (depth + 1) texts).length + 1 <
      (enclose indent depth opening closing texts).length := by
  have := congrArg List.length (enclose_append indent depth opening closing h [])
  simp only [List.append_nil, ending, List.length_cons, List.length_append] at this
  omega

theorem readsBack_list {items : List Json} {indent : Option Nat} {depth : Nat}
    (hread : ∀ x ∈ items, ReadsBack limit indent (depth + 1) x)
    (hstart : ∀ x ∈ items, StartsValue (write indent (depth + 1) x)) :
    ReadsBack limit indent depth (list items) := by
  intro fuel tail hfuel _
  rw [write_list] at hfuel ⊢
  rw [sorted_list]
  cases items with
  | nil =>
    obtain ⟨fuel, rfl⟩ : ∃ k, fuel = k + 1 := ⟨fuel - 1, by simp [enclose] at hfuel; omega⟩
    rfl
  | cons x rest =>
    have hne : (x :: rest).map (write indent (depth + 1)) ≠ [] := by simp
    have hlt := length_joined_lt indent depth '[' ']' hne
    obtain ⟨fuel, rfl⟩ : ∃ k, fuel = k + 1 := ⟨fuel - 1, by omega⟩
    have hbegin : StartsValue (joined indent (depth + 1) ((x :: rest).map (write indent (depth + 1))) ++
        ending indent depth ']' tail) :=
      (startsValue_joined indent (depth + 1) (hstart x (List.mem_cons_self ..)) _).append _
    have hitems := readItems_write (by simp) hread hstart fuel tail (by omega)
    rw [enclose_append _ _ _ _ hne, readValue, if_neg (by decide), if_pos rfl,
      skipSpaces_of_startsValue _ (fun _ => isSpace_of_mem_lineBreak) hbegin]
    split
    · rename_i after heq
      obtain ⟨c, text, hc, -, hbracket, -⟩ := hbegin
      exact absurd (List.cons.inj (hc.symm.trans heq)).1 hbracket
    · rw [hitems]
      rfl

theorem readsBack_object {fields : List (String × Json)} {indent : Option Nat} {depth : Nat}
    (distinct : (fields.map (·.1)).Nodup)
    (hread : ∀ p ∈ fields, ReadsBack limit indent (depth + 1) p.2)
    (hstart : ∀ p ∈ fields, StartsValue (write indent (depth + 1) p.2)) :
    ReadsBack limit indent depth (object fields) := by
  intro fuel tail hfuel _
  rw [write_object] at hfuel ⊢
  rw [sorted_object]
  have hdistinct := nodup_sortFields distinct
  have hread' : ∀ p ∈ sortFields fields, ReadsBack limit indent (depth + 1) p.2 :=
    fun p hp => hread p (mem_sortFields.mp hp)
  have hstart' : ∀ p ∈ sortFields fields, StartsValue (write indent (depth + 1) p.2) :=
    fun p hp => hstart p (mem_sortFields.mp hp)
  generalize sortFields fields = fields at *
  cases fields with
  | nil =>
    obtain ⟨fuel, rfl⟩ : ∃ k, fuel = k + 1 := ⟨fuel - 1, by simp [enclose] at hfuel; omega⟩
    rfl
  | cons p rest =>
    have hne : (p :: rest).map (writeField indent (depth + 1)) ≠ [] := by simp
    have hlt := length_joined_lt indent depth '\x7b' '\x7d' hne
    obtain ⟨fuel, rfl⟩ : ∃ k, fuel = k + 1 := ⟨fuel - 1, by omega⟩
    have hbegin : StartsValue (joined indent (depth + 1)
        ((p :: rest).map (writeField indent (depth + 1))) ++ ending indent depth '\x7d' tail) :=
      (startsValue_joined indent (depth + 1) (startsValue_writeField indent (depth + 1) p) _).append _
    have hfields := readFields_write (by simp) hread' hstart' fuel tail (by omega)
    rw [enclose_append _ _ _ _ hne, readValue, if_neg (by decide), if_neg (by decide), if_pos rfl,
      skipSpaces_of_startsValue _ (fun _ => isSpace_of_mem_lineBreak) hbegin]
    split
    · rename_i after heq
      obtain ⟨c, text, hc, -, -, hbrace, -⟩ := hbegin
      exact absurd (List.cons.inj (hc.symm.trans heq)).1 hbrace
    · rw [hfields]
      show Except.ok (ofFields _, tail) = _
      rw [ofFields_of_nodup]
      rw [List.map_map]
      exact hdistinct

theorem succ_of_length_le {text : List Char} (h : StartsValue text) {fuel : Nat}
    (hf : text.length ≤ fuel) : ∃ k, fuel = k + 1 := by
  obtain ⟨c, rest, rfl, -⟩ := h
  exact ⟨fuel - 1, by simp only [List.length_cons] at hf; omega⟩

/-- A writable value is read back from its text, with its fields sorted. -/
theorem readsBack_of_writable {v : Json} (h : WritableWithin limit v) (indent : Option Nat) (depth : Nat) :
    ReadsBack limit indent depth v := by
  induction h generalizing depth with
  | list h ih => exact readsBack_list (fun x hx => ih x hx _) fun x hx => startsValue_write (h x hx) ..
  | object distinct h ih =>
    exact readsBack_object distinct (fun p hp => ih p hp _) fun p hp => startsValue_write (h p hp) ..
  | int hn =>
    intro fuel tail hfuel ht
    obtain ⟨fuel, rfl⟩ := succ_of_length_le (startsValue_decimalInt _) hfuel
    exact readValue_decimalInt hn ht fuel
  | null =>
    intro fuel tail hfuel _
    obtain ⟨fuel, rfl⟩ := succ_of_length_le (@startsValue_write limit _ .null indent depth) hfuel
    rfl
  | bool b =>
    intro fuel tail hfuel _
    obtain ⟨fuel, rfl⟩ := succ_of_length_le (@startsValue_write limit _ (.bool b) indent depth) hfuel
    cases b <;> rfl
  | text s =>
    intro fuel tail hfuel _
    obtain ⟨fuel, rfl⟩ := succ_of_length_le (startsValue_writeText s) hfuel
    show readValue limit (fuel + 1) ('"' :: (s.toList.flatMap escapedChar ++ ['"'] ++ tail)) = _
    rw [readValue, if_pos rfl, readText_writeText]
    show Except.ok (text (String.ofList s.toList), tail) = _
    rw [String.ofList_toList]
    rfl

/-- The stable text of a writable value is read as that value with its fields sorted. -/
theorem read_stableText {v : Json} (h : WritableWithin limit v) (indent : Option Nat) :
    readWithin limit (stableText indent v).toList = .ok v.sorted := by
  have hstart := startsValue_write h indent 0
  have hskip := skipSpaces_of_startsValue [] (by simp) (hstart.append ['\n'])
  have hlen : (write indent 0 v).length ≤ 2 * (write indent 0 v ++ ['\n']).length + 2 := by
    simp only [List.length_append]
    omega
  have hvalue := readsBack_of_writable h indent 0 _ ['\n'] hlen
    (endsNumber_cons ⟨rfl, by decide, by decide, by decide⟩)
  have hmark : ((write indent 0 v ++ ['\n']).head? == some (Char.ofNat 0xfeff)) = false := by
    obtain ⟨c, rest, hc, -, -, -, hne⟩ := hstart
    rw [hc]
    exact beq_eq_false_iff_ne.mpr fun h => hne (Option.some.inj h)
  have hend : skipSpaces ['\n'] = [] := rfl
  rw [List.nil_append] at hskip
  simp only [readWithin, stableText, String.toList_ofList, hmark, hskip, hvalue, hend,
    Bool.false_eq_true, if_false]
  rfl

/-! ### Line ends -/

theorem return_not_mem_escapedChar (c : Char) : '\r' ∉ escapedChar c := by
  unfold escapedChar
  split
  · decide
  split
  · decide
  split
  · decide
  split
  · decide
  rename_i hreturn
  split
  · decide
  split
  · decide
  split
  · decide
  split
  · simp only [List.mem_cons, not_or]
    refine ⟨by decide, by decide, fun h => ?_⟩
    exact absurd (digit?_isSome_of_mem_hex h) (by decide)
  · exact fun h => hreturn (List.mem_singleton.mp h).symm

theorem return_not_mem_writeText (s : String) : '\r' ∉ writeText s := by
  simp [writeText, return_not_mem_escapedChar]

theorem return_not_mem_lineBreak (indent : Option Nat) (depth : Nat) :
    '\r' ∉ lineBreak indent depth := by
  cases indent <;> simp [lineBreak]

theorem return_not_mem_joined (indent : Option Nat) (depth : Nat) {texts : List (List Char)}
    (h : ∀ text ∈ texts, '\r' ∉ text) : '\r' ∉ joined indent depth texts := by
  have hsep : '\r' ∉ separator indent depth := by
    cases indent <;> simp [separator, lineBreak]
  induction texts with
  | nil => simp [joined]
  | cons text rest ih =>
    obtain ⟨htext, hrest⟩ := List.forall_mem_cons.mp h
    cases rest with
    | nil => rwa [joined_singleton]
    | cons next rest =>
      rw [joined, List.intercalate_cons_cons]
      simp only [List.mem_append, not_or]
      exact ⟨⟨htext, hsep⟩, ih hrest⟩

theorem return_not_mem_enclose {indent : Option Nat} {depth : Nat} {opening closing : Char}
    {texts : List (List Char)} (ho : '\r' ≠ opening) (hc : '\r' ≠ closing)
    (h : ∀ text ∈ texts, '\r' ∉ text) : '\r' ∉ enclose indent depth opening closing texts := by
  have hjoined : '\r' ∉ (separator indent (depth + 1)).intercalate texts :=
    return_not_mem_joined indent (depth + 1) h
  rw [enclose]
  split <;> simp [ho, hc, hjoined, return_not_mem_lineBreak]

/-- The text of a writable value is made of one kind of line end. -/
theorem return_not_mem_write {v : Json} (h : WritableWithin limit v) (indent : Option Nat) (depth : Nat) :
    '\r' ∉ write indent depth v := by
  induction h generalizing depth with
  | null => simp [write]
  | bool b => cases b <;> simp [write]
  | @int n _ =>
    rw [write]
    have hdigit (k : Nat) : '\r' ∉ decimal k :=
      fun h => absurd (isDigit_of_mem_decimal h) (by decide)
    cases n <;> simp [decimalInt, hdigit]
  | text s => exact return_not_mem_writeText s
  | list _ ih =>
    rw [write_list]
    refine return_not_mem_enclose (by decide) (by decide) fun text ht => ?_
    obtain ⟨x, hx, rfl⟩ := List.mem_map.mp ht
    exact ih x hx _
  | object _ _ ih =>
    rw [write_object]
    refine return_not_mem_enclose (by decide) (by decide) fun text ht => ?_
    obtain ⟨p, hp, rfl⟩ := List.mem_map.mp ht
    simp [writeField, return_not_mem_writeText, ih p (mem_sortFields.mp hp)]

theorem return_not_mem_stableText {v : Json} (h : WritableWithin limit v) (indent : Option Nat) :
    '\r' ∉ (stableText indent v).toList := by
  simp [stableText, return_not_mem_write h]

end RouteInventory.Json
