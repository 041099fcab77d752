import RouteInventory.Proofs.Script.Segment
import RouteInventory.Routing.Property

/-!
# Where keys and values stand

`Skips` says of a text that a search passes over it, whatever stands around it, `HasKey` that a key
with its colon occurs in it, and `Continues` that the reading of a value goes on behind it. With these,
what is read from an object's own text is told for texts put together from such parts.
-/

namespace RouteInventory.Text

variable {α : Type} {pattern : Pattern α}

theorem skipBlanks_append {blanks : List Char} (h : ∀ c ∈ blanks, isBlank c = true)
    (rest : List Char) : skipBlanks (blanks ++ rest) = skipBlanks rest :=
  List.dropWhile_append_of_pos h

theorem skipBlanks_cons {c : Char} (h : isBlank c = false) (rest : List Char) :
    skipBlanks (c :: rest) = c :: rest :=
  List.dropWhile_cons_of_neg (by simp [h])

theorem exists_skipBlanks (text : List Char) :
    ∃ blanks, (∀ c ∈ blanks, isBlank c = true) ∧ text = blanks ++ skipBlanks text := by
  refine ⟨text.takeWhile isBlank, fun c hc => ?_, List.takeWhile_append_dropWhile.symm⟩
  exact List.all_eq_true.mp List.all_takeWhile c hc

theorem bodyUpTo_append {mark : Char} {barred : Char → Bool} {body : List Char} (hmark : mark ∉ body)
    (hbarred : ∀ c ∈ body, barred c = false) (rest : List Char) :
    bodyUpTo mark barred (body ++ mark :: rest) = some (body, rest) := by
  induction body with
  | nil => rw [List.nil_append, bodyUpTo, if_pos rfl]
  | cons c body ih =>
    obtain ⟨hc, hbody⟩ := List.forall_mem_cons.mp hbarred
    rw [List.mem_cons, not_or] at hmark
    rw [List.cons_append, bodyUpTo, if_neg (Ne.symm hmark.1), hc, if_neg Bool.false_ne_true,
      ih hmark.2 hbody]
    rfl

/-! ### Searches that pass over a text -/

theorem getLast?_cons_or (c : Char) (u : List Char) (before : Option Char) :
    (c :: u).getLast?.or before = u.getLast?.or (some c) := by
  rw [List.getLast?_cons]
  cases u.getLast? <;> rfl

/-- A search passes over a text at whose places the pattern does not match. -/
theorem firstMatch_append {before : Option Char} {x y : List Char}
    (h : ∀ u c v, x = u ++ c :: v → pattern (u.getLast?.or before) (c :: v ++ y) = none) :
    firstMatch pattern before (x ++ y) = firstMatch pattern (x.getLast?.or before) y := by
  induction x generalizing before with
  | nil => rfl
  | cons c x ih =>
    have hhead : pattern before (c :: (x ++ y)) = none := h [] c x rfl
    rw [List.cons_append, firstMatch, hhead, Option.orElse_none, getLast?_cons_or]
    refine ih fun u d v hx => ?_
    rw [← getLast?_cons_or c u before]
    exact h (c :: u) d v (by rw [hx, List.cons_append])

/-- Whether a search passes over a text, whatever stands around it. -/
def Skips (pattern : Pattern α) (x : List Char) : Prop :=
  ∀ before rest, firstMatch pattern before (x ++ rest) =
    firstMatch pattern (x.getLast?.or before) rest

namespace Skips

theorem append {a b : List Char} (ha : Skips pattern a) (hb : Skips pattern b) :
    Skips pattern (a ++ b) := by
  intro before rest
  rw [List.append_assoc, ha, hb, List.getLast?_append, Option.or_assoc]

theorem of_forall {x : List Char} (h : ∀ c ∈ x, ∀ before rest, pattern before (c :: rest) = none) :
    Skips pattern x := by
  intro before rest
  refine firstMatch_append fun u c v hx => h c ?_ _ _
  rw [hx]
  exact List.mem_append_right _ List.mem_cons_self

end Skips

/-- What a search finds the pattern finds at some place, and nothing at the places before. -/
theorem exists_of_firstMatch {before : Option Char} {text : List Char} {m : α × List Char}
    (h : firstMatch pattern before text = some m) : ∃ left right, text = left ++ right ∧
      pattern (left.getLast?.or before) right = some m ∧
      ∀ u c v, left = u ++ c :: v → pattern (u.getLast?.or before) (c :: v ++ right) = none := by
  induction text generalizing before with
  | nil => exact ⟨[], [], rfl, h, fun u c v heq => by simp at heq⟩
  | cons c text ih =>
    rw [firstMatch, Option.orElse_eq_or, Option.or_eq_some_iff] at h
    rcases h with h | ⟨hnone, h⟩
    · exact ⟨[], c :: text, rfl, h, fun u c v heq => by simp at heq⟩
    · obtain ⟨left, right, rfl, h, hbefore⟩ := ih h
      refine ⟨c :: left, right, rfl, by rwa [getLast?_cons_or], fun u d v heq => ?_⟩
      cases u with
      | nil =>
        obtain ⟨rfl, rfl⟩ := List.cons.inj heq
        exact hnone
      | cons e u =>
        obtain ⟨rfl, rfl⟩ := List.cons.inj heq
        rw [getLast?_cons_or]
        exact hbefore u d v rfl

theorem isSome_firstMatch_iff {before : Option Char} {text : List Char} :
    (firstMatch pattern before text).isSome = true ↔
      ∃ left right, text = left ++ right ∧ (pattern (left.getLast?.or before) right).isSome = true := by
  induction text generalizing before with
  | nil =>
    constructor
    · exact fun h => ⟨[], [], rfl, h⟩
    · rintro ⟨left, right, heq, h⟩
      obtain ⟨rfl, rfl⟩ := List.append_eq_nil_iff.mp heq.symm
      exact h
  | cons c text ih =>
    rw [firstMatch, Option.orElse_eq_or, Option.isSome_or, Bool.or_eq_true, ih]
    constructor
    · rintro (h | ⟨left, right, rfl, h⟩)
      · exact ⟨[], c :: text, rfl, h⟩
      · exact ⟨c :: left, right, rfl, by rwa [getLast?_cons_or]⟩
    · rintro ⟨left, right, heq, h⟩
      cases left with
      | nil =>
        obtain rfl : c :: text = right := heq
        exact .inl h
      | cons d left =>
        obtain ⟨rfl, rfl⟩ := List.cons.inj heq
        exact .inr ⟨left, right, rfl, by rwa [getLast?_cons_or] at h⟩

end RouteInventory.Text

namespace RouteInventory.Routing

open Script Text

/-! ### Keys -/

theorem keyMayFollow_getLast? {x : List Char} (h : ∀ c ∈ x, keyMayFollow (some c) = true) :
    keyMayFollow x.getLast? = true := by
  cases hlast : x.getLast? with
  | none => rfl
  | some c => exact h c (List.mem_of_getLast? hlast)

/-- Whether a text begins with a key, a closing quote or none, and a colon behind blanks, in front of
a value. -/
def KeyAt (name : String) (text value : List Char) : Prop :=
  ∃ mark blanks, (mark = [] ∨ mark = ['\''] ∨ mark = ['"']) ∧ (∀ c ∈ blanks, isBlank c = true) ∧
    text = name.toList ++ (mark ++ (blanks ++ ':' :: value))

theorem exists_skipKeyQuote (text : List Char) :
    ∃ mark, (mark = [] ∨ mark = ['\''] ∨ mark = ['"']) ∧ text = mark ++ skipKeyQuote text := by
  cases text with
  | nil => exact ⟨[], .inl rfl, rfl⟩
  | cons c rest =>
    by_cases hc : c = '\'' ∨ c = '"'
    · rcases hc with rfl | rfl
      · exact ⟨['\''], .inr (.inl rfl), rfl⟩
      · exact ⟨['"'], .inr (.inr rfl), rfl⟩
    · rw [skipKeyQuote, if_neg (by simpa using hc)]
      exact ⟨[], .inl rfl, rfl⟩

theorem skipKeyQuote_append {mark blanks : List Char} (hmark : mark = [] ∨ mark = ['\''] ∨ mark = ['"'])
    (hblanks : ∀ c ∈ blanks, isBlank c = true) (value : List Char) :
    skipKeyQuote (mark ++ (blanks ++ ':' :: value)) = blanks ++ ':' :: value := by
  rcases hmark with rfl | rfl | rfl
  · cases blanks with
    | nil => rfl
    | cons c blanks =>
      have hc : ¬ (c = '\'' ∨ c = '"') := by
        rintro (rfl | rfl)
        · exact absurd (hblanks _ List.mem_cons_self) (by decide)
        · exact absurd (hblanks _ List.mem_cons_self) (by decide)
      rw [List.nil_append, List.cons_append, skipKeyQuote, if_neg (by simpa using hc)]
  · rfl
  · rfl

theorem afterKey?_eq_some_iff {name : String} {before : Option Char} {text value : List Char} :
    afterKey? name before text = some value ↔
      keyMayFollow before = true ∧ KeyAt name text value := by
  constructor
  · intro h
    rw [afterKey?] at h
    by_cases hbefore : keyMayFollow before = true
    · rw [if_pos hbefore] at h
      obtain ⟨rest, hname, hcolon⟩ := Option.bind_eq_some_iff.mp h
      rw [after?_eq_some_iff] at hname hcolon
      obtain ⟨mark, hmark, hrest⟩ := exists_skipKeyQuote rest
      obtain ⟨blanks, hblanks, hvalue⟩ := exists_skipBlanks (skipKeyQuote rest)
      refine ⟨hbefore, mark, blanks, hmark, hblanks, ?_⟩
      rw [hname, hrest, hvalue, hcolon]
      simp
    · rw [if_neg hbefore] at h
      exact absurd h nofun
  · rintro ⟨hbefore, mark, blanks, hmark, hblanks, rfl⟩
    rw [afterKey?, if_pos hbefore, after?_eq_some_iff.mpr rfl]
    dsimp only [Option.bind_eq_bind, Option.bind_some]
    rw [skipKeyQuote_append hmark hblanks, skipBlanks_append hblanks,
      skipBlanks_cons (by decide), after?_eq_some_iff]
    rfl

/-- A key occurs in a text where no identifier goes on and no dot stands before it. -/
def HasKey (name : String) (text : List Char) : Prop :=
  ∃ left right value, text = left ++ right ∧ keyMayFollow left.getLast? = true ∧ KeyAt name right value

/-- The search for the value of a key. -/
def keyPattern (name : String) : Pattern Unit := fun before text =>
  (afterKey? name before text).map fun value => ((), value)

theorem loadChildrenValue?_eq (own : List Char) :
    loadChildrenValue? own = (firstMatch (keyPattern "loadChildren") none own).map (·.2) := rfl

theorem hasKey_iff {name : String} {text : List Char} :
    (firstMatch (keyPattern name) none text).isSome = true ↔ HasKey name text := by
  rw [isSome_firstMatch_iff]
  refine exists_congr fun left => exists_congr fun right => ?_
  rw [Option.or_none, keyPattern, Option.isSome_map, Option.isSome_iff_exists]
  simp only [afterKey?_eq_some_iff, exists_and_left]

instance (name : String) (text : List Char) : Decidable (HasKey name text) :=
  decidable_of_iff _ hasKey_iff

theorem exists_append_of_notMem {c : Char} {x y w value : List Char} (hw : c ∉ w)
    (h : x ++ c :: y = w ++ value) : ∃ v, x = w ++ v := by
  rcases List.append_eq_append_iff.mp h with ⟨v, rfl, hv⟩ | ⟨v, hv, -⟩
  · cases v with
    | nil => exact ⟨[], by simp⟩
    | cons d v =>
      obtain ⟨rfl, -⟩ := List.cons.inj hv
      exact absurd (List.mem_append_right x List.mem_cons_self) hw
  · exact ⟨v, hv⟩

/-- A key in front of a closing quote ends there, unless the quote closes the key itself. -/
theorem KeyAt.of_append {name : String} {x y value : List Char} (hname : '\'' ∉ name.toList)
    (hx : '\'' ∉ x) (hy : ∀ rest, skipBlanks y ≠ ':' :: rest)
    (h : KeyAt name (x ++ '\'' :: y) value) : ∃ value', KeyAt name x value' := by
  obtain ⟨mark, blanks, hmark, hblanks, heq⟩ := h
  have hquote : '\'' ∉ blanks := fun hmem => absurd (hblanks _ hmem) (by decide)
  by_cases hm : mark = ['\'']
  · subst hm
    obtain ⟨v, rfl⟩ := exists_append_of_notMem hname heq
    have hv : v = [] := by
      obtain ⟨u, hu⟩ := exists_append_of_notMem hx heq.symm
      rw [List.append_assoc] at hu
      exact (List.append_eq_nil_iff.mp (List.self_eq_append_right.mp hu)).1
    rw [hv, List.append_nil] at heq
    have hrest : y = blanks ++ ':' :: value := (List.cons.inj (List.append_cancel_left heq)).2
    rw [hrest, skipBlanks_append hblanks, skipBlanks_cons (by decide)] at hy
    exact absurd rfl (hy value)
  · have hmem : '\'' ∉ mark := by
      rcases hmark with rfl | rfl | rfl
      · exact List.not_mem_nil
      · exact absurd rfl hm
      · decide
    have hw : '\'' ∉ name.toList ++ (mark ++ (blanks ++ [':'])) := by
      simp [hname, hmem, hquote]
    have heq' : x ++ '\'' :: y = name.toList ++ (mark ++ (blanks ++ [':'])) ++ value := by
      rw [heq]
      simp
    obtain ⟨v, rfl⟩ := exists_append_of_notMem hw heq'
    exact ⟨v, mark, blanks, hmark, hblanks, by simp⟩

theorem keyPattern_eq_none {name : String} {d : Char} {word : List Char} (hname : name.toList = d :: word)
    {c : Char} (hc : c ≠ d) (before : Option Char) (rest : List Char) :
    keyPattern name before (c :: rest) = none := by
  rw [keyPattern, Option.map_eq_none_iff, Option.eq_none_iff_forall_ne_some]
  intro value h
  obtain ⟨-, mark, blanks, -, -, heq⟩ := afterKey?_eq_some_iff.mp h
  rw [hname, List.cons_append] at heq
  exact hc (List.cons.inj heq).1

/-- The search for a key passes over a literal in which it does not occur. -/
theorem firstMatch_literal {name : String} {d : Char} {word : List Char}
    (hname : name.toList = d :: word) (hquote : '\'' ∉ name.toList) {body y : List Char}
    (hbody : '\'' ∉ body) (hkey : ¬ HasKey name body) (hy : ∀ rest, skipBlanks y ≠ ':' :: rest)
    (before : Option Char) :
    firstMatch (keyPattern name) before (literal body ++ y) =
      firstMatch (keyPattern name) (some '\'') y := by
  have hd : '\'' ≠ d := fun heq => hquote (by rw [hname, heq]; exact List.mem_cons_self)
  have hmiss (before : Option Char) (rest : List Char) := keyPattern_eq_none hname hd before rest
  have htext : literal body ++ y = '\'' :: (body ++ '\'' :: y) := by simp [literal]
  rw [htext, firstMatch, hmiss, Option.orElse_none, firstMatch_append, firstMatch, hmiss,
    Option.orElse_none]
  intro u c v hu
  rw [keyPattern, Option.map_eq_none_iff, Option.eq_none_iff_forall_ne_some]
  intro value h
  obtain ⟨hbefore, hat⟩ := afterKey?_eq_some_iff.mp h
  have hv : '\'' ∉ c :: v := fun hmem => hbody (by rw [hu]; exact List.mem_append_right _ hmem)
  obtain ⟨value', hinside⟩ := hat.of_append hquote hv hy
  refine hkey ⟨u, c :: v, value', hu, ?_, hinside⟩
  cases hlast : u.getLast? with
  | none => rfl
  | some e => rwa [hlast] at hbefore

theorem afterKey?_append {name : String} {before : Option Char} (h : keyMayFollow before = true)
    (value : List Char) : afterKey? name before (name.toList ++ ':' :: value) = some value :=
  afterKey?_eq_some_iff.mpr ⟨h, [], [], .inl rfl, nofun, rfl⟩

theorem firstMatch_of_eq_some {α : Type} {pattern : Pattern α} {before : Option Char}
    {text : List Char} {result : α × List Char} (h : pattern before text = some result) :
    firstMatch pattern before text = some result := by
  cases text with
  | nil => exact h
  | cons c text => rw [firstMatch, h, Option.orElse_some]

theorem loadChildrenValue?_append {own value : List Char} {before : Option Char}
    (hbefore : keyMayFollow before = true)
    (h : firstMatch (keyPattern "loadChildren") none own =
      firstMatch (keyPattern "loadChildren") before ("loadChildren".toList ++ ':' :: value)) :
    loadChildrenValue? own = some value := by
  have hkey : keyPattern "loadChildren" before ("loadChildren".toList ++ ':' :: value) =
      some ((), value) := by
    rw [keyPattern, Option.map_eq_some_iff]
    exact ⟨value, afterKey?_append hbefore value, rfl⟩
  rw [loadChildrenValue?_eq, h, firstMatch_of_eq_some hkey]
  rfl

/-- The search for a path. -/
def pathPattern : Pattern (List Char) := fun before text => do
  let value ← afterKey? "path" before text
  quoted? isQuote (fun _ => false) (skipBlanks value)

theorem pathValue?_eq (own : List Char) :
    pathValue? own = (firstMatch pathPattern none own).map (·.1) := rfl

theorem skips_pathPattern {blanks : List Char} (h : ∀ c ∈ blanks, isBlank c = true) :
    Skips pathPattern blanks := by
  refine .of_forall fun c hc before rest => ?_
  have hne : c ≠ 'p' := fun heq => absurd (h c hc) (by rw [heq]; decide)
  have hnone := keyPattern_eq_none (show "path".toList = 'p' :: _ from rfl) hne before rest
  rw [keyPattern, Option.map_eq_none_iff] at hnone
  rw [pathPattern, hnone]
  rfl

theorem pathValue?_append {blanks blanks' path : List Char} (hblanks : ∀ c ∈ blanks, isBlank c = true)
    (hbefore : keyMayFollow blanks.getLast? = true) (hblanks' : ∀ c ∈ blanks', isBlank c = true)
    (hpath : '\'' ∉ path) (rest : List Char) :
    pathValue? (blanks ++ ("path".toList ++ ':' :: (blanks' ++ (literal path ++ rest)))) =
      some path := by
  have hliteral : literal path ++ rest = '\'' :: (path ++ '\'' :: rest) := by simp [literal]
  have hmatch : pathPattern (blanks.getLast?.or none)
      ("path".toList ++ ':' :: (blanks' ++ (literal path ++ rest))) = some (path, rest) := by
    rw [Option.or_none, pathPattern, afterKey?_append hbefore, Option.bind_eq_bind, Option.bind_some,
      skipBlanks_append hblanks', hliteral, skipBlanks_cons (by decide), quoted?,
      if_pos (by decide), bodyUpTo_append hpath fun _ _ => rfl]
  rw [pathValue?_eq, skips_pathPattern hblanks, firstMatch_of_eq_some hmatch]
  rfl

/-- Only the word behind the last colon is looked at. -/
theorem endsInChildrenKey_eq {before blanks : List Char} {c : Char}
    (hblanks : ∀ c ∈ blanks, isBlank c = true) (hblank : isBlank c = false)
    (hc : c ≠ '\'' ∧ c ≠ '"') : endsInChildrenKey (before ++ c :: ':' :: blanks) =
      match after? "children".toList.reverse (c :: before.reverse) with
      | some earlier => keyMayFollow earlier.head?
      | none => false := by
  have htext : (before ++ c :: ':' :: blanks).reverse = blanks.reverse ++ ':' :: c :: before.reverse := by
    simp
  rw [endsInChildrenKey, htext, skipBlanks_append (by simpa using hblanks),
    skipBlanks_cons (by decide)]
  show (match after? _ (skipKeyQuote (skipBlanks (c :: before.reverse))) with
    | some earlier => keyMayFollow earlier.head?
    | none => false) = _
  rw [skipBlanks_cons hblank, skipKeyQuote, if_neg (by simpa using hc)]

theorem endsInChildrenKey_children {before blanks : List Char}
    (hbefore : keyMayFollow before.getLast? = true) (hblanks : ∀ c ∈ blanks, isBlank c = true) :
    endsInChildrenKey (before ++ ("children".toList ++ ':' :: blanks)) = true := by
  have htext : before ++ ("children".toList ++ ':' :: blanks) =
      before ++ "childre".toList ++ 'n' :: ':' :: blanks := by simp
  have hword : after? "children".toList.reverse ('n' :: (before ++ "childre".toList).reverse) =
      some before.reverse := after?_eq_some_iff.mpr (by simp)
  rw [htext, endsInChildrenKey_eq hblanks (by decide) (by decide), hword]
  simpa using hbefore

theorem endsInChildrenKey_data (before : List Char) {blanks : List Char}
    (hblanks : ∀ c ∈ blanks, isBlank c = true) :
    endsInChildrenKey (before ++ ("data".toList ++ ':' :: blanks)) = false := by
  have htext : before ++ ("data".toList ++ ':' :: blanks) =
      before ++ "dat".toList ++ 'a' :: ':' :: blanks := by simp
  rw [htext, endsInChildrenKey_eq hblanks (by decide) (by decide)]
  rfl

/-! ### Values -/

/-- The depth of parentheses behind a character. -/
def depthAfter (depth : Int) (c : Char) : Int :=
  if c = '(' then depth + 1 else if c = ')' then depth - 1 else depth

/-- Whether the reading of a value goes on behind a text, at another depth of parentheses. -/
def Continues (text : List Char) (depth depth' : Int) : Prop :=
  ∀ before rest, valueText depth (segmentsFrom .bare before (text ++ rest)) =
    text ++ valueText depth' (segmentsFrom .bare (text.reverse ++ before) rest)

namespace Continues

theorem nil (depth : Int) : Continues [] depth depth := fun _ _ => rfl

theorem append {a b : List Char} {depth depth' depth'' : Int} (ha : Continues a depth depth')
    (hb : Continues b depth' depth'') : Continues (a ++ b) depth depth'' := by
  intro before rest
  rw [List.append_assoc, ha, hb, List.reverse_append, List.append_assoc, List.append_assoc]

theorem code {c : Char} (h : IsCode c) (hcomma : c ≠ ',') (depth : Int) :
    Continues [c] depth (depthAfter depth c) := by
  intro before rest
  rw [List.singleton_append, segmentsFrom_code h, valueText, if_neg (by simp [hcomma])]
  rfl

theorem word {text : List Char} (h : ∀ c ∈ text, IsCode c ∧ c ≠ ',') (depth : Int) :
    Continues text depth (text.foldl depthAfter depth) := by
  induction text generalizing depth with
  | nil => exact nil depth
  | cons c text ih =>
    obtain ⟨⟨hc, hcomma⟩, htext⟩ := List.forall_mem_cons.mp h
    exact (code hc hcomma depth).append (ih htext _)

theorem plain {text : List Char} (h : ∀ c ∈ text, IsCode c ∧ c ≠ ',' ∧ c ≠ '(' ∧ c ≠ ')')
    (depth : Int) : Continues text depth depth := by
  have hdepth : text.foldl depthAfter depth = depth := by
    induction text with
    | nil => rfl
    | cons c text ih =>
      obtain ⟨⟨-, -, hopen, hclose⟩, htext⟩ := List.forall_mem_cons.mp h
      rw [List.foldl_cons, depthAfter, if_neg hopen, if_neg hclose, ih htext]
  have hword := word (fun c hc => ⟨(h c hc).1, (h c hc).2.1⟩) depth
  rwa [hdepth] at hword

theorem literal {body : List Char} (h : IsLiteral body) (depth : Int) :
    Continues (Script.literal body) depth depth := by
  intro before rest
  rw [segmentsFrom_literal h, valueText]
  · rfl
  · exact nofun

end Continues

/-! ### Module references -/

theorem moduleReference?_literal {blanks name symbol : List Char}
    (hblanks : ∀ c ∈ blanks, isBlank c = true) (hname : '#' ∉ name)
    (hquote : ∀ c ∈ name ++ '#' :: symbol, (c = '\'' || c = '"') = false) (rest : List Char) :
    moduleReference? (blanks ++ (literal (name ++ '#' :: symbol) ++ rest)) = some name := by
  have hliteral : literal (name ++ '#' :: symbol) ++ rest =
      '\'' :: (name ++ '#' :: symbol ++ '\'' :: rest) := by simp [literal]
  have hmark : '\'' ∉ name ++ '#' :: symbol := fun hmem => absurd (hquote _ hmem) (by decide)
  have hbody : (name ++ '#' :: symbol).takeWhile (· != '#') = name := by
    rw [List.takeWhile_append_of_pos fun c hc => by simpa using fun heq : c = '#' => hname (heq ▸ hc)]
    simp
  rw [moduleReference?, stringReference?, skipBlanks_append hblanks, hliteral,
    skipBlanks_cons (by decide), quoted?, if_pos (by decide), bodyUpTo_append hmark hquote]
  simp [hbody]

/-- The search for an import call. -/
def importPattern : Pattern (List Char) := fun before text =>
  if before.any isWord then none else do
    let call ← after? "import(".toList text
    let (body, rest) ← quoted? isQuote isQuote (skipBlanks call)
    if body.isEmpty then none else
    let after ← after? [')'] (skipBlanks rest)
    some (body, after)

theorem importReference?_eq (value : List Char) :
    importReference? value = (firstMatch importPattern none value).map (·.1) := rfl

theorem skips_importPattern {x : List Char} (h : 'i' ∉ x) : Skips importPattern x := by
  refine .of_forall fun c hc before rest => ?_
  have hnone : after? "import(".toList (c :: rest) = none := by
    rw [Option.eq_none_iff_forall_ne_some]
    intro text htext
    obtain ⟨rfl, -⟩ := List.cons.inj (after?_eq_some_iff.mp htext)
    exact h hc
  rw [importPattern, hnone]
  split <;> rfl

theorem importPattern_append {call name after : List Char} (hcall : ∀ c ∈ call, isBlank c = true)
    (hquote : ∀ c ∈ name, isQuote c = false) (hname : name ≠ [])
    (hafter : ∀ c ∈ after, isBlank c = true) {before : Option Char} (hbefore : before.any isWord = false)
    (rest : List Char) :
    importPattern before ("import(".toList ++ (call ++ (literal name ++ (after ++ ')' :: rest)))) =
      some (name, rest) := by
  have hliteral : literal name ++ (after ++ ')' :: rest) =
      '\'' :: (name ++ '\'' :: (after ++ ')' :: rest)) := by simp [literal]
  have hmark : '\'' ∉ name := fun hmem => absurd (hquote _ hmem) (by decide)
  rw [importPattern, hbefore, if_neg Bool.false_ne_true, after?_eq_some_iff.mpr rfl,
    Option.bind_eq_bind, Option.bind_some, skipBlanks_append hcall, hliteral,
    skipBlanks_cons (by decide), quoted?, if_pos (by decide), bodyUpTo_append hmark hquote,
    Option.bind_eq_bind, Option.bind_some]
  dsimp only
  rw [if_neg (by simpa using hname), skipBlanks_append hafter, skipBlanks_cons (by decide)]
  rfl

theorem moduleReference?_import {blanks call name after : List Char}
    (hblanks : ∀ c ∈ blanks, isBlank c = true) (hcall : ∀ c ∈ call, isBlank c = true)
    (hquote : ∀ c ∈ name, isQuote c = false) (hname : name ≠ [])
    (hafter : ∀ c ∈ after, isBlank c = true) (rest : List Char) :
    moduleReference? (blanks ++ ("() => import(".toList ++ (call ++ (literal name ++
      (after ++ ')' :: rest))))) = some name := by
  have htext : blanks ++ ("() => import(".toList ++ (call ++ (literal name ++
      (after ++ ')' :: rest)))) = (blanks ++ "() => ".toList) ++
        ("import(".toList ++ (call ++ (literal name ++ (after ++ ')' :: rest)))) := by simp
  have hstring : stringReference? (blanks ++ ("() => import(".toList ++ (call ++ (literal name ++
      (after ++ ')' :: rest))))) = none := by
    rw [stringReference?, skipBlanks_append hblanks]
    rfl
  have hskip : 'i' ∉ blanks ++ "() => ".toList := by
    rw [List.mem_append, not_or]
    exact ⟨fun hmem => absurd (hblanks _ hmem) (by decide), by decide⟩
  rw [moduleReference?, hstring, Option.orElse_none, htext, importReference?_eq,
    skips_importPattern hskip, firstMatch_of_eq_some (importPattern_append hcall hquote hname hafter _ _)]
  · rfl
  · rw [List.getLast?_append]
    rfl

end RouteInventory.Routing
