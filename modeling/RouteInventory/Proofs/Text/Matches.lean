import RouteInventory.Proofs.Routing.Property

/-!
# Where matches are

A search for all matches is followed along a text that is put together from parts: it passes over a part at no
place of which the pattern matches (`Passes`), and it takes a part that is a match as a whole. A pattern that
begins with a word passes over what spares the word (`Spares`): no occurrence of it begins there, also none that
goes on in what stands behind. A word without a border, none of whose ends is its beginning, is spared by all
texts in which it does not occur.
-/

namespace RouteInventory.Text

variable {α : Type} {pattern : Pattern α}

/-! ### Parts of a text -/

/-- The matches in a text that stands behind another one. -/
def matchesBehind (pattern : Pattern α) (before text : List Char) : List (Match α) :=
  matchesFrom pattern 0 before.getLast? (before.count '\n' + 1) text

theorem allMatches_eq (pattern : Pattern α) (text : List Char) :
    allMatches pattern text = matchesBehind pattern [] text := rfl

/-- Whether a pattern matches at no place of a text that stands between two others. -/
def Passes (pattern : Pattern α) (before x y : List Char) : Prop :=
  ∀ u c v, x = u ++ c :: v → pattern (before ++ u).getLast? (c :: (v ++ y)) = none

variable {before x y : List Char}

theorem Passes.cons {c : Char} (h : pattern before.getLast? (c :: (x ++ y)) = none)
    (hx : Passes pattern (before ++ [c]) x y) : Passes pattern before (c :: x) y := by
  intro u d v heq
  cases u with
  | nil =>
    obtain ⟨rfl, rfl⟩ := List.cons.inj heq
    rwa [List.append_nil]
  | cons e u =>
    obtain ⟨rfl, rfl⟩ := List.cons.inj heq
    rw [List.append_cons]
    exact hx u d v rfl

theorem Passes.of_cons {c : Char} (h : Passes pattern before (c :: x) y) :
    pattern before.getLast? (c :: (x ++ y)) = none ∧ Passes pattern (before ++ [c]) x y := by
  refine ⟨?_, fun u d v heq => ?_⟩
  · have hnone := h [] c x rfl
    rwa [List.append_nil] at hnone
  · rw [← List.append_cons]
    exact h (c :: u) d v (by rw [heq, List.cons_append])

theorem lineAfter_count (before : List Char) (c : Char) :
    lineAfter c (before.count '\n' + 1) = (before ++ [c]).count '\n' + 1 := by
  rw [lineAfter, List.count_append, List.count_singleton]
  by_cases hc : c = '\n'
  · rw [if_pos hc, if_pos (by simp [hc])]
  · rw [if_neg hc, if_neg (by simpa using hc)]

theorem matchesFrom_skip (pattern : Pattern α) (before x y : List Char) :
    matchesFrom pattern x.length before.getLast? (before.count '\n' + 1) (x ++ y) =
      matchesBehind pattern (before ++ x) y := by
  induction x generalizing before with
  | nil =>
    rw [List.append_nil]
    rfl
  | cons c x ih =>
    rw [List.cons_append, List.length_cons, matchesFrom, lineAfter_count, List.append_cons before c x,
      ← ih, List.getLast?_concat]

theorem matchesBehind_of_passes (h : Passes pattern before x y) :
    matchesBehind pattern before (x ++ y) = matchesBehind pattern (before ++ x) y := by
  induction x generalizing before with
  | nil => rw [List.append_nil, List.nil_append]
  | cons c x ih =>
    obtain ⟨hnone, hx⟩ := h.of_cons
    rw [List.append_cons, ← ih hx, matchesBehind, List.cons_append, matchesFrom, hnone, matchesBehind,
      List.getLast?_concat, lineAfter_count]

theorem matchesBehind_of_match {captured : α} (hx : x ≠ [])
    (h : pattern before.getLast? (x ++ y) = some (captured, y)) :
    matchesBehind pattern before (x ++ y) =
      ⟨captured, before.count '\n' + 1⟩ :: matchesBehind pattern (before ++ x) y := by
  cases x with
  | nil => exact absurd rfl hx
  | cons c x =>
    rw [List.cons_append] at h
    rw [matchesBehind, List.cons_append, matchesFrom, h, List.append_cons, ← matchesFrom_skip,
      List.getLast?_concat, lineAfter_count]
    dsimp only
    rw [List.length_append, Nat.add_sub_cancel]

/-! ### Words -/

/-- Whether no occurrence of a word begins in a text that stands before another one. -/
def Spares (word x y : List Char) : Prop := ∀ s, s ≠ [] → s <:+ x → ¬ word <+: s ++ y

/-- Whether no end of a word, short of all of it, is also a beginning of it. -/
def Borderless (word : List Char) : Prop := ∀ s, s <:+ word → s <+: word → s = [] ∨ s = word

/-- Whether no occurrence of a word that begins before a text can go on in it: the text is empty, it begins with
the word itself, or with a character that is not in the word. -/
def Interrupts (word y : List Char) : Prop := y = [] ∨ word <+: y ∨ ∃ c ∈ y.head?, c ∉ word

variable {word a b : List Char}

theorem Borderless.of_tails (h : ∀ s ∈ word.tails, s <+: word → s = [] ∨ s = word) : Borderless word :=
  fun s hs => h s ((List.mem_tails _ _).mpr hs)

/-- A word at the beginning of two texts stands in the first, or it goes on in the second. -/
theorem exists_of_prefix_append (h : word <+: x ++ y) :
    word <+: x ∨ ∃ rest, word = x ++ rest ∧ rest <+: y := by
  rcases List.prefix_or_prefix_of_prefix h (List.prefix_append x y) with h' | ⟨rest, rfl⟩
  · exact .inl h'
  · exact .inr ⟨rest, rfl, (List.prefix_append_right_inj x).mp h⟩

namespace Spares

theorem append (ha : Spares word a (b ++ y)) (hb : Spares word b y) : Spares word (a ++ b) y := by
  intro s hs hsuffix
  rcases List.suffix_or_suffix_of_suffix hsuffix (List.suffix_append a b) with h | ⟨t, rfl⟩
  · exact hb s hs h
  · rw [List.append_assoc]
    by_cases ht : t = []
    · subst ht
      exact hb b (by simpa using hs) List.suffix_rfl
    · obtain ⟨front, heq⟩ := hsuffix
      rw [← List.append_assoc, List.append_cancel_right_eq] at heq
      exact ha t ht ⟨front, heq⟩

theorem of_head {d : Char} (h : d ∉ x) : Spares (d :: word) x y := by
  intro s hs hsuffix hprefix
  cases s with
  | nil => exact hs rfl
  | cons c s =>
    obtain ⟨rfl, -⟩ := List.cons_prefix_cons.mp hprefix
    exact h (hsuffix.subset List.mem_cons_self)

theorem of_borderless (hword : Borderless word) (hx : ¬ word <:+: x) (hy : Interrupts word y) :
    Spares word x y := by
  intro s hs hsuffix hprefix
  rcases exists_of_prefix_append hprefix with h | ⟨rest, rfl, hrest⟩
  · exact hx (h.isInfix.trans hsuffix.isInfix)
  by_cases hnil : rest = []
  · subst hnil
    rw [List.append_nil] at hx
    exact hx hsuffix.isInfix
  rcases hy with rfl | hy | ⟨c, hc, hmem⟩
  · exact hnil (List.prefix_nil.mp hrest)
  · -- what goes on in `y`, which begins with the word, is an end and a beginning of the word
    have hborder : rest <+: s ++ rest :=
      List.prefix_of_prefix_length_le hrest hy (by rw [List.length_append]; omega)
    rcases hword rest (List.suffix_append s rest) hborder with h | h
    · exact hnil h
    · exact hs (List.self_eq_append_left.mp h)
  · cases rest with
    | nil => exact hnil rfl
    | cons d rest =>
      obtain ⟨tail, rfl⟩ := hrest
      obtain rfl : d = c := by simpa using hc
      exact hmem (List.mem_append_right s List.mem_cons_self)

theorem tail (hword : Borderless word) : Spares word word.tail y := by
  intro s hs hsuffix hprefix
  have hlength : s.length < word.length := by
    have hle := hsuffix.length_le
    have hpos := List.length_pos_iff.mpr hs
    rw [List.length_tail] at hle
    omega
  have hborder : s <+: word :=
    List.prefix_of_prefix_length_le (List.prefix_append s y) hprefix hlength.le
  rcases hword s (hsuffix.trans (List.tail_suffix word)) hborder with rfl | rfl
  · exact hs rfl
  · exact absurd hlength (lt_irrefl _)

/-- What spares a word spares it with another character in front, if that does not stand before the word. -/
theorem cons {d : Char} (h : Spares word x y) (hlast : x.getLast? = some d → ¬ word <+: y) :
    Spares (d :: word) x y := by
  intro s hs hsuffix hprefix
  cases s with
  | nil => exact hs rfl
  | cons c s =>
    obtain ⟨rfl, hrest⟩ := List.cons_prefix_cons.mp hprefix
    by_cases hnil : s = []
    · subst hnil
      obtain ⟨front, rfl⟩ := hsuffix
      exact hlast (by simp) hrest
    · exact h s hnil ((List.suffix_cons d s).trans hsuffix) hrest

/-- A pattern that begins with a word passes over what spares the word. -/
theorem passes (h : Spares word x y)
    (hpattern : ∀ before text, ¬ word <+: text → pattern before text = none) (before : List Char) :
    Passes pattern before x y :=
  fun u c v heq => hpattern _ _ (h (c :: v) (List.cons_ne_nil c v) ⟨u, heq.symm⟩)

end Spares

end RouteInventory.Text
