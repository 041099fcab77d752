import RouteInventory.Proofs.Text.Matches
import RouteInventory.Reference.Scanner

/-!
# The links of a template

A template is put together from links in three forms and fillers that do not mention the attribute
(`Document`). The attribute stands in it nowhere but in its links, so each of the three patterns takes the links
of its own form and passes over all else (`matchesBehind_links`), and the scanner refers to each link once.
-/

namespace RouteInventory.Reference

open Script Text

/-! ### Templates -/

/-- The attribute of a link. -/
def linkKey : List Char := "routerLink".toList

/-- The forms of links: a plain attribute, one bound to a literal, and one bound to an array that begins with a
literal. -/
inductive LinkForm
  | plain
  | literal
  | array
deriving DecidableEq, Repr

namespace LinkForm

def opening : LinkForm → List Char
  | plain => "routerLink=\"".toList
  | literal => "[routerLink]=\"'".toList
  | array => "[routerLink]=\"['".toList

/-- What ends a link; the rest of an array stands behind it. -/
def closing : LinkForm → List Char
  | plain => "\"".toList
  | literal => "'\"".toList
  | array => "'".toList

/-- The forms in the order in which links are searched for. -/
def inOrder : List LinkForm := [plain, literal, array]

end LinkForm

/-- A link with a value that no quote, line feed or further attribute is in. -/
structure Link where
  form : LinkForm
  value : List Char
  noQuote : ∀ c ∈ value, isQuote c = false
  oneLine : '\n' ∉ value
  noKey : ¬ linkKey <:+: value

def Link.text (l : Link) : List Char := l.form.opening ++ (l.value ++ l.form.closing)

/-- A text that does not mention the attribute. -/
structure Filler where
  text : List Char
  noKey : ¬ linkKey <:+: text

/-- The text of some links with the fillers behind them. -/
def textOf (links : List (Link × Filler)) : List Char :=
  links.flatMap fun (l, filler) => l.text ++ filler.text

/-- Whether a character joins the attribute to a longer name or a binding. -/
def Joins (c : Char) : Prop := c = '[' ∨ c = '.' ∨ c = '-' ∨ isWord c = true

instance (c : Char) : Decidable (Joins c) := inferInstanceAs (Decidable (_ ∨ _))

/-- Whether every plain link stands behind a character that does not join it, or at the beginning; a text
stands before the links. -/
def Apart (before : List Char) : List (Link × Filler) → Prop
  | [] => True
  | (l, filler) :: rest =>
    (l.form = .plain → ∀ c ∈ before.getLast?, ¬ Joins c) ∧ Apart (before ++ (l.text ++ filler.text)) rest

structure Document where
  lead : Filler
  links : List (Link × Filler)
  apart : Apart lead.text links

def Document.text (d : Document) : List Char := d.lead.text ++ textOf d.links

/-- Links with the lines on which they begin, behind a text. -/
def placed (before : List Char) : List (Link × Filler) → List (Link × Nat)
  | [] => []
  | (l, filler) :: rest =>
    (l, before.count '\n' + 1) :: placed (before ++ (l.text ++ filler.text)) rest

/-- The links of a template with the lines on which they begin. -/
def Document.placed (d : Document) : List (Link × Nat) := Reference.placed d.lead.text d.links

/-- The links of a template by their forms, those of each form in the order of the template. -/
def Document.byForm (d : Document) : List (Link × Nat) :=
  LinkForm.inOrder.flatMap fun form => d.placed.filter (·.1.form = form)

/-- Whether a route is written out, without interpolation or calls in it. -/
def IsWrittenOut (route : List Char) : Prop :=
  route ≠ [] ∧ ¬ "\x7b\x7b".toList <:+: route ∧ ¬ "(".toList <:+: route

instance (route : List Char) : Decidable (IsWrittenOut route) := inferInstanceAs (Decidable (_ ∧ _))

/-- What a link on a line of a file refers to, if its route is written out. -/
def referenceOf? (path : String) (x : Link × Nat) : Option Reference :=
  if IsWrittenOut (normalize x.1.value) then
    some ⟨String.ofList (normalize x.1.value), path, x.2, .html⟩
  else none

/-! ### The attribute in links -/

namespace LinkForm

/-- What stands between the attribute and the value. -/
def middle : LinkForm → List Char
  | plain => "=\"".toList
  | literal => "]=\"'".toList
  | array => "]=\"['".toList

/-- What the pattern of a form begins with. -/
def word : LinkForm → List Char
  | plain => linkKey
  | _ => '[' :: linkKey

theorem opening_eq (form : LinkForm) : form.opening = form.word ++ form.middle := by
  cases form <;> rfl

/-- The name to which the value is assigned. -/
def key : LinkForm → String
  | plain => "routerLink"
  | _ => "[routerLink]"

/-- What stands between the quote of the attribute and the value. -/
def inside : LinkForm → List Char
  | plain => []
  | literal => ['\'']
  | array => ['[', '\'']

/-- The pattern by which links of a form are found. -/
def pattern : LinkForm → Pattern (List Char)
  | plain => plainLink
  | literal => boundLiteral
  | array => boundArray

end LinkForm

/-- What stands in a link behind the attribute. -/
def Link.behind (l : Link) : List Char := l.form.middle ++ (l.value ++ l.form.closing)

variable {l : Link} {filler : Filler} {form : LinkForm} {before y : List Char}
  {rest : List (Link × Filler)}

theorem borderless_linkKey : Borderless linkKey := .of_tails (by decide)

theorem linkKey_eq : linkKey = 'r' :: "outerLink".toList := rfl

theorem textOf_cons (l : Link) (filler : Filler) (rest : List (Link × Filler)) :
    textOf ((l, filler) :: rest) = l.text ++ (filler.text ++ textOf rest) := by
  rw [textOf, List.flatMap_cons, List.append_assoc]
  rfl

theorem Link.text_eq (l : Link) : l.text = l.form.word ++ l.behind := by
  rw [Link.text, LinkForm.opening_eq, List.append_assoc]
  rfl

/-- The text of links does not go on with the attribute. -/
theorem interrupts_textOf (links : List (Link × Filler)) : Interrupts linkKey (textOf links) := by
  cases links with
  | nil => exact .inl rfl
  | cons x rest =>
    obtain ⟨l, filler⟩ := x
    rw [textOf_cons, l.text_eq]
    cases hform : l.form with
    | plain => exact .inr (.inl ((List.prefix_append _ _).trans (List.prefix_append _ _)))
    | literal => exact .inr (.inr ⟨'[', rfl, by decide⟩)
    | array => exact .inr (.inr ⟨'[', rfl, by decide⟩)

/-- Behind the attribute of a link it stands nowhere up to the next link. -/
theorem spares_behind (l : Link) (filler : Filler) (rest : List (Link × Filler)) :
    Spares linkKey (l.behind ++ filler.text) (textOf rest) := by
  have hmiddle : 'r' ∉ l.form.middle := by cases l.form <;> decide
  have hclosing : 'r' ∉ l.form.closing := by cases l.form <;> decide
  have hinterrupts (y : List Char) : Interrupts linkKey (l.form.closing ++ y) := by
    cases l.form
    · exact .inr (.inr ⟨'"', rfl, by decide⟩)
    · exact .inr (.inr ⟨'\'', rfl, by decide⟩)
    · exact .inr (.inr ⟨'\'', rfl, by decide⟩)
  have hvalue (y : List Char) : Spares linkKey (l.value ++ l.form.closing) y :=
    (Spares.of_borderless borderless_linkKey l.noKey (hinterrupts y)).append (.of_head hclosing)
  exact ((Spares.of_head hmiddle).append (hvalue _)).append
    (.of_borderless borderless_linkKey filler.noKey (interrupts_textOf rest))

theorem Apart.not_prefix (h : Apart before rest) (hlast : before.getLast? = some '[') :
    ¬ linkKey <+: textOf rest := by
  intro hprefix
  cases rest with
  | nil => exact absurd (List.prefix_nil.mp hprefix) (by decide)
  | cons x rest =>
    obtain ⟨l, filler⟩ := x
    cases hform : l.form with
    | plain => exact h.1 hform '[' hlast (.inl rfl)
    | literal | array =>
      rw [textOf_cons, l.text_eq, hform] at hprefix
      exact absurd (List.cons_prefix_cons.mp hprefix).1 (by decide)

theorem spares_word (form : LinkForm) {x : List Char} (h : Spares linkKey x (textOf rest))
    (hapart : Apart (before ++ x) rest) : Spares form.word x (textOf rest) := by
  have hbracket : x.getLast? = some '[' → ¬ linkKey <+: textOf rest := by
    intro hlast
    exact hapart.not_prefix (by rw [List.getLast?_append, hlast, Option.some_or])
  cases form with
  | plain => exact h
  | literal | array => exact h.cons hbracket

/-! ### The patterns -/

theorem afterAssignment?_eq_none {name : String} {text : List Char} (h : ¬ name.toList <+: text) :
    afterAssignment? name text = none := by
  have hafter : after? name.toList text = none := by
    rw [← Option.not_isSome_iff_eq_none, after?_isSome_iff]
    exact h
  rw [afterAssignment?, hafter]
  rfl

theorem afterAssignment?_append (name : String) (value : List Char) :
    afterAssignment? name (name.toList ++ '=' :: value) = some (skipBlanks value) := by
  rw [afterAssignment?, after?_eq_some_iff.mpr rfl, Option.bind_eq_bind, Option.bind_some,
    skipBlanks_cons (by decide)]
  rfl

theorem afterAssignment?_key_eq_none (form : LinkForm) {text : List Char} (h : ¬ form.word <+: text) :
    afterAssignment? form.key text = none := by
  have hkey : form.word <+: form.key.toList := by cases form <;> decide
  exact afterAssignment?_eq_none fun hprefix => h (hkey.trans hprefix)

theorem pattern_eq_none (form : LinkForm) (before : Option Char) (text : List Char)
    (h : ¬ form.word <+: text) : form.pattern before text = none := by
  cases form with
  | plain =>
    have hnone : afterAssignment? "routerLink" text = none := afterAssignment?_key_eq_none .plain h
    rw [LinkForm.pattern, plainLink, hnone]
    exact ite_self _
  | literal =>
    have hnone : afterAssignment? "[routerLink]" text = none := afterAssignment?_key_eq_none .literal h
    rw [LinkForm.pattern, boundLiteral, hnone]
    rfl
  | array =>
    have hnone : afterAssignment? "[routerLink]" text = none := afterAssignment?_key_eq_none .array h
    rw [LinkForm.pattern, boundArray, hnone]
    rfl

theorem Link.quote_not_mem (l : Link) {mark : Char} (hmark : isQuote mark = true) : mark ∉ l.value := by
  intro hmem
  rw [l.noQuote mark hmem] at hmark
  cases hmark

theorem any_joins_iff {before : Option Char} :
    (before.any fun c => c = '[' || isWord c || c = '.' || c = '-') = true ↔ ∃ c ∈ before, Joins c := by
  have hjoins (c : Char) : (decide (c = '[') || isWord c || decide (c = '.') || decide (c = '-')) = true ↔
      Joins c := by
    simp only [Bool.or_eq_true, decide_eq_true_eq, Joins]
    tauto
  cases before with
  | none => simp
  | some c => simpa using hjoins c

theorem afterAssignment?_text (l : Link) (y : List Char) :
    afterAssignment? l.form.key (l.text ++ y) =
      some ('"' :: (l.form.inside ++ (l.value ++ (l.form.closing ++ y)))) := by
  have htext : l.text ++ y =
      l.form.key.toList ++ '=' :: '"' :: (l.form.inside ++ (l.value ++ (l.form.closing ++ y))) := by
    rw [Link.text, List.append_assoc, List.append_assoc]
    cases l.form <;> rfl
  rw [htext, afterAssignment?_append, skipBlanks_cons (by decide)]

theorem afterAssignment?_plain (h : l.form = .plain) (y : List Char) :
    afterAssignment? "routerLink" (l.text ++ y) = some ('"' :: (l.value ++ '"' :: y)) := by
  have hvalue := afterAssignment?_text l y
  rewrite [h] at hvalue
  exact hvalue

theorem afterAssignment?_literal (h : l.form = .literal) (y : List Char) :
    afterAssignment? "[routerLink]" (l.text ++ y) =
      some ('"' :: '\'' :: (l.value ++ '\'' :: '"' :: y)) := by
  have hvalue := afterAssignment?_text l y
  rewrite [h] at hvalue
  exact hvalue

theorem afterAssignment?_array (h : l.form = .array) (y : List Char) :
    afterAssignment? "[routerLink]" (l.text ++ y) =
      some ('"' :: '[' :: '\'' :: (l.value ++ '\'' :: y)) := by
  have hvalue := afterAssignment?_text l y
  rewrite [h] at hvalue
  exact hvalue

theorem attributeValue?_cons {c : Char} (h : isBlank c = false) (body : List Char) :
    attributeValue? ('"' :: c :: body) = some ('"', c :: body) := by
  rw [attributeValue?, if_pos (show isDoubleOrSingle '"' = true by decide), skipBlanks_cons h]

theorem innerLiteral?_append (l : Link) (y : List Char) :
    innerLiteral? '"' ('\'' :: (l.value ++ '\'' :: y)) = some (l.value, y) := by
  have hmark : ('\'' != '"' && isQuote '\'') = true := by decide
  rw [innerLiteral?, if_pos hmark, bodyUpTo_append (l.quote_not_mem (by decide)) l.noQuote]

theorem pattern_text (l : Link) {before : Option Char} (hplain : l.form = .plain → ∀ c ∈ before, ¬ Joins c)
    (y : List Char) : l.form.pattern before (l.text ++ y) = some (l.value, y) := by
  cases hform : l.form with
  | plain =>
    have hbefore : ¬ (before.any fun c => c = '[' || isWord c || c = '.' || c = '-') = true := by
      rw [any_joins_iff]
      rintro ⟨c, hc, hjoins⟩
      exact hplain hform c hc hjoins
    have hline : ∀ c ∈ l.value, decide (c = '\n') = false := fun c hc =>
      decide_eq_false fun heq => l.oneLine (heq ▸ hc)
    rw [LinkForm.pattern, plainLink, if_neg hbefore, afterAssignment?_plain hform, Option.bind_eq_bind,
      Option.bind_some, lineLiteral?, if_pos (show isDoubleOrSingle '"' = true by decide),
      bodyUpTo_append (l.quote_not_mem (by decide)) hline]
  | literal =>
    have hbody := attributeValue?_cons (show isBlank '\'' = false by decide) (l.value ++ '\'' :: '"' :: y)
    have hend : after? ['"'] (skipBlanks ('"' :: y)) = some y := by
      rw [skipBlanks_cons (by decide)]
      rfl
    rw [LinkForm.pattern, boundLiteral, afterAssignment?_literal hform]
    simp only [Option.bind_eq_bind, Option.bind_some, hbody, innerLiteral?_append, hend, Option.pure_def]
  | array =>
    have hbody := attributeValue?_cons (show isBlank '[' = false by decide) ('\'' :: (l.value ++ '\'' :: y))
    have hitems (items : List Char) : after? ['['] ('[' :: items) = some items := rfl
    rw [LinkForm.pattern, boundArray, afterAssignment?_array hform]
    simp only [Option.bind_eq_bind, Option.bind_some, hbody, hitems,
      skipBlanks_cons (show isBlank '\'' = false by decide), innerLiteral?_append]

/-- A bound link is not taken as one of the other bound form. -/
theorem pattern_other (hform : form ≠ l.form) (hbound : form ≠ .plain) (hlink : l.form ≠ .plain)
    (before : Option Char) (y : List Char) : form.pattern before (l.text ++ y) = none := by
  cases hl : l.form with
  | plain => exact absurd hl hlink
  | literal =>
    cases form with
    | plain => exact absurd rfl hbound
    | literal => exact absurd hl.symm hform
    | array =>
      have hbody := attributeValue?_cons (show isBlank '\'' = false by decide) (l.value ++ '\'' :: '"' :: y)
      have hitems (items : List Char) : after? ['['] ('\'' :: items) = none := rfl
      rw [LinkForm.pattern, boundArray, afterAssignment?_literal hl]
      simp only [Option.bind_eq_bind, Option.bind_some, hbody, hitems, Option.bind_none]
  | array =>
    cases form with
    | plain => exact absurd rfl hbound
    | literal =>
      have hbody := attributeValue?_cons (show isBlank '[' = false by decide) ('\'' :: (l.value ++ '\'' :: y))
      have hinner (items : List Char) : innerLiteral? '"' ('[' :: items) = none := rfl
      rw [LinkForm.pattern, boundLiteral, afterAssignment?_array hl]
      simp only [Option.bind_eq_bind, Option.bind_some, hbody, hinner, Option.bind_none]
    | array => exact absurd hl.symm hform

/-- The plain attribute is not found behind a bracket. -/
theorem plainLink_bracket (text : List Char) : plainLink (some '[') text = none := by
  rw [plainLink, if_pos (any_joins_iff.mpr ⟨'[', rfl, .inl rfl⟩)]

/-! ### The links of one form -/

theorem passes_filler (form : LinkForm) (filler : Filler) (hapart : Apart (before ++ filler.text) rest) :
    Passes form.pattern before filler.text (textOf rest) :=
  have hspares := Spares.of_borderless borderless_linkKey filler.noKey (interrupts_textOf rest)
  (spares_word form hspares hapart).passes (pattern_eq_none form) before

/-- The word of a bound form does not stand behind the first bracket of a link up to the next link. -/
theorem spares_linkKey (hbound : form ≠ .plain) (hapart : Apart before ((l, filler) :: rest)) :
    Spares form.word (linkKey ++ (l.behind ++ filler.text)) (textOf rest) := by
  have hbehind : Spares form.word (l.behind ++ filler.text) (textOf rest) := by
    have htail := hapart.2
    rw [l.text_eq, List.append_assoc, ← List.append_assoc before] at htail
    exact spares_word form (spares_behind l filler rest) htail
  refine Spares.append ?_ hbehind
  cases form with
  | plain => exact absurd rfl hbound
  | literal | array => exact .of_head (by decide)

/-- A pattern passes over a link of another form and the filler behind it. -/
theorem passes_other (hform : form ≠ l.form) (hapart : Apart before ((l, filler) :: rest)) :
    Passes form.pattern before (l.text ++ filler.text) (textOf rest) := by
  have hword : l.form ≠ .plain → l.form.word = '[' :: linkKey := by cases l.form <;> simp [LinkForm.word]
  by_cases hbound : form = .plain
  · -- the attribute of a bound link stands behind a bracket
    subst hbound
    rw [l.text_eq, hword hform.symm, linkKey_eq, List.append_assoc, List.cons_append, List.cons_append]
    refine .cons (pattern_eq_none .plain _ _ ?_) (.cons ?_ ?_)
    · exact fun h => absurd (List.cons_prefix_cons.mp h).1 (by decide)
    · rw [List.getLast?_concat]
      exact plainLink_bracket _
    · have htail : Spares linkKey "outerLink".toList (l.behind ++ filler.text ++ textOf rest) :=
        Spares.tail borderless_linkKey
      exact (htail.append (spares_behind l filler rest)).passes (pattern_eq_none .plain) _
  · have hspares := (spares_linkKey hbound hapart).passes (pattern_eq_none form)
    by_cases hlink : l.form = .plain
    · rw [l.text_eq, hlink, List.append_assoc]
      exact hspares before
    · have hnone := pattern_other hform hbound hlink before.getLast? (filler.text ++ textOf rest)
      rw [l.text_eq, hword hlink, List.append_assoc, List.cons_append] at hnone ⊢
      refine .cons ?_ (hspares _)
      simpa only [List.append_assoc] using hnone

theorem matchesBehind_links (form : LinkForm) {links : List (Link × Filler)} (h : Apart before links) :
    matchesBehind form.pattern before (textOf links) =
      ((placed before links).filter (·.1.form = form)).map fun x => ⟨x.1.value, x.2⟩ := by
  induction links generalizing before with
  | nil => rfl
  | cons x rest ih =>
    obtain ⟨l, filler⟩ := x
    rw [textOf_cons, placed]
    by_cases hform : l.form = form
    · subst hform
      have hne : l.text ≠ [] := by
        rw [l.text_eq]
        cases l.form <;> exact List.cons_ne_nil _ _
      have hfiller : Passes l.form.pattern (before ++ l.text) filler.text (textOf rest) := by
        refine passes_filler l.form filler ?_
        rw [List.append_assoc]
        exact h.2
      rw [matchesBehind_of_match hne (pattern_text l h.1 _), matchesBehind_of_passes hfiller,
        List.append_assoc, ih h.2, List.filter_cons_of_pos (by simp), List.map_cons]
    · rw [← List.append_assoc, matchesBehind_of_passes (passes_other (Ne.symm hform) h), ih h.2,
        List.filter_cons_of_neg (by simpa using hform)]

theorem Document.allMatches_text (d : Document) (form : LinkForm) :
    allMatches form.pattern d.text =
      (d.placed.filter (·.1.form = form)).map fun x => ⟨x.1.value, x.2⟩ := by
  have hlead : Passes form.pattern [] d.lead.text (textOf d.links) := passes_filler form d.lead d.apart
  rw [allMatches_eq, Document.text, matchesBehind_of_passes hlead]
  exact matchesBehind_links form d.apart

/-! ### The references -/

theorem accepts_iff (route : List Char) : templates.accepts route = true ↔ IsWrittenOut route := by
  rw [Scanner.accepts_iff_not_infix, templates, List.forall_mem_cons, List.forall_mem_singleton]
  rfl

theorem perm_flatMap_inOrder (xs : List (Link × Nat)) :
    (LinkForm.inOrder.flatMap fun form => xs.filter (·.1.form = form)).Perm xs := by
  rw [LinkForm.inOrder, List.flatMap_cons, List.flatMap_cons, List.flatMap_singleton]
  induction xs with
  | nil => exact .nil
  | cons x xs ih =>
    refine .trans ?_ (ih.cons x)
    cases hform : x.1.form with
    | plain => simp [hform]
    | literal => simp [hform]
    | array =>
      have hmiddle := @List.perm_middle _ x (xs.filter (·.1.form = .plain) ++ xs.filter (·.1.form = .literal))
        (xs.filter (·.1.form = .array))
      simpa [hform, List.append_assoc] using hmiddle

theorem Document.byForm_perm (d : Document) : d.byForm.Perm d.placed := perm_flatMap_inOrder d.placed

/-- The matches in a template are its links, by their forms. -/
theorem Document.sightings_text (d : Document) :
    templates.sightings d.text = d.byForm.map fun x => ⟨normalize x.1.value, x.2⟩ := by
  have hpatterns : templates.patterns = LinkForm.inOrder.map LinkForm.pattern := rfl
  rw [Scanner.sightings, hpatterns, List.flatMap_map, Document.byForm, List.map_flatMap]
  refine List.flatMap_congr fun form _ => ?_
  rw [d.allMatches_text, List.map_map]
  rfl

/-- The scanner refers once to each link whose route is written out, to the plain ones first, then to those
bound to a literal and last to those bound to an array, each in the order of the template. -/
theorem scanText_document (d : Document) (path : String) :
    templates.scanText d.text path = d.byForm.filterMap (referenceOf? path) ∧
      (templates.scanText d.text path).Perm (d.placed.filterMap (referenceOf? path)) := by
  have heq : templates.scanText d.text path = d.byForm.filterMap (referenceOf? path) := by
    rw [Scanner.scanText_eq_filterMap, d.sightings_text, List.filterMap_map]
    refine List.filterMap_congr fun x _ => ?_
    exact if_congr (accepts_iff _) rfl rfl
  rw [heq]
  exact ⟨rfl, d.byForm_perm.filterMap _⟩

/-- An array, a plain link and a literal with a call in it. -/
def mixedLinks : List (Link × Filler) :=
  [(⟨.array, "#/items".toList, by decide, by decide, by decide⟩, ⟨", id]\"><a ".toList, by decide⟩),
    (⟨.plain, "/home".toList, by decide, by decide, by decide⟩, ⟨">\n<a ".toList, by decide⟩),
    (⟨.literal, "at(x)".toList, by decide, by decide, by decide⟩, ⟨">".toList, by decide⟩)]

theorem apart_mixedLinks : Apart "<a\n ".toList mixedLinks := by
  refine ⟨fun hplain => ?_, fun _ c hc => ?_, fun hplain => ?_, trivial⟩
  · cases hplain
  · obtain rfl := Option.some.inj hc
    decide
  · cases hplain

def mixedDocument : Document where
  lead := ⟨"<a\n ".toList, by decide⟩
  links := mixedLinks
  apart := apart_mixedLinks

theorem scanText_mixedDocument :
    mixedDocument.text =
        "<a\n [routerLink]=\"['#/items', id]\"><a routerLink=\"/home\">\n<a [routerLink]=\"'at(x)'\">".toList ∧
      templates.scanText mixedDocument.text "a.html" =
        [⟨"home", "a.html", 2, .html⟩, ⟨"items", "a.html", 2, .html⟩] := by
  refine ⟨rfl, ?_⟩
  rw [(scanText_document mixedDocument "a.html").1]
  decide +kernel

end RouteInventory.Reference
