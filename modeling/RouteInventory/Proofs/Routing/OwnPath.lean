import RouteInventory.Proofs.Routing.Listed
import RouteInventory.Proofs.Routing.Property
import RouteInventory.Proofs.Script.Owned

/-!
# The literal a path is read from

Paths are searched in the own text of an object without regard to its literals, while brackets are
sought outside of them. The two agree where the search meets whole keys and whole literals
(`KeysAreRead`): the path is the body of the literal behind the object's own `path` key.
-/

namespace RouteInventory.Routing

open Script Script.Span Text

variable {text path : List Char} {roots : List Span} {s : Span} {offset : Nat}

/-! ### Properties -/

/-- Whether a key stands at an offset of a text: the name in code, not inside a longer identifier nor
behind a dot, or a string literal of the name. -/
inductive IsKey (text name : List Char) (offset : Nat) : List Char → Prop
  | word (hcode : ∀ i, ∀ c ∈ name[i]?, (offset + i, c) ∈ codeOf text)
      (hbefore : keyMayFollow (text.take offset).getLast? = true) : IsKey text name offset name
  | literal {mark : Char} (hmark : mark = '\'' ∨ mark = '"')
      (hmem : (offset, mark :: (name ++ [mark])) ∈ stringsOf text) :
      IsKey text name offset (mark :: (name ++ [mark]))

/-- Whether a path is the whole body of a literal in the own text of a span, up to blanks right behind a
`path` key with its colon. -/
def IsOwnPath (text : List Char) (s : Span) (path : List Char) : Prop :=
  ∃ offset key blanks blanks' value mark, IsKey text "path".toList offset key ∧
    (∀ c ∈ blanks, isBlank c = true) ∧ (∀ c ∈ blanks', isBlank c = true) ∧
    StandsAt (key ++ (blanks ++ ':' :: blanks')) text offset ∧
    value = offset + (key ++ (blanks ++ ':' :: blanks')).length ∧
    (value, mark :: (path ++ [mark])) ∈ stringsOf text ∧
    ∀ i, offset ≤ i → i < value + path.length + 2 → s.Owns i

/-- Whether a string literal ends at the first mark like the one it begins with. -/
def IsWhole : List Char → Prop
  | [] => False
  | mark :: body => body.getLast? = some mark ∧ mark ∉ body.dropLast

instance : (body : List Char) → Decidable (IsWhole body)
  | [] => inferInstanceAs (Decidable False)
  | _ :: _ => inferInstanceAs (Decidable (_ ∧ _))

/-- Whether the word at an offset is a key by itself: a word in code that no key quote follows, or all of
a string literal. -/
def IsWholeKey (text name : List Char) (offset : Nat) : Prop :=
  ((∀ c ∈ name.head?, (offset, c) ∈ codeOf text) ∧
      ∀ c ∈ text[offset + name.length]?, c ≠ '\'' ∧ c ≠ '"') ∨
    ∃ x ∈ stringsOf text, x.1 + 1 = offset ∧
      (x.2 = '\'' :: (name ++ ['\'']) ∨ x.2 = '"' :: (name ++ ['"']))

/-- Whether the word and the literal at two offsets are read as the search for paths takes them: a whole
key with nothing in brackets up to the whole literal. -/
structure IsRead (text : List Char) (s : Span) (word value : Nat) : Prop where
  key : IsWholeKey text "path".toList word
  between : ∀ child ∈ s.children, child.stop < word ∨ value < child.start
  whole : ∀ x ∈ stringsOf text, x.1 = value → IsWhole x.2

/-- What the search for a path finds at a place of a text. -/
def pathAt? (own : List Char) (k : Nat) : Option (List Char × List Char) :=
  pathPattern (own.take k).getLast? (own.drop k)

/-- Whether the first word and literal that the search for paths finds in the own text of a span are so
read. -/
def KeysAreRead (text : List Char) (s : Span) : Prop :=
  ∀ k < (s.ownText text).length, (∀ j < k, pathAt? (s.ownText text) j = none) →
    ∀ m ∈ pathAt? (s.ownText text) k, IsRead text s (s.start + 1 + k)
      (s.start + 1 + ((s.ownText text).length - (m.1.length + m.2.length + 2)))

/-! ### What the search for a path finds -/

theorem bodyUpTo_eq_some {mark : Char} {barred : Char → Bool} {text body rest : List Char}
    (h : bodyUpTo mark barred text = some (body, rest)) : text = body ++ mark :: rest ∧ mark ∉ body := by
  fun_induction bodyUpTo mark barred text generalizing body with
  | case1 => cases h
  | case2 found =>
    obtain ⟨rfl, rfl⟩ := Prod.mk.inj (Option.some.inj h)
    exact ⟨rfl, List.not_mem_nil⟩
  | case3 => cases h
  | case4 c found hc _ ih =>
    obtain ⟨⟨body', rest'⟩, hbody, heq⟩ := Option.map_eq_some_iff.mp h
    obtain ⟨rfl, rfl⟩ := Prod.mk.inj heq
    obtain ⟨rfl, hmark⟩ := ih hbody
    exact ⟨rfl, fun hmem => (List.mem_cons.mp hmem).elim (fun heq => hc heq.symm) hmark⟩

theorem pathPattern_eq_some {before : Option Char} {right rest : List Char}
    (h : pathPattern before right = some (path, rest)) : keyMayFollow before = true ∧
      ∃ close blanks blanks' mark, (close = [] ∨ close = ['\''] ∨ close = ['"']) ∧
        (∀ c ∈ blanks, isBlank c = true) ∧ (∀ c ∈ blanks', isBlank c = true) ∧ isQuote mark = true ∧
        mark ∉ path ∧ right = "path".toList ++ (close ++ (blanks ++ ':' :: blanks')) ++
          mark :: (path ++ mark :: rest) := by
  obtain ⟨value, hkey, hquoted⟩ := Option.bind_eq_some_iff.mp h
  obtain ⟨hbefore, close, blanks, hclose, hblanks, rfl⟩ := afterKey?_eq_some_iff.mp hkey
  obtain ⟨blanks', hblanks', hvalue⟩ := exists_skipBlanks value
  cases hskip : skipBlanks value with
  | nil =>
    rw [hskip] at hquoted
    cases hquoted
  | cons mark found =>
    rw [hskip, quoted?] at hquoted
    split at hquoted
    · next hmark =>
      obtain ⟨rfl, hmem⟩ := bodyUpTo_eq_some hquoted
      refine ⟨hbefore, close, blanks, blanks', mark, hclose, hblanks, hblanks', hmark, hmem, ?_⟩
      rw [hvalue, hskip]
      simp
    · cases hquoted

theorem isCode_of_isBlank {c : Char} (h : isBlank c = true) : IsCode c := by
  constructor
  · by_contra hquote
    rw [Bool.not_eq_false, isQuote] at hquote
    simp only [Bool.or_eq_true, decide_eq_true_eq] at hquote
    rcases hquote with (rfl | rfl) | rfl <;> exact absurd h (by decide)
  · rintro rfl
    exact absurd h (by decide)

theorem keyMayFollow_bracket (kind : Bracket) : keyMayFollow (some kind.opening) = true ∧
    keyMayFollow (some kind.closing) = true := by
  cases kind <;> decide

/-- A key may begin in the text where it may begin in the own text of a span. -/
theorem keyMayFollow_of_ownText {left right : List Char} (hspans : spans text = .ok roots)
    (hs : s ∈ allOf roots) (hown : s.ownText text = left ++ right)
    (h : keyMayFollow left.getLast? = true) (howns : s.Owns (s.start + 1 + left.length)) :
    keyMayFollow (text.take (s.start + 1 + left.length)).getLast? = true := by
  rw [List.getLast?_take, if_neg (by omega)]
  rcases List.eq_nil_or_concat left with rfl | ⟨front, c, rfl⟩
  · rw [show s.start + 1 + [].length - 1 = s.start from rfl, (getElem?_of_mem_spans hspans hs).1]
    exact (keyMayFollow_bracket _).1
  · obtain ⟨-, hstop, hchildren⟩ := howns
    rw [List.concat_eq_append, List.length_append, List.length_singleton] at hstop hchildren ⊢
    have hc : (s.ownText text)[front.length]? = some c := by simp [hown]
    rw [← Nat.add_assoc, Nat.add_sub_cancel]
    by_cases hcovered : ∃ child ∈ s.children, child.covers (s.start + 1 + front.length) = true
    · -- the span inside ends here, since the key is not in it
      obtain ⟨child, hchild, hcovers⟩ := hcovered
      have hoff := hchildren child hchild
      simp only [covers, Bool.and_eq_true, decide_eq_true_eq, Bool.and_eq_false_iff,
        decide_eq_false_iff_not] at hcovers hoff
      have hend : child.stop = s.start + 1 + front.length := by omega
      have hmem := mem_allOf_trans hs (mem_allOf_of_mem hchild)
      rw [← hend, (getElem?_of_mem_spans hspans hmem).2]
      exact (keyMayFollow_bracket _).2
    · have howns : s.Owns (s.start + 1 + front.length) :=
        ⟨by omega, by omega, fun child hchild => by simpa using fun h => hcovered ⟨child, hchild, h⟩⟩
      rw [← getElem?_ownText_of_owns howns, hc]
      simpa using h

/-- Where a mark stands right in front of code, it is the closing quote. -/
theorem close_eq_of_mark {close lead : List Char} {mark : Char}
    (hclose : close = [] ∨ close = ['\''] ∨ close = ['"']) (hmark : mark = '\'' ∨ mark = '"')
    (hlead : ∀ c ∈ lead, IsCode c) (hlead' : lead ≠ [])
    (h : ∀ c rest, close ++ lead = c :: rest → c = mark) : close = [mark] := by
  rcases hclose with rfl | rfl | rfl
  · obtain ⟨c, rest, rfl⟩ := List.exists_cons_of_ne_nil hlead'
    obtain rfl := h c rest rfl
    have hcode := (hlead _ List.mem_cons_self).1
    rcases hmark with rfl | rfl <;> exact absurd hcode (by decide)
  · rw [h _ _ rfl]
  · rw [h _ _ rfl]

/-- A whole key that ends in front of a colon is a key of the own text, and a segment begins behind it. -/
theorem exists_isKey {name close lead : List Char} {word : Nat} (hspans : spans text = .ok roots)
    (hs : s ∈ allOf roots) (hname : ∀ c ∈ name, IsCode c) (hne : name ≠ [])
    (hclose : close = [] ∨ close = ['\''] ∨ close = ['"']) (hlead : ∀ c ∈ lead, IsCode c) (hlead' : lead ≠ [])
    (hstands : StandsAt (name ++ (close ++ lead)) text word) (howns : s.Owns word)
    (hbefore : keyMayFollow (text.take word).getLast? = true) (hkey : IsWholeKey text name word) :
    ∃ offset key, IsKey text name offset key ∧ StandsAt (key ++ lead) text offset ∧
      offset + key.length = word + name.length + close.length ∧ Begins text (offset + key.length) ∧
      ∀ i, offset ≤ i → i ≤ word → s.Owns i := by
  obtain ⟨hnamed, hbehind⟩ := standsAt_append.mp hstands
  obtain ⟨-, hleads⟩ := standsAt_append.mp hbehind
  rcases hkey with ⟨hhead, hnone⟩ | ⟨⟨offset, found⟩, hmem, rfl, hfound⟩
  · obtain ⟨c, rest, rfl⟩ := List.exists_cons_of_ne_nil hne
    obtain ⟨hbegins, hcode⟩ :=
      begins_of_standsAt (begins_of_mem_codeOf (hhead c rfl)).1 hnamed hname
    obtain rfl : close = [] := by
      rcases hclose with rfl | rfl | rfl
      · rfl
      all_goals
        obtain ⟨hc, -⟩ := standsAt_cons.mp hbehind
        simpa using hnone _ hc
    refine ⟨word, _, .word hcode hbefore, standsAt_append.mpr ⟨hnamed, hbehind⟩, rfl, hbegins, ?_⟩
    intro i hge hle
    rwa [le_antisymm hle hge]
  · obtain ⟨mark, hmark, rfl⟩ : ∃ mark, (mark = '\'' ∨ mark = '"') ∧ found = mark :: (name ++ [mark]) := by
      rcases hfound with rfl | rfl
      · exact ⟨_, .inl rfl, rfl⟩
      · exact ⟨_, .inr rfl, rfl⟩
    have hliteral := standsAt_of_mem_stringsOf hmem
    obtain ⟨hlast, -⟩ := standsAt_cons.mp (standsAt_append.mp (standsAt_cons.mp hliteral).2).2
    -- the last mark of the literal stands where the search takes a closing quote or none
    have hfirst : ∀ c rest, close ++ lead = c :: rest → c = mark := by
      intro c rest heq
      rw [heq, standsAt_cons] at hbehind
      exact Option.some.inj (hbehind.1.symm.trans hlast)
    obtain rfl := close_eq_of_mark hclose hmark hlead hlead' hfirst
    have hlength : offset + (mark :: (name ++ [mark])).length = offset + 1 + name.length + [mark].length := by
      simp only [List.length_cons, List.length_append, List.length_nil]
      omega
    refine ⟨offset, _, .literal hmark hmem, standsAt_append.mpr ⟨hliteral, hlength ▸ hleads⟩, hlength,
      begins_of_mem_stringsOf hmem, fun i hge hle => ?_⟩
    refine owns_of_mem_stringsOf hspans hs hmem (Nat.le_succ offset) ?_ howns hge ?_
    all_goals
      dsimp only at hle
      simp only [List.length_cons, List.length_append]
      omega

/-- A whole literal in the own text of a span ends there where the search takes it to end. -/
theorem mem_stringsOf_of_isWhole {left rest : List Char} {mark : Char} {value : Nat}
    (hspans : spans text = .ok roots) (hs : s ∈ allOf roots) (hbegins : Begins text value)
    (hvalue : value = s.start + 1 + left.length)
    (hown : s.ownText text = left ++ mark :: (path ++ mark :: rest)) (hquote : isQuote mark = true)
    (hmark : mark ∉ path) (hwhole : ∀ x ∈ stringsOf text, x.1 = value → IsWhole x.2) :
    (value, mark :: (path ++ [mark])) ∈ stringsOf text ∧
      ∀ i, value ≤ i → i < value + path.length + 2 → s.Owns i := by
  subst hvalue
  have hc : (s.ownText text)[left.length]? = some mark := by simp [hown]
  have hblank : isBlank mark = false := by
    by_contra hblank
    have hcode := (isCode_of_isBlank (Bool.not_eq_false _ ▸ hblank)).1
    rw [hquote] at hcode
    cases hcode
  have howns := owns_of_getElem?_ownText hc hblank
  rw [getElem?_ownText_of_owns howns] at hc
  obtain ⟨body, hmem⟩ := mem_stringsOf_of_begins hbegins hc hquote
  obtain ⟨hlast, hinner⟩ := hwhole _ hmem rfl
  obtain ⟨inner, rfl⟩ := List.getLast?_eq_some_iff.mp hlast
  rw [List.dropLast_concat] at hinner
  have hall : ∀ i, s.start + 1 + left.length ≤ i →
      i < s.start + 1 + left.length + (mark :: (inner ++ [mark])).length → s.Owns i :=
    fun i => owns_of_mem_stringsOf hspans hs hmem le_rfl (by simp) howns
  -- the literal stands in the own text too, and both bodies end at the first mark
  have hstands := (standsAt_ownText_iff fun i hi => hall _ (by omega) (by omega)).mpr
    (standsAt_of_mem_stringsOf hmem)
  rw [StandsAt, hown, List.drop_left] at hstands
  obtain ⟨back, hback⟩ := hstands
  have hbody : inner ++ mark :: back = path ++ mark :: rest := by simpa using hback
  have hends : bodyUpTo mark (fun _ => false) (inner ++ mark :: back) = some (inner, back) :=
    bodyUpTo_append hinner (fun _ _ => rfl) back
  rw [hbody, bodyUpTo_append hmark (fun _ _ => rfl)] at hends
  obtain ⟨rfl, rfl⟩ := Prod.mk.inj (Option.some.inj hends)
  refine ⟨hmem, fun i hge hlt => hall i hge ?_⟩
  simp only [List.length_cons, List.length_append, List.length_nil]
  omega

/-- Where nothing in brackets stands in between, the own text is the text. -/
theorem owns_of_between {left front right : List Char} {mark : Char}
    (hown : s.ownText text = left ++ (front ++ mark :: right))
    (hbetween : ∀ child ∈ s.children, child.stop < s.start + 1 + left.length ∨
      s.start + 1 + left.length + front.length < child.start) :
    (∀ i, s.start + 1 + left.length ≤ i → i ≤ s.start + 1 + left.length + front.length → s.Owns i) ∧
      StandsAt front text (s.start + 1 + left.length) := by
  have hmark : (s.ownText text)[left.length + front.length]? = some mark := by
    rw [hown, ← List.append_assoc, ← List.length_append]
    simp
  have hstop := lt_stop_of_getElem?_ownText hmark
  have howns : ∀ i, s.start + 1 + left.length ≤ i → i ≤ s.start + 1 + left.length + front.length →
      s.Owns i := by
    intro i hge hle
    refine ⟨by omega, by omega, fun child hchild => ?_⟩
    have := hbetween child hchild
    simp only [covers, Bool.and_eq_false_iff, decide_eq_false_iff_not]
    omega
  refine ⟨howns, (standsAt_ownText_iff fun i hi => howns _ (by omega) (by omega)).mp ?_⟩
  rw [StandsAt, hown, List.drop_left]
  exact List.prefix_append ..

theorem KeysAreRead.isRead {left front rest : List Char} {mark : Char} (h : KeysAreRead text s)
    (hown : s.ownText text = left ++ (front ++ mark :: (path ++ mark :: rest)))
    (hmatch : pathPattern left.getLast? (front ++ mark :: (path ++ mark :: rest)) = some (path, rest))
    (hfirst : ∀ u c v, left = u ++ c :: v →
      pathPattern u.getLast? (c :: v ++ (front ++ mark :: (path ++ mark :: rest))) = none) :
    IsRead text s (s.start + 1 + left.length) (s.start + 1 + left.length + front.length) := by
  have hearlier : ∀ j < left.length, pathAt? (s.ownText text) j = none := by
    intro j hj
    have heq := hfirst (left.take j) _ (left.drop (j + 1)) (by
      rw [← List.drop_eq_getElem_cons hj, List.take_append_drop])
    rwa [← List.drop_eq_getElem_cons hj, ← List.drop_append_of_le_length hj.le, ← hown,
      ← List.take_append_of_le_length hj.le, ← hown] at heq
  have hread := h left.length (by simp [hown]) hearlier (path, rest) (by simpa [pathAt?, hown] using hmatch)
  have hvalue : s.start + 1 + ((s.ownText text).length - (path.length + rest.length + 2)) =
      s.start + 1 + left.length + front.length := by
    simp only [hown, List.length_append, List.length_cons]
    omega
  rwa [← hvalue]

/-- Where words and literals are read as the search takes them, it finds an own path. -/
theorem isOwnPath_of_keysAreRead (hspans : spans text = .ok roots) (hs : s ∈ allOf roots)
    (hread : KeysAreRead text s) (hpath : pathValue? (s.ownText text) = some path) :
    IsOwnPath text s path := by
  rw [pathValue?_eq] at hpath
  obtain ⟨⟨found, rest⟩, hmatch, hpath⟩ := Option.map_eq_some_iff.mp hpath
  obtain rfl : found = path := hpath
  obtain ⟨left, right, hown, hmatch, hfirst⟩ := exists_of_firstMatch hmatch
  simp only [Option.or_none] at hmatch hfirst
  obtain ⟨hbefore, close, blanks, blanks', mark, hclose, hblanks, hblanks', hquote, hmark, rfl⟩ :=
    pathPattern_eq_some hmatch
  generalize hlead : blanks ++ ':' :: blanks' = lead at hown hmatch hfirst
  generalize hfront : "path".toList ++ (close ++ lead) = front at hown hmatch hfirst
  have hcode : ∀ c ∈ lead, IsCode c := by
    rw [← hlead, List.forall_mem_append, List.forall_mem_cons]
    exact ⟨fun c hc => isCode_of_isBlank (hblanks c hc), by decide,
      fun c hc => isCode_of_isBlank (hblanks' c hc)⟩
  obtain ⟨hwhole, hbetween, hends⟩ := hread.isRead hown hmatch hfirst
  obtain ⟨howns, hstands⟩ := owns_of_between hown hbetween
  have hword := howns _ le_rfl (Nat.le_add_right ..)
  obtain ⟨offset, key, hkey, hstands, hlength, hbegins, hkeyowns⟩ :=
    exists_isKey hspans hs (by decide) (by decide) hclose hcode (by simp [← hlead]) (hfront ▸ hstands)
      hword (keyMayFollow_of_ownText hspans hs hown hbefore hword) hwhole
  have hvalue : offset + (key ++ lead).length = s.start + 1 + left.length + front.length := by
    rw [← hfront]
    simp only [List.length_append]
    omega
  have hbehind := (begins_of_standsAt hbegins (standsAt_append.mp hstands).2 hcode).1
  rw [Nat.add_assoc, ← List.length_append, hvalue] at hbehind
  have hown' : s.ownText text = (left ++ front) ++ mark :: (found ++ mark :: rest) := by
    rw [hown, List.append_assoc]
  obtain ⟨hmem, hvalueowns⟩ := mem_stringsOf_of_isWhole hspans hs hbehind
    (by rw [List.length_append, Nat.add_assoc]) hown' hquote hmark hends
  rw [← hlead] at hstands hvalue
  refine ⟨offset, key, blanks, blanks', _, mark, hkey, hblanks, hblanks', hstands, rfl,
    hvalue ▸ hmem, fun i hge hlt => ?_⟩
  rcases Nat.lt_or_ge i (s.start + 1 + left.length) with hbefore | hbehind
  · exact hkeyowns i hge hbefore.le
  · rcases Nat.lt_or_ge i (s.start + 1 + left.length + front.length) with hbetween | hin
    · exact howns i hbehind hbetween.le
    · exact hvalueowns i hin (by omega)

/-! ### Whole modules -/

/-- The paths of the declarations of a module are own paths of their objects, wherever words and literals
there are read as the search for paths takes them. -/
theorem parseModule_ownPath {ds : List Declaration} (h : parseModule text = .ok ds) :
    ∃ (roots routes : List Span), spans (stripComments text) = .ok roots ∧ routes.Sublist (allOf roots) ∧
      preorder ds = routes.map (declaredBy (stripComments text)) ∧
      ∀ s ∈ routes, isRoute (stripComments text) s = true ∧ (KeysAreRead (stripComments text) s →
        IsOwnPath (stripComments text) s (declaredBy (stripComments text) s).path.toList) := by
  obtain ⟨roots, hroots, rfl⟩ := parseModule_eq_ok h
  have htiled := tiled_spans hroots
  refine ⟨roots, _, hroots, (routesOf_sublist roots).1, (preorder_declarationsOf roots).1, ?_⟩
  intro s hs
  have hlisted := (mem_routesOf htiled).mp hs
  refine ⟨hlisted.route, fun hread => ?_⟩
  have hroute := hlisted.route
  rw [isRoute, Bool.and_eq_true] at hroute
  obtain ⟨path, hpath⟩ := Option.isSome_iff_exists.mp hroute.2
  have hdeclared : (declaredBy (stripComments text) s).path.toList = path := by
    rw [declaredBy, hpath, Option.getD_some, String.toList_ofList]
  rw [hdeclared]
  exact isOwnPath_of_keysAreRead hroots hlisted.mem hread hpath

/-- An object with a quoted key, with an apostrophe and the word itself in other literals. -/
def quotedModule : List Char := "[\x7b title: 'my path', 'path': \"it's\" \x7d]".toList

theorem keysAreRead_quotedModule : KeysAreRead quotedModule ⟨.brace, 1, 36, []⟩ := by
  have hown : ownText quotedModule ⟨.brace, 1, 36, []⟩ =
      " title: 'my path', 'path': \"it's\" ".toList := by cbv
  have hstrings : stringsOf quotedModule =
      [(10, "'my path'".toList), (21, "'path'".toList), (29, "\"it's\"".toList)] := by cbv
  have honly : ∀ k < 34, ∀ m ∈ pathAt? " title: 'my path', 'path': \"it's\" ".toList k,
      k = 20 ∧ m = ("it's".toList, [' ']) := by decide +kernel
  intro k hk _ m hm
  rw [hown] at hk hm ⊢
  obtain ⟨rfl, rfl⟩ := honly k hk m hm
  refine ⟨.inr ⟨(21, "'path'".toList), ?_, rfl, .inl rfl⟩, by simp, ?_⟩
  · rw [hstrings]
    decide
  · rw [hstrings]
    decide

theorem parseModule_quotedModule : parseModule quotedModule = .ok [⟨"it's", none, 1, []⟩] ∧
    ∃ s, isRoute (stripComments quotedModule) s = true ∧
      IsOwnPath (stripComments quotedModule) s "it's".toList := by
  have hstrip : stripComments quotedModule = quotedModule := by cbv
  have hspans : spans quotedModule = .ok [⟨.square, 0, 37, [⟨.brace, 1, 36, []⟩]⟩] := by cbv
  have hparse : parseModule quotedModule = .ok [⟨"it's", none, 1, []⟩] := by cbv
  obtain ⟨roots, routes, hroots, hsub, hpre, hroutes⟩ := parseModule_ownPath hparse
  rw [hstrip] at hroots hpre hroutes ⊢
  obtain rfl := Except.ok.inj (hspans.symm.trans hroots)
  obtain ⟨s, rfl, hdeclared⟩ := List.map_eq_singleton_iff.mp hpre.symm
  obtain ⟨hroute, hown⟩ := hroutes s (List.mem_singleton_self s)
  have hmem : s ∈ [⟨.square, 0, 37, [⟨.brace, 1, 36, []⟩]⟩, ⟨.brace, 1, 36, []⟩] :=
    hsub.subset (List.mem_singleton_self s)
  rcases List.mem_pair.mp hmem with rfl | rfl
  · exact absurd (kind_of_isRoute hroute) (by decide)
  · refine ⟨hparse, _, hroute, ?_⟩
    have hpath := hown keysAreRead_quotedModule
    rwa [hdeclared] at hpath

/-! ### Keys and literals read in part -/

/-- Whether a module declares a path that is no own path of any object. -/
def Misreads (text : List Char) : Prop :=
  ∃ ds, parseModule text = .ok ds ∧ ∃ d ∈ preorder ds, ∀ s, ¬ IsOwnPath (stripComments text) s d.path.toList

theorem IsOwnPath.exists_key (h : IsOwnPath text s path) :
    (∃ i, (i, 'p') ∈ codeOf text) ∨ ∃ i mark, (i, mark :: ("path".toList ++ [mark])) ∈ stringsOf text := by
  obtain ⟨offset, key, -, -, -, -, hkey, -⟩ := h
  cases hkey with
  | word hcode => exact .inl ⟨_, hcode 0 'p' rfl⟩
  | literal _ hmem => exact .inr ⟨_, _, hmem⟩

theorem IsOwnPath.exists_literal (h : IsOwnPath text s path) :
    ∃ i mark, (i, mark :: (path ++ [mark])) ∈ stringsOf text := by
  obtain ⟨-, -, -, -, value, mark, -, -, -, -, -, hmem, -⟩ := h
  exact ⟨value, mark, hmem⟩

theorem misreads_of_noKey {d : Declaration} (hparse : parseModule text = .ok [d])
    (hcode : (codeOf (stripComments text)).all (fun x => x.2 != 'p') = true)
    (hstrings : (stringsOf (stripComments text)).all (fun x => x.2.length != 6) = true) : Misreads text := by
  refine ⟨_, hparse, d, by simp [preorder_singleton], fun s h => ?_⟩
  rcases h.exists_key with ⟨i, hmem⟩ | ⟨i, mark, hmem⟩
  · simpa using List.all_eq_true.mp hcode _ hmem
  · simpa using List.all_eq_true.mp hstrings _ hmem

theorem misreads_of_noLiteral {d : Declaration} (hparse : parseModule text = .ok [d])
    (hstrings : (stringsOf (stripComments text)).all
      (fun x => x.2.length != d.path.toList.length + 2) = true) : Misreads text := by
  refine ⟨_, hparse, d, by simp [preorder_singleton], fun s h => ?_⟩
  obtain ⟨i, mark, hmem⟩ := h.exists_literal
  simpa using List.all_eq_true.mp hstrings _ hmem

/-- Paths are taken from behind a longer key that ends in the word and from inside another literal, and
end at a quote that is escaped. -/
theorem misreads_key_literal_escape : Misreads "[\x7b 'base-path': 'x' \x7d]".toList ∧
    Misreads "[\x7b title: \"path: 'x'\" \x7d]".toList ∧ Misreads "[\x7b path: 'it\\'s' \x7d]".toList := by
  have hkey : parseModule "[\x7b 'base-path': 'x' \x7d]".toList = .ok [⟨"x", none, 1, []⟩] := by cbv
  have hliteral : parseModule "[\x7b title: \"path: 'x'\" \x7d]".toList = .ok [⟨"x", none, 1, []⟩] := by
    cbv
  have hescape : parseModule "[\x7b path: 'it\\'s' \x7d]".toList = .ok [⟨"it\\", none, 1, []⟩] := by cbv
  exact ⟨misreads_of_noKey hkey (by cbv) (by cbv), misreads_of_noKey hliteral (by cbv) (by cbv),
    misreads_of_noLiteral hescape (by cbv)⟩

end RouteInventory.Routing
