import RouteInventory.Proofs.Routing.Value

/-!
# The value a module reference is read from

A reference to a module is taken from the value behind the first `loadChildren` key of its object, up to the
comma that ends it: no property behind that lends its own (`IsOwnReference`). The key is sought without regard
to literals, and the end in the own text of the object, so this takes a key whose colon is code and slashes
that are read alike in both texts (`ValueIsRead`).
-/

namespace RouteInventory.Text

/-- A search finds what the pattern finds at the first place where it finds something. -/
theorem firstMatch_eq_some_iff {α : Type} {pattern : Pattern α} {text : List Char} {m : α × List Char} :
    firstMatch pattern none text = some m ↔ ∃ offset,
      pattern (text.take offset).getLast? (text.drop offset) = some m ∧
        ∀ earlier < offset, pattern (text.take earlier).getLast? (text.drop earlier) = none := by
  constructor
  · intro h
    obtain ⟨left, right, rfl, hmatch, hfirst⟩ := exists_of_firstMatch h
    simp only [Option.or_none] at hmatch hfirst
    refine ⟨left.length, by rwa [List.take_left, List.drop_left], fun earlier hlt => ?_⟩
    have hnone := hfirst (left.take earlier) _ (left.drop (earlier + 1)) (by
      rw [← List.drop_eq_getElem_cons hlt, List.take_append_drop])
    rwa [← List.drop_eq_getElem_cons hlt, ← List.drop_append_of_le_length hlt.le,
      ← List.take_append_of_le_length hlt.le] at hnone
  · rintro ⟨offset, hmatch, hfirst⟩
    rw [← List.take_append_drop offset text, firstMatch_append, Option.or_none,
      Routing.firstMatch_of_eq_some hmatch]
    intro u c v hu
    have hlt : u.length < offset := by
      have := congrArg List.length hu
      simp only [List.length_take, List.length_append, List.length_cons] at this
      omega
    have htext : text = u ++ (c :: v ++ text.drop offset) := by
      rw [← List.append_assoc, ← hu, List.take_append_drop]
    have hnone := hfirst u.length hlt
    rw [htext, List.take_left, List.drop_left] at hnone
    rwa [Option.or_none]

end RouteInventory.Text

namespace RouteInventory.Routing

open Script Script.Span Text

variable {text own value name : List Char} {roots : List Span} {s : Span} {colon stop : Nat}

/-! ### The key -/

/-- Whether a key begins at an offset of a text and its colon stands at another one. -/
def HasColon (name : String) (own : List Char) (offset colon : Nat) : Prop :=
  colon < own.length ∧ keyMayFollow (own.take offset).getLast? = true ∧
    KeyAt name (own.drop offset) (own.drop (colon + 1))

/-- Whether the colon of the first key of a name stands at an offset of a text. -/
def IsFirstColon (name : String) (own : List Char) (colon : Nat) : Prop :=
  ∃ offset, HasColon name own offset colon ∧
    ∀ earlier < offset, ∀ other, ¬ HasColon name own earlier other

theorem keyPattern_eq_some_iff {name : String} {before : Option Char} :
    keyPattern name before text = some ((), value) ↔ keyMayFollow before = true ∧ KeyAt name text value := by
  rw [keyPattern, Option.map_eq_some_iff, ← afterKey?_eq_some_iff]
  simp

theorem KeyAt.exists_colon {name : String} {offset : Nat} (h : KeyAt name (own.drop offset) value) :
    ∃ colon, own[colon]? = some ':' ∧ value = own.drop (colon + 1) := by
  obtain ⟨mark, blanks, -, -, hkey⟩ := h
  have hsplit : own = (own.take offset ++ (name.toList ++ (mark ++ blanks))) ++ ':' :: value := by
    conv_lhs => rw [← List.take_append_drop offset own, hkey]
    simp
  generalize own.take offset ++ (name.toList ++ (mark ++ blanks)) = front at hsplit
  subst hsplit
  exact ⟨front.length, by simp, by simp⟩

theorem colon_inj {other : Nat} (hlt : colon < own.length) (hother : other < own.length)
    (heq : own.drop (colon + 1) = own.drop (other + 1)) : colon = other := by
  have hlength := congrArg List.length heq
  rw [List.length_drop, List.length_drop] at hlength
  omega

theorem HasColon.getElem? {name : String} {offset : Nat} (h : HasColon name own offset colon) :
    own[colon]? = some ':' := by
  obtain ⟨hlt, -, hkey⟩ := h
  obtain ⟨colon', hcolon, heq⟩ := hkey.exists_colon
  rwa [colon_inj hlt (List.getElem?_eq_some_iff.mp hcolon).1 heq]

/-- The search for the value of a key finds what stands behind the first colon of one. -/
theorem loadChildrenValue?_eq_some_iff : loadChildrenValue? own = some value ↔
    ∃ colon, IsFirstColon "loadChildren" own colon ∧ value = own.drop (colon + 1) := by
  have hsearch : loadChildrenValue? own = some value ↔
      firstMatch (keyPattern "loadChildren") none own = some ((), value) := by
    rw [loadChildrenValue?_eq, Option.map_eq_some_iff]
    exact ⟨fun ⟨⟨⟨⟩, found⟩, hfound, heq⟩ => heq ▸ hfound, fun hfound => ⟨_, hfound, rfl⟩⟩
  rw [hsearch, firstMatch_eq_some_iff]
  constructor
  · rintro ⟨offset, hmatch, hfirst⟩
    obtain ⟨hbefore, hkey⟩ := keyPattern_eq_some_iff.mp hmatch
    obtain ⟨colon, hcolon, rfl⟩ := hkey.exists_colon
    refine ⟨colon, ⟨offset, ⟨(List.getElem?_eq_some_iff.mp hcolon).1, hbefore, hkey⟩, ?_⟩, rfl⟩
    intro earlier hlt other hother
    have hfound := keyPattern_eq_some_iff.mpr hother.2
    rw [hfirst earlier hlt] at hfound
    cases hfound
  · rintro ⟨colon, ⟨offset, hhas, hfirst⟩, rfl⟩
    refine ⟨offset, keyPattern_eq_some_iff.mpr hhas.2, fun earlier hlt => ?_⟩
    rw [Option.eq_none_iff_forall_ne_some]
    rintro ⟨⟨⟩, found⟩ hfound
    obtain ⟨hbefore, hkey⟩ := keyPattern_eq_some_iff.mp hfound
    obtain ⟨other, hother, rfl⟩ := hkey.exists_colon
    exact hfirst earlier hlt other ⟨(List.getElem?_eq_some_iff.mp hother).1, hbefore, hkey⟩

theorem isFirstColon_iff : IsFirstColon "loadChildren" own colon ↔
    colon < own.length ∧ loadChildrenValue? own = some (own.drop (colon + 1)) := by
  rw [loadChildrenValue?_eq_some_iff]
  constructor
  · intro h
    obtain ⟨_, ⟨hlt, -, -⟩, -⟩ := id h
    exact ⟨hlt, colon, h, rfl⟩
  · rintro ⟨hlt, other, hother, heq⟩
    obtain ⟨_, ⟨hlt', -, -⟩, -⟩ := id hother
    rwa [colon_inj hlt hlt' heq]

instance (own : List Char) (colon : Nat) : Decidable (IsFirstColon "loadChildren" own colon) :=
  decidable_of_iff _ isFirstColon_iff.symm

theorem IsFirstColon.unique {other : Nat} (h : IsFirstColon "loadChildren" own colon)
    (hother : IsFirstColon "loadChildren" own other) : other = colon := by
  obtain ⟨hlt, hvalue⟩ := isFirstColon_iff.mp h
  obtain ⟨hlt', hvalue'⟩ := isFirstColon_iff.mp hother
  exact colon_inj hlt' hlt (Option.some.inj (hvalue'.symm.trans hvalue))

/-- What is read as the value of the key begins behind its colon. -/
theorem exists_isFirstColon (h : loadChildrenText? own = some value) : ∃ colon,
    IsFirstColon "loadChildren" own colon ∧ value = valueText 0 (segmentsAt own (colon + 1)) := by
  obtain ⟨found, hfound, hvalue⟩ := Option.map_eq_some_iff.mp h
  obtain ⟨colon, hcolon, rfl⟩ := loadChildrenValue?_eq_some_iff.mp hfound
  have hlength : own.length - (own.drop (colon + 1)).length = colon + 1 := by
    have := (isFirstColon_iff.mp hcolon).1
    rw [List.length_drop]
    omega
  rw [hlength] at hvalue
  exact ⟨colon, hcolon, hvalue.symm⟩

/-! ### The reference -/

/-- Whether a value names a module: in a literal at its beginning, up to a hash, or in an import call with a
literal alone between its parentheses. -/
inductive NamesModule : (value name : List Char) → Prop
  | literal {blanks body : List Char} {mark : Char} (hblanks : ∀ c ∈ blanks, isBlank c = true)
      (hmark : mark = '\'' ∨ mark = '"') (hbody : ∀ c ∈ body, c ≠ '\'' ∧ c ≠ '"') (hne : body ≠ [])
      (rest : List Char) : NamesModule (blanks ++ mark :: (body ++ mark :: rest)) (body.takeWhile (· != '#'))
  | call {before blanks name blanks' : List Char} {mark : Char} (hbefore : before.getLast?.any isWord = false)
      (hblanks : ∀ c ∈ blanks, isBlank c = true) (hmark : isQuote mark = true)
      (hname : ∀ c ∈ name, isQuote c = false) (hne : name ≠ []) (hblanks' : ∀ c ∈ blanks', isBlank c = true)
      (rest : List Char) : NamesModule (before ++ ("import(".toList ++
        (blanks ++ mark :: (name ++ mark :: (blanks' ++ ')' :: rest))))) name

theorem barred_of_bodyUpTo {mark : Char} {barred : Char → Bool} {text body rest : List Char}
    (h : bodyUpTo mark barred text = some (body, rest)) : ∀ c ∈ body, barred c = false := by
  fun_induction bodyUpTo mark barred text generalizing body with
  | case1 => cases h
  | case2 found =>
    obtain ⟨rfl, -⟩ := Prod.mk.inj (Option.some.inj h)
    exact fun c hc => absurd hc List.not_mem_nil
  | case3 => cases h
  | case4 c found hc hbarred ih =>
    obtain ⟨⟨body', rest'⟩, hbody, heq⟩ := Option.map_eq_some_iff.mp h
    obtain ⟨rfl, rfl⟩ := Prod.mk.inj heq
    exact List.forall_mem_cons.mpr ⟨Bool.eq_false_iff.mpr hbarred, ih hbody⟩

theorem quoted?_eq_some {isMark barred : Char → Bool} {text body rest : List Char}
    (h : quoted? isMark barred text = some (body, rest)) : ∃ mark, isMark mark = true ∧
      text = mark :: (body ++ mark :: rest) ∧ ∀ c ∈ body, barred c = false := by
  cases text with
  | nil => cases h
  | cons mark text =>
    rw [quoted?] at h
    split at h
    · next hmark => exact ⟨mark, hmark, by rw [(bodyUpTo_eq_some h).1], barred_of_bodyUpTo h⟩
    · cases h

theorem namesModule_of_stringReference? (h : stringReference? value = some name) : NamesModule value name := by
  obtain ⟨⟨body, rest⟩, hquoted, hname⟩ := Option.bind_eq_some_iff.mp h
  dsimp only at hname
  split at hname
  · cases hname
  · next hne =>
    obtain rfl := Option.some.inj hname
    obtain ⟨blanks, hblanks, hvalue⟩ := exists_skipBlanks value
    obtain ⟨mark, hmark, hskip, hbody⟩ := quoted?_eq_some hquoted
    rw [hvalue, hskip]
    refine .literal hblanks (by simpa using hmark) (fun c hc => ?_) (by simpa using hne) rest
    simpa using hbody c hc

theorem importPattern_eq_some {before : Option Char} {rest : List Char}
    (h : importPattern before text = some (name, rest)) : before.any isWord = false ∧
      ∃ blanks mark blanks', (∀ c ∈ blanks, isBlank c = true) ∧ isQuote mark = true ∧
        (∀ c ∈ name, isQuote c = false) ∧ name ≠ [] ∧ (∀ c ∈ blanks', isBlank c = true) ∧
        text = "import(".toList ++ (blanks ++ mark :: (name ++ mark :: (blanks' ++ ')' :: rest))) := by
  rw [importPattern] at h
  split at h
  · cases h
  · next hbefore =>
    obtain ⟨call, hcall, h⟩ := Option.bind_eq_some_iff.mp h
    obtain ⟨⟨body, behind⟩, hquoted, h⟩ := Option.bind_eq_some_iff.mp h
    dsimp only at h
    split at h
    · cases h
    · next hne =>
      obtain ⟨after, hafter, h⟩ := Option.bind_eq_some_iff.mp h
      obtain ⟨rfl, rfl⟩ := Prod.mk.inj (Option.some.inj h)
      obtain ⟨blanks, hblanks, hskip⟩ := exists_skipBlanks call
      obtain ⟨blanks', hblanks', hskip'⟩ := exists_skipBlanks behind
      obtain ⟨mark, hmark, hliteral, hbody⟩ := quoted?_eq_some hquoted
      rw [after?_eq_some_iff] at hcall hafter
      refine ⟨Bool.eq_false_iff.mpr hbefore, blanks, mark, blanks', hblanks, hmark, hbody, by simpa using hne,
        hblanks', ?_⟩
      rw [hcall, hskip, hliteral, hskip', hafter]
      simp

theorem namesModule_of_importReference? (h : importReference? value = some name) : NamesModule value name := by
  rw [importReference?_eq] at h
  obtain ⟨⟨found, rest⟩, hmatch, rfl⟩ := Option.map_eq_some_iff.mp h
  obtain ⟨offset, hmatch, -⟩ := firstMatch_eq_some_iff.mp hmatch
  obtain ⟨hbefore, blanks, mark, blanks', hblanks, hmark, hname, hne, hblanks', hcall⟩ :=
    importPattern_eq_some hmatch
  rw [← List.take_append_drop offset value, hcall]
  exact .call hbefore hblanks hmark hname hne hblanks' rest

theorem namesModule_of_moduleReference? (h : moduleReference? value = some name) : NamesModule value name := by
  rw [moduleReference?, Option.orElse_eq_or, Option.or_eq_some_iff] at h
  rcases h with h | ⟨-, h⟩
  · exact namesModule_of_stringReference? h
  · exact namesModule_of_importReference? h

theorem NamesModule.two_le_countP (h : NamesModule value name) : 2 ≤ value.countP isQuote := by
  have hquotes (before body behind : List Char) {mark : Char} (hmark : isQuote mark = true) :
      2 ≤ (before ++ mark :: (body ++ mark :: behind)).countP isQuote := by
    simp only [List.countP_append, List.countP_cons_of_pos hmark]
    omega
  cases h with
  | literal _ hmark _ _ rest => exact hquotes _ _ rest (by rcases hmark with rfl | rfl <;> decide)
  | @call before blanks _ blanks' _ _ _ hmark _ _ _ rest =>
    simpa using hquotes (before ++ ("import(".toList ++ blanks)) name (blanks' ++ ')' :: rest) hmark

/-- The own text of a span between two offsets. -/
def ownBetween (text : List Char) (s : Span) (start stop : Nat) : List Char :=
  ((s.ownText text).drop (s.place start)).take (stop - start)

/-- Whether a module is named in the value behind the first `loadChildren` key of a span, and that value is what
is read: up to the offset at which the value ends, and no further. -/
def IsOwnReference (text : List Char) (s : Span) (name : List Char) : Prop :=
  ∃ colon stop, (∀ other, IsFirstColon "loadChildren" (s.ownText text) other ↔ other = colon) ∧
    (∀ other, EndsValue text s 0 (s.start + 2 + colon) other ↔ other = stop) ∧
    loadChildrenText? (s.ownText text) = some (ownBetween text s (s.start + 2 + colon) stop) ∧
    NamesModule (ownBetween text s (s.start + 2 + colon) stop) name

/-- Whether the colon of the first `loadChildren` key of a span is code, and the slashes of its value right behind
spans inside are read as in the own text. -/
def ValueIsRead (text : List Char) (s : Span) : Prop :=
  ∀ colon, IsFirstColon "loadChildren" (s.ownText text) colon → (s.start + 1 + colon, ':') ∈ codeOf text ∧
    ∀ stop, EndsValue text s 0 (s.start + 2 + colon) stop → SlashesKept text s (s.start + 2 + colon) stop

theorem isOwnReference_of_valueIsRead (hspans : spans text = .ok roots) (hs : s ∈ allOf roots)
    (hread : ValueIsRead text s)
    (hname : (loadChildrenText? (s.ownText text)).bind moduleReference? = some name) :
    IsOwnReference text s name := by
  obtain ⟨value, htext, hname⟩ := Option.bind_eq_some_iff.mp hname
  obtain ⟨colon, hcolon, hvalue⟩ := exists_isFirstColon htext
  obtain ⟨hcode, hkept⟩ := hread colon hcolon
  obtain ⟨_, hhas, -⟩ := id hcolon
  have howns := owns_of_getElem?_ownText hhas.getElem? (by decide)
  have hreads := reads_of_begins hspans hs (begins_of_mem_codeOf hcode).2 howns.parts_succ
  have hplace : s.place (s.start + 2 + colon) = colon + 1 := by
    rw [Span.place]
    omega
  rw [show s.start + 1 + colon + 1 = s.start + 2 + colon by omega] at hreads
  obtain ⟨stop, hends, hbetween⟩ := exists_endsValue hspans hs hreads 0
  have heq : value = ownBetween text s (s.start + 2 + colon) stop := by
    rw [hvalue, ← hplace, hbetween (hkept stop hends), ownBetween]
  refine ⟨colon, stop, fun other => ⟨hcolon.unique, fun heq => heq ▸ hcolon⟩,
    fun other => ⟨hends.unique, fun heq => heq ▸ hends⟩, heq ▸ htext, ?_⟩
  exact heq ▸ namesModule_of_moduleReference? hname

/-! ### Whole modules -/

/-- The modules that the declarations of a module are to load are named in the `loadChildren` values of their
objects, wherever the keys and slashes there are read as the reading of values takes them. -/
theorem parseModule_ownReference {ds : List Declaration} (h : parseModule text = .ok ds) :
    ∃ (roots routes : List Span), spans (stripComments text) = .ok roots ∧ routes.Sublist (allOf roots) ∧
      preorder ds = routes.map (declaredBy (stripComments text)) ∧
      ∀ s ∈ routes, isRoute (stripComments text) s = true ∧ (ValueIsRead (stripComments text) s →
        ∀ name ∈ (declaredBy (stripComments text) s).loadChildren,
          IsOwnReference (stripComments text) s name.toList) := by
  obtain ⟨roots, hroots, rfl⟩ := parseModule_eq_ok h
  refine ⟨roots, _, hroots, (routesOf_sublist roots).1, (preorder_declarationsOf roots).1, ?_⟩
  intro s hs
  have hlisted := (mem_routesOf (tiled_spans hroots)).mp hs
  refine ⟨hlisted.route, fun hread name hname => ?_⟩
  obtain ⟨found, hfound, rfl⟩ := Option.map_eq_some_iff.mp hname
  rw [String.toList_ofList]
  exact isOwnReference_of_valueIsRead hroots hlisted.mem hread hfound

theorem parseModule_list {start stop : Nat} (hstrip : stripComments text = text)
    (hspans : spans text = .ok [⟨.square, start, stop, [s]⟩]) (hroute : isRoute text s = true) :
    parseModule text = .ok [declaredBy text s] := by
  rw [parseModule, hstrip, hspans, Except.map, declarationsOf_eq, topsOf_cons, topsOf_cons, if_pos hroute]
  rfl

/-- A comma in a regular expression, one between parentheses, and a division behind brackets. -/
def dividingModule : List Char :=
  "[\x7b path: 'a', loadChildren: /[,)]/.test(w[0] / 2) ? import('./m') : f(',', 1), x: import('./n') \x7d]".toList

def dividingRoute : Span := ⟨.brace, 1, 96, [⟨.square, 41, 43, []⟩]⟩

theorem valueIsRead_dividingModule : ValueIsRead dividingModule dividingRoute := by
  have hcolon : IsFirstColon "loadChildren" (dividingRoute.ownText dividingModule) 24 := by decide +kernel
  have hslashes : ∀ i < dividingRoute.stop, dividingModule[i]? = some '/' →
      FollowsBracket (dividingModule.take i).reverse → opensRegex (dividingModule.take i).reverse =
        opensRegex ((dividingRoute.ownText dividingModule).take (dividingRoute.place i)).reverse := by
    decide +kernel
  intro colon hother
  obtain rfl := hcolon.unique hother
  refine ⟨by decide +kernel, fun stop hends i hi _ _ _ => hslashes i (hi.trans_le hends.le_stop)⟩

theorem parseModule_dividingModule : parseModule dividingModule = .ok [declaredBy dividingModule dividingRoute] ∧
    (declaredBy dividingModule dividingRoute).loadChildren = some "./m" ∧
      IsOwnReference dividingModule dividingRoute "./m".toList := by
  have hstrip : stripComments dividingModule = dividingModule := by decide +kernel
  have hspans : spans dividingModule = .ok [⟨.square, 0, 97, [dividingRoute]⟩] :=
    spans_of_bracketsOf (by decide +kernel)
  have hparse := parseModule_list hstrip hspans (by decide +kernel)
  have hname : (declaredBy dividingModule dividingRoute).loadChildren = some "./m" := by decide +kernel
  obtain ⟨roots, routes, hroots, hsub, hpre, hroutes⟩ := parseModule_ownReference hparse
  rw [hstrip] at hroots hpre hroutes
  obtain rfl := Except.ok.inj (hspans.symm.trans hroots)
  rw [preorder_singleton] at hpre
  cases routes with
  | nil => cases hpre
  | cons s rest =>
    obtain ⟨hroute, hown⟩ := hroutes s List.mem_cons_self
    have hmem : s ∈ [⟨.square, 0, 97, [dividingRoute]⟩, dividingRoute, ⟨.square, 41, 43, []⟩] :=
      hsub.subset List.mem_cons_self
    obtain rfl : s = dividingRoute := by
      simp only [List.mem_cons, List.not_mem_nil, or_false] at hmem
      rcases hmem with rfl | rfl | rfl
      · exact absurd (kind_of_isRoute hroute) (by decide)
      · rfl
      · exact absurd (kind_of_isRoute hroute) (by decide)
    exact ⟨hparse, hname, hown valueIsRead_dividingModule _ hname⟩

/-! ### References from other properties -/

/-- Whether a declaration of a module has a reference that the value behind the first `loadChildren` key of its
object does not name. -/
def Borrows (text : List Char) : Prop :=
  ∃ ds roots, parseModule text = .ok ds ∧ spans (stripComments text) = .ok roots ∧ ∃ s ∈ allOf roots,
    isRoute (stripComments text) s = true ∧ declaredBy (stripComments text) s ∈ preorder ds ∧
      ∃ name ∈ (declaredBy (stripComments text) s).loadChildren, ∃ colon stop,
        IsFirstColon "loadChildren" (s.ownText (stripComments text)) colon ∧
        EndsValue (stripComments text) s 0 (s.start + 2 + colon) stop ∧
        ¬ NamesModule (ownBetween (stripComments text) s (s.start + 2 + colon) stop) name.toList

theorem borrows_of_list (s : Span) (start stop colon comma : Nat) (name : String)
    (hstrip : stripComments text = text)
    (hbrackets : bracketsOf [⟨.square, start, stop, [s]⟩] = marks text) (hroute : isRoute text s = true)
    (hname : (declaredBy text s).loadChildren = some name)
    (hcolon : IsFirstColon "loadChildren" (s.ownText text) colon)
    (hends : EndsValue text s 0 (s.start + 2 + colon) comma)
    (hquotes : (ownBetween text s (s.start + 2 + colon) comma).countP isQuote < 2) : Borrows text := by
  have hspans := spans_of_bracketsOf hbrackets
  refine ⟨_, _, parseModule_list hstrip hspans hroute, hstrip.symm ▸ hspans, s, ?_, ?_⟩
  · exact mem_allOf_trans (mem_allOf_of_mem List.mem_cons_self) (mem_allOf_of_mem List.mem_cons_self)
  · rw [hstrip, preorder_singleton]
    exact ⟨hroute, List.mem_cons_self, name, hname, colon, comma, hcolon, hends,
      fun h => absurd h.two_le_countP (by omega)⟩

theorem borrows_division_literal :
    Borrows "[\x7b path: 'a', loadChildren: [4] / 2, x: import('./m') \x7d]".toList ∧
      Borrows "[\x7b path: 'a', t: 'loadChildren: b', x: import('./m') \x7d]".toList := by
  constructor
  · apply borrows_of_list ⟨.brace, 1, 54, [⟨.square, 28, 30, []⟩]⟩ 0 55 24 35 "./m" <;> decide +kernel
  · apply borrows_of_list ⟨.brace, 1, 53, []⟩ 0 54 28 34 "./m" <;> decide +kernel

end RouteInventory.Routing
