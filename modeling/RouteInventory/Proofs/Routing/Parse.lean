import RouteInventory.Proofs.Routing.Spans
import RouteInventory.Routing.Module

/-!
# Parsing printed routes

A printed routing module is parsed to what it declares. Each route is read from its own text, which is
its head and a tail of keys; below it, the list under its `children` key is entered and its data is
not.
-/

namespace RouteInventory.Routing

open Script Text

theorem inlineChildren_append (text : List Char) (outer : Span) (own : List Char) (a b : List Span) :
    inlineChildren text outer own (a ++ b) =
      inlineChildren text outer own a ++ inlineChildren text outer own b := by
  induction a with
  | nil => rw [List.nil_append, inlineChildren, List.nil_append]
  | cons s a ih =>
    obtain ⟨kind, start, stop, children⟩ := s
    rw [List.cons_append, inlineChildren, inlineChildren, ih, List.append_assoc]

/-- What a route object declares, its own text and its path being known. -/
theorem declarationsIn_of_path {text own path : List Char} {start stop : Nat} {children : List Span}
    (hown : Span.ownText text ⟨.brace, start, stop, children⟩ = own) (hpath : pathValue? own = some path) :
    declarationsIn text ⟨.brace, start, stop, children⟩ =
      [{ path := String.ofList path
         loadChildren := ((loadChildrenText? own).bind moduleReference?).map String.ofList
         line := lineOf text start
         children := inlineChildren text ⟨.brace, start, stop, children⟩ own children }] := by
  rw [declarationsIn]
  simp only [hown, if_true, hpath]

theorem lineOf_append (left right : List Char) :
    lineOf (left ++ right) left.length = left.count '\n' + 1 := by
  rw [lineOf, List.take_left]

/-- The own text of an outer span before a span inside it. -/
theorem ownBefore_append {outer : Span} {left : List Char} {offset : Nat}
    (h : offset = outer.start + 1 + left.length) (right : List Char) :
    ownBefore (left ++ right) outer offset = left := by
  have hlength : offset - (outer.start + 1) = left.length := by omega
  rw [ownBefore, hlength, List.take_left]

/-- A list is no route: the routes are inside it. -/
theorem declarationsIn_square (text : List Char) (start stop : Nat) (children : List Span) :
    declarationsIn text ⟨.square, start, stop, children⟩ = declarationsOf text children := by
  rw [declarationsIn]
  rfl

namespace Printed

theorem Block.inlineChildren_data (b : Block) (kind : Bracket) (text : List Char) {offset : Nat}
    {outer : Span} {before : List Char} (hoffset : offset = outer.start + 1 + before.length)
    (after : List Char) : inlineChildren text outer (before ++ (b.own "data" kind ++ after))
      (b.spans "data" kind offset) = [] := by
  cases b with
  | absent => rfl
  | present comma colon items closing =>
    have hbefore : ownBefore (before ++ ((Block.present comma colon items closing).own "data" kind ++
        after)) outer (offset + (keyText Gap.blanked "data" comma colon).length) =
        before ++ keyText Gap.blanked "data" comma colon := by
      rw [Block.own, List.append_assoc, ← List.append_assoc before]
      exact ownBefore_append (by rw [hoffset, List.length_append]; omega) _
    have hkey : endsInChildrenKey (before ++ keyText Gap.blanked "data" comma colon) = false := by
      have := endsInChildrenKey_data (before ++ ',' :: comma.blanked) colon.isBlank
      simpa [keyText] using this
    rw [Block.spans, inlineChildren, hbefore, hkey]
    simp [inlineChildren]

theorem Block.length_own (b : Block) (key : String) (kind : Bracket) :
    (b.own key kind).length = (b.render Gap.blanked key kind).length := by
  cases b with
  | absent => rfl
  | present comma colon items closing => simp [Block.own, Block.render]

theorem Route.ownText_span (head : Head) (kind : Bracket) (data children : Block) (closing : Gap)
    (left right : List Char) :
    Span.ownText (left ++ ((Route.mk head kind data children closing).render Gap.blanked ++ right))
      ((Route.mk head kind data children closing).span left.length) =
      head.render Gap.blanked ++ (data.own "data" kind ++
        (children.own "children" .square ++ closing.blanked)) := by
  have hdata := data.piece "data" (by decide) kind
  have hchildren := children.piece "children" (by decide) .square
  have hown := ownText_of_piece (Route.piece_interior head closing hdata hchildren) .brace left right
  have htext : (Route.mk head kind data children closing).render Gap.blanked ++ right =
      Bracket.brace.opening :: (head.render Gap.blanked ++ data.render Gap.blanked "data" kind ++
        children.render Gap.blanked "children" .square ++ closing.blanked ++
          Bracket.brace.closing :: right) := by
    simp [Route.render, Bracket.opening, Bracket.closing]
  rw [htext, Route.span, ← List.append_assoc, ← List.append_assoc]
  exact hown

theorem count_append_line {left before blanked text : List Char}
    (hline : left.count '\n' = before.count '\n') (h : StripsTo text blanked) :
    (left ++ blanked).count '\n' = (before ++ text).count '\n' := by
  rw [List.count_append, List.count_append, hline, h.count_line]

mutual

/-- A printed route is read as what it declares, wherever it stands. -/
theorem Route.declarationsIn_span : (r : Route) → r.Clear → (left right before : List Char) →
    left.count '\n' = before.count '\n' →
    declarationsIn (left ++ (r.render Gap.blanked ++ right)) (r.span left.length) =
      [r.declaration before]
  | .mk head kind data children closing, hclear, left, right, before, hline => by
    have hown := Route.ownText_span head kind data children closing left right
    have htail : IsTail (data.own "data" kind ++ (children.own "children" .square ++ closing.blanked)) :=
      .block skips_data kind data (.block skips_children .square children (.gap closing))
    have hload := head.moduleReference? hclear.1 htail
    -- the children stand behind the brace, the head and the data
    have hbefore : StripsTo ('\x7b' :: (head.render Gap.text ++ data.render Gap.text "data" kind))
        ('\x7b' :: (head.render Gap.blanked ++ data.render Gap.blanked "data" kind)) :=
      .append (.code (by decide)) (head.stripsTo.append (data.stripsTo "data" (by decide) kind))
    have hoffset : left.length + 1 + (head.render Gap.blanked ++ data.render Gap.blanked "data" kind).length =
        (left ++ '\x7b' :: (head.render Gap.blanked ++ data.render Gap.blanked "data" kind)).length := by
      simp only [List.length_append, List.length_cons]
      omega
    have hchildren := children.inlineChildren_children hclear.2
      (left ++ '\x7b' :: (head.render Gap.blanked ++ data.render Gap.blanked "data" kind))
      (closing.blanked ++ '\x7d' :: right) _ (count_append_line hline hbefore)
      ((Route.mk head kind data children closing).span left.length)
      (head.render Gap.blanked ++ data.own "data" kind) closing.blanked
      (by rw [← hoffset, List.length_append, List.length_append, data.length_own]; rfl)
    have htext : left ++ ((Route.mk head kind data children closing).render Gap.blanked ++ right) =
        left ++ '\x7b' :: (head.render Gap.blanked ++ data.render Gap.blanked "data" kind) ++
          (children.render Gap.blanked "children" .square ++ (closing.blanked ++ '\x7d' :: right)) := by
      simp [Route.render]
    have hname : (head.load.map (·.reference.name.toList)).map String.ofList =
        head.load.map (·.reference.name) := by
      simp [Function.comp_def]
    rw [List.append_assoc (head.render Gap.blanked) (data.own "data" kind), ← htext, ← hoffset] at hchildren
    rw [Route.span] at hown hchildren ⊢
    rw [declarationsIn_of_path hown (head.pathValue? _), hload, lineOf_append, inlineChildren_append,
      Block.inlineChildren_data data kind _ rfl, List.nil_append, hchildren, Route.declaration, hline,
      String.ofList_toList, hname]

/-- The list under a `children` key is read as what its items declare. -/
theorem Block.inlineChildren_children : (b : Block) → b.Clear → (left right before : List Char) →
    left.count '\n' = before.count '\n' → (outer : Span) → (ownLeft ownRight : List Char) →
    left.length = outer.start + 1 + ownLeft.length →
    inlineChildren (left ++ (b.render Gap.blanked "children" .square ++ right)) outer
      (ownLeft ++ (b.own "children" .square ++ ownRight)) (b.spans "children" .square left.length) =
      b.declarations before
  | .absent, _, _, _, _, _, _, _, _, _ => rfl
  | .present comma colon items closing, hclear, left, right, before, hline, outer, ownLeft,
      ownRight, hlength => by
    have hbefore : ownBefore (ownLeft ++ ((Block.present comma colon items closing).own "children"
        .square ++ ownRight)) outer (left.length + (keyText Gap.blanked "children" comma colon).length) =
        ownLeft ++ keyText Gap.blanked "children" comma colon := by
      rw [Block.own, List.append_assoc, ← List.append_assoc ownLeft]
      exact ownBefore_append (by rw [hlength, List.length_append]; omega) _
    have hkey : endsInChildrenKey (ownLeft ++ keyText Gap.blanked "children" comma colon) = true := by
      have := endsInChildrenKey_children (comma.keyMayFollow_comma ownLeft) colon.isBlank
      simpa [keyText] using this
    have hopening : StripsTo (keyText Gap.text "children" comma colon ++ ['['])
        (keyText Gap.blanked "children" comma colon ++ ['[']) :=
      (stripsTo_keyText (by decide) comma colon).append (.code (by decide))
    have hitems := items.declarationsOf_spans hclear _ (closing.blanked ++ ']' :: right) _
      (count_append_line hline hopening)
    have htext : left ++ ((Block.present comma colon items closing).render Gap.blanked "children" .square ++
        right) = left ++ (keyText Gap.blanked "children" comma colon ++ ['[']) ++
          (items.render Gap.blanked ++ (closing.blanked ++ ']' :: right)) := by
      simp [Block.render, Bracket.opening, Bracket.closing]
    have hlength' : left.length + (keyText Gap.blanked "children" comma colon).length + 1 =
        (left ++ (keyText Gap.blanked "children" comma colon ++ ['['])).length := by
      rw [List.length_append, List.length_append, List.length_singleton, Nat.add_assoc]
    rw [Block.spans, inlineChildren, hbefore, hkey, if_pos ⟨rfl, rfl⟩, inlineChildren, List.append_nil,
      Block.declarations, htext, hlength', hitems, List.append_assoc]

/-- Printed items are read as what they declare. -/
theorem Items.declarationsOf_spans : (items : Items) → items.Clear →
    (left right before : List Char) → left.count '\n' = before.count '\n' →
    declarationsOf (left ++ (items.render Gap.blanked ++ right)) (items.spans left.length) =
      items.declarations before
  | .nil, _, _, _, _, _ => by
    rw [Items.spans, declarationsOf, Items.declarations]
  | .cons g route rest, hclear, left, right, before, hline => by
    have hgap := count_append_line hline g.stripsTo
    have hroute := route.declarationsIn_span hclear.1 (left ++ g.blanked)
      (rest.comma ++ (rest.render Gap.blanked ++ right)) (before ++ g.text) hgap
    have hbefore : StripsTo (g.text ++ route.render Gap.text ++ rest.comma)
        (g.blanked ++ route.render Gap.blanked ++ rest.comma) :=
      (g.stripsTo.append route.stripsTo).append rest.stripsTo_comma
    have hrest := rest.declarationsOf_spans hclear.2
      (left ++ (g.blanked ++ route.render Gap.blanked ++ rest.comma)) right _
      (count_append_line hline hbefore)
    have htext : (Items.cons g route rest).render Gap.blanked ++ right = g.blanked ++
        (route.render Gap.blanked ++ (rest.comma ++ (rest.render Gap.blanked ++ right))) := by
      simp [Items.render]
    rw [List.length_append, List.append_assoc left] at hroute
    rw [List.length_append, List.append_assoc left, List.append_assoc _ rest.comma,
      List.append_assoc g.blanked, ← List.append_assoc before, ← List.append_assoc before] at hrest
    rw [Items.spans, declarationsOf, Items.declarations, htext, hroute, hrest, List.singleton_append]

end

namespace Module

theorem render_eq (gap : Gap → List Char) (m : Module) : m.render gap = declarator ++
    (Bracket.square.opening :: (m.items.render gap ++ gap m.closing ++ [Bracket.square.closing])) ++
      [';'] := by
  simp [render, opening, Bracket.opening, Bracket.closing]

theorem stripsTo (m : Module) : StripsTo m.text (m.render Gap.blanked) := by
  have hdeclarator : ∀ c ∈ declarator, IsCode c := by decide
  rw [text, render_eq, render_eq]
  exact ((StripsTo.word hdeclarator).append (.append (.code (by decide)) ((m.items.stripsTo.append
    m.closing.stripsTo).append (.code (by decide))))).append (.code (by decide))

theorem spans_render (m : Module) : ∃ stop, spans (m.render Gap.blanked) =
    .ok [⟨.square, declarator.length, stop, m.items.spans opening.length⟩] := by
  have hdeclarator : ∀ c ∈ declarator, IsCode c ∧ Mark.ofChar? c = none := by decide
  obtain ⟨own, hitems⟩ := m.items.piece
  have hlist := (hitems.append_plain_right m.closing.piece).enclose .square
  have hpiece := ((Piece.word hdeclarator).append_plain hlist).append_plain_right
    (.code (c := ';') (by decide) (by decide))
  rw [render_eq]
  exact ⟨_, spans_of_piece hpiece⟩

/-- A printed module is parsed to what it declares. -/
theorem parse_text (m : Module) (h : m.items.Clear) : parseModule m.text = .ok m.declarations := by
  obtain ⟨stop, hspans⟩ := m.spans_render
  have htext : m.render Gap.blanked =
      opening ++ (m.items.render Gap.blanked ++ (m.closing.blanked ++ [']', ';'])) := by
    simp [render]
  have hitems := m.items.declarationsOf_spans h opening (m.closing.blanked ++ [']', ';']) opening rfl
  rw [parseModule, stripComments_of_stripsTo m.stripsTo, hspans]
  show Except.ok (declarationsOf _ [_]) = _
  rw [declarationsOf, declarationsOf, declarationsIn_square, List.append_nil, htext, hitems, declarations]

end Module

/-! ### Two modules -/

def Gap.space : Gap := ⟨[.blank ' ' (by decide)]⟩

/-- A comment with a quote and a bracket in it. -/
def Gap.remark : Gap := ⟨[.blank ' ' (by decide), .lineComment "don't [".toList (by decide)]⟩

def shopChild : Items :=
  .cons .space (.mk ⟨.space, .space, "a[//b", by decide, none⟩ .brace .absent .absent .space) .nil

/-- The route `shopChild` stands both in the data and among the children. -/
def shopModule : Module where
  items :=
    .cons .remark (.mk ⟨.space, .space, "shop", by decide,
        some ⟨.space, .space, .call "./shop" (by decide) .remark .space⟩⟩ .brace
      (.present .space .space shopChild .space) (.present .remark .space shopChild .space) .space) .nil
  closing := .space

theorem parse_shopModule : parseModule shopModule.text = .ok
    [{ path := "shop", loadChildren := some "./shop", line := 2, children :=
      [{ path := "a[//b", loadChildren := none, line := 4, children := [] }] }] :=
  shopModule.parse_text ⟨⟨by decide, ⟨by decide, trivial⟩, trivial⟩, trivial⟩

/-- Its path holds a key, which is taken for the route's own. -/
def keyModule : Module where
  items :=
    .cons .space (.mk ⟨.space, .space, "loadChildren:", by decide,
      some ⟨.space, .space, .call "./m" (by decide) ⟨[]⟩ ⟨[]⟩⟩⟩ .brace .absent .absent .space) .nil
  closing := .space

/-- The modules that the routes of a module name. -/
def references (text : String) : Option (List (Option String)) :=
  (parseModule text.toList).toOption.map (·.map Declaration.loadChildren)

/-- A key in a path, an empty module name, other quotes in it and a number sign in it each break the
reading of a module. -/
theorem parse_keyModule_ne : parseModule keyModule.text ≠ .ok keyModule.declarations ∧
    references "const routes = [ \x7b path: 'a', loadChildren: () => import('') \x7d ];" = some [none] ∧
    references "const routes = [ \x7b path: 'a', loadChildren: () => import('m\"') \x7d ];" = some [none] ∧
    references "const routes = [ \x7b path: 'a', loadChildren: 'm\"#S' \x7d ];" = some [none] ∧
    references "const routes = [ \x7b path: 'a', loadChildren: 'm#n#S' \x7d ];" = some [some "m"] := by
  refine ⟨fun h => ?_, by decide +kernel, by decide +kernel, by decide +kernel, by decide +kernel⟩
  have hread : (parseModule keyModule.text).toOption.map (·.map Declaration.loadChildren) =
      some [some ", loadChildren: () => import("] := by decide +kernel
  have hdeclared : (Except.ok (ε := BracketFault) keyModule.declarations).toOption.map
      (·.map Declaration.loadChildren) = some [some "./m"] := rfl
  rw [h, hdeclared] at hread
  simp at hread

end Printed

end RouteInventory.Routing
