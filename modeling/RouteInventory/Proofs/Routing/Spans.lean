import RouteInventory.Proofs.Routing.OwnText
import RouteInventory.Proofs.Script.Span

/-!
# The spans of printed routes

A printed text with its comments blanked is the same text printed with blanked gaps. In that text every
route is one brace span, and its data and children are one span each.
-/

namespace RouteInventory.Routing.Printed

open Script Text

/-! ### Comments -/

theorem Filler.stripsTo (f : Filler) : StripsTo f.text f.blanked := by
  cases f with
  | blank c h => exact .code h.isCode.1
  | lineComment body h => exact .lineComment h
  | blockComment body h => exact .blockComment h

theorem Gap.stripsTo (g : Gap) : StripsTo g.text g.blanked := by
  rw [Gap.text, Gap.blanked]
  induction g.fillers with
  | nil => exact .nil
  | cons f fillers ih => exact f.stripsTo.append ih

theorem Reference.stripsTo (r : Reference) : StripsTo (r.render Gap.text) (r.render Gap.blanked) := by
  cases r with
  | call name h before after =>
    have hcode : ∀ c ∈ callOpening, IsCode c := by decide
    exact ((((StripsTo.word hcode).append before.stripsTo).append (.literal h.1)).append
      after.stripsTo).append (.code (by decide))
  | legacy name symbol h hs => exact .literal (h.1.isLiteral hs)

/-- The comma, the key and the colon of a property, each before a gap. -/
theorem stripsTo_keyText {key : String} (h : ∀ c ∈ key.toList, IsCode c) (comma colon : Gap) :
    StripsTo (keyText Gap.text key comma colon) (keyText Gap.blanked key comma colon) :=
  .append (.code (by decide)) ((comma.stripsTo.append (.word h)).append
    (.append (.code (by decide)) colon.stripsTo))

theorem Head.stripsTo (h : Head) : StripsTo (h.render Gap.text) (h.render Gap.blanked) := by
  have hpath : ∀ c ∈ "path:".toList, IsCode c := by decide
  have hload : ∀ c ∈ "loadChildren".toList, IsCode c := by decide
  have hrest : StripsTo (h.rest Gap.text) (h.rest Gap.blanked) := by
    rw [rest, rest]
    cases h.load with
    | none => exact .nil
    | some l => exact (stripsTo_keyText hload l.comma l.colon).append l.reference.stripsTo
  exact ((((h.opening.stripsTo.append (.word hpath)).append h.colon.stripsTo).append
    (.literal h.isLiteral)).append hrest)

theorem Items.stripsTo_comma (items : Items) : StripsTo items.comma items.comma := by
  cases items with
  | nil => exact .nil
  | cons gap route rest => exact .code (by decide)

mutual

theorem Route.stripsTo : (r : Route) → StripsTo (r.render Gap.text) (r.render Gap.blanked)
  | .mk head kind data children closing => by
    have hdata := data.stripsTo "data" (by decide) kind
    have hchildren := children.stripsTo "children" (by decide) .square
    rw [Route.render, Route.render]
    exact .append (.code (by decide)) ((((head.stripsTo.append hdata).append hchildren).append
      closing.stripsTo).append (.code (by decide)))

theorem Block.stripsTo (key : String) (hkey : ∀ c ∈ key.toList, IsCode c) (kind : Bracket) :
    (b : Block) → StripsTo (b.render Gap.text key kind) (b.render Gap.blanked key kind)
  | .absent => by
    rw [Block.render, Block.render]
    exact .nil
  | .present comma colon items closing => by
    rw [Block.render, Block.render]
    exact (stripsTo_keyText hkey comma colon).append (.append (.code (Piece.isCode_bracket kind).1.1)
      ((items.stripsTo.append closing.stripsTo).append (.code (Piece.isCode_bracket kind).2.1)))

theorem Items.stripsTo : (items : Items) →
    StripsTo (items.render Gap.text) (items.render Gap.blanked)
  | .nil => by
    rw [Items.render, Items.render]
    exact .nil
  | .cons g route rest => by
    rw [Items.render, Items.render]
    exact ((g.stripsTo.append route.stripsTo).append rest.stripsTo_comma).append rest.stripsTo

end

/-! ### Spans -/

theorem Gap.piece (g : Gap) : Piece g.blanked (fun _ => []) g.blanked :=
  .word fun c hc => (g.isSpace c hc).isCode

theorem Reference.piece (r : Reference) :
    Piece (r.render Gap.blanked) (fun _ => []) (r.render Gap.blanked) := by
  cases r with
  | call name h before after =>
    have hcode : ∀ c ∈ callOpening, IsCode c ∧ Mark.ofChar? c = none := by decide
    exact ((((Piece.word hcode).append_plain before.piece).append_plain (.literal h.1)).append_plain
      after.piece).append_plain (.code (by decide) (by decide))
  | legacy name symbol h hs => exact .literal (h.1.isLiteral hs)

theorem piece_keyText {key : String} (h : ∀ c ∈ key.toList, IsCode c ∧ Mark.ofChar? c = none)
    (comma colon : Gap) : Piece (keyText Gap.blanked key comma colon) (fun _ => [])
      (keyText Gap.blanked key comma colon) :=
  .append_plain (.code (c := ',') (by decide) (by decide)) ((comma.piece.append_plain (.word h)).append_plain
    (.append_plain (.code (c := ':') (by decide) (by decide)) colon.piece))

theorem Head.piece (h : Head) :
    Piece (h.render Gap.blanked) (fun _ => []) (h.render Gap.blanked) := by
  have hpath : ∀ c ∈ "path:".toList, IsCode c ∧ Mark.ofChar? c = none := by decide
  have hload : ∀ c ∈ "loadChildren".toList, IsCode c ∧ Mark.ofChar? c = none := by decide
  have hrest : Piece (h.rest Gap.blanked) (fun _ => []) (h.rest Gap.blanked) := by
    rw [rest]
    cases h.load with
    | none => exact .nil
    | some l => exact (piece_keyText hload l.comma l.colon).append_plain l.reference.piece
  exact (((h.opening.piece.append_plain (.word hpath)).append_plain h.colon.piece).append_plain
    (.literal h.isLiteral)).append_plain hrest

theorem Items.piece_comma (items : Items) : Piece items.comma (fun _ => []) items.comma := by
  cases items with
  | nil => exact .nil
  | cons gap route rest => exact .code (by decide) (by decide)

mutual

/-- The span of a route printed at an offset. -/
def Route.span (offset : Nat) : Route → Span
  | .mk head kind data children closing =>
    ⟨.brace, offset, offset + 1 + (head.render Gap.blanked ++ data.render Gap.blanked "data" kind ++
        children.render Gap.blanked "children" .square ++ closing.blanked).length,
      data.spans "data" kind (offset + 1 + (head.render Gap.blanked).length) ++
        children.spans "children" .square (offset + 1 +
          (head.render Gap.blanked ++ data.render Gap.blanked "data" kind).length)⟩

def Block.spans (key : String) (kind : Bracket) (offset : Nat) : Block → List Span
  | .absent => []
  | .present comma colon items closing =>
    [⟨kind, offset + (keyText Gap.blanked key comma colon).length,
      offset + (keyText Gap.blanked key comma colon).length + 1 +
        (items.render Gap.blanked ++ closing.blanked).length,
      items.spans (offset + (keyText Gap.blanked key comma colon).length + 1)⟩]

def Items.spans (offset : Nat) : Items → List Span
  | .nil => []
  | .cons g route rest =>
    route.span (offset + g.blanked.length) ::
      rest.spans (offset + (g.blanked ++ route.render Gap.blanked ++ rest.comma).length)

end

/-- What stands between the braces of a route, given its data and its children as pieces. -/
theorem Route.piece_interior (head : Head) {kind : Bracket} {data children : Block} (closing : Gap)
    (hdata : Piece (data.render Gap.blanked "data" kind) (data.spans "data" kind) (data.own "data" kind))
    (hchildren : Piece (children.render Gap.blanked "children" .square)
      (children.spans "children" .square) (children.own "children" .square)) :
    Piece (head.render Gap.blanked ++ data.render Gap.blanked "data" kind ++
        children.render Gap.blanked "children" .square ++ closing.blanked)
      (fun offset => data.spans "data" kind (offset + (head.render Gap.blanked).length) ++
        children.spans "children" .square (offset +
          (head.render Gap.blanked ++ data.render Gap.blanked "data" kind).length))
      (head.render Gap.blanked ++ data.own "data" kind ++ children.own "children" .square ++
        closing.blanked) :=
  ((head.piece.append_plain hdata).append hchildren).append_plain_right closing.piece

mutual

theorem Route.piece : (r : Route) →
    Piece (r.render Gap.blanked) (fun offset => [r.span offset]) ((r.render Gap.blanked).map blankOut)
  | .mk head kind data children closing => by
    have hdata := data.piece "data" (by decide) kind
    have hchildren := children.piece "children" (by decide) .square
    simp only [Route.render, Route.span]
    exact (Route.piece_interior head closing hdata hchildren).enclose .brace

theorem Block.piece (key : String) (hkey : ∀ c ∈ key.toList, IsCode c ∧ Mark.ofChar? c = none)
    (kind : Bracket) : (b : Block) →
    Piece (b.render Gap.blanked key kind) (b.spans key kind) (b.own key kind)
  | .absent => by
    simp only [Block.render, Block.own]
    exact .nil
  | .present comma colon items closing => by
    obtain ⟨own, hitems⟩ := items.piece
    simp only [Block.render, Block.own]
    exact (piece_keyText hkey comma colon).append_plain
      ((hitems.append_plain_right closing.piece).enclose kind)

theorem Items.piece : (items : Items) → ∃ own, Piece (items.render Gap.blanked) items.spans own
  | .nil => ⟨[], .nil⟩
  | .cons g route rest => by
    obtain ⟨own, hrest⟩ := rest.piece
    rw [Items.render]
    exact ⟨_, ((g.piece.append_plain route.piece).append_plain_right rest.piece_comma).append hrest⟩

end

end RouteInventory.Routing.Printed
