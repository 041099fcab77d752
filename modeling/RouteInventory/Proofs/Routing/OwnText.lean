import RouteInventory.Proofs.Routing.Printed

/-!
# The own text of a printed route

With comments and inner brackets blanked, a printed route is its head and then a tail of keys with
blank values. The path and the module to be loaded are read from the head; the tail holds no key of
either.
-/

namespace RouteInventory.Routing.Printed

open Script Text

/-! ### Gaps -/

namespace IsSpace

variable {c : Char}

theorem isBlank (h : IsSpace c) : Text.isBlank c = true := by
  rcases h with rfl | rfl | rfl <;> decide

theorem isCode (h : IsSpace c) : IsCode c ∧ Mark.ofChar? c = none := by
  rcases h with rfl | rfl | rfl <;> decide

theorem keyMayFollow (h : IsSpace c) : Routing.keyMayFollow (some c) = true := by
  rcases h with rfl | rfl | rfl <;> decide

theorem continues (h : IsSpace c) : IsCode c ∧ c ≠ ',' ∧ c ≠ '(' ∧ c ≠ ')' := by
  rcases h with rfl | rfl | rfl <;> decide

end IsSpace

theorem isSpace_blankOut (c : Char) : IsSpace (blankOut c) := by
  rw [blankOut]
  split
  · exact .inr (.inr rfl)
  · exact .inl rfl

theorem isSpace_map_blankOut {x : List Char} : ∀ c ∈ x.map blankOut, IsSpace c := by
  intro c hc
  obtain ⟨d, -, rfl⟩ := List.mem_map.mp hc
  exact isSpace_blankOut d

theorem Filler.isSpace (f : Filler) : ∀ c ∈ f.blanked, IsSpace c := by
  cases f with
  | blank c h =>
    intro d hd
    rwa [List.mem_singleton.mp hd]
  | lineComment body h =>
    simp only [blanked, List.forall_mem_cons, List.forall_mem_append]
    exact ⟨by decide, by decide, isSpace_map_blankOut, by decide⟩
  | blockComment body h =>
    simp only [blanked, List.forall_mem_cons, List.forall_mem_append]
    exact ⟨by decide, by decide, isSpace_map_blankOut, by decide⟩

/-- No `loadChildren` key begins where no `l` stands. -/
theorem skips_of_notMem {x : List Char} (h : 'l' ∉ x) : Skips (keyPattern "loadChildren") x := by
  refine .of_forall fun c hc => keyPattern_eq_none (show _ = 'l' :: _ from rfl) ?_
  rintro rfl
  exact h hc

namespace Gap

variable (g : Gap)

theorem isSpace : ∀ c ∈ g.blanked, IsSpace c := by
  intro c hc
  obtain ⟨f, -, hf⟩ := List.mem_flatMap.mp hc
  exact f.isSpace c hf

theorem isBlank : ∀ c ∈ g.blanked, Text.isBlank c = true := fun c hc => (g.isSpace c hc).isBlank

theorem keyMayFollow : Routing.keyMayFollow g.blanked.getLast? = true :=
  keyMayFollow_getLast? fun c hc => (g.isSpace c hc).keyMayFollow

theorem keyMayFollow_comma (before : List Char) :
    Routing.keyMayFollow (before ++ ',' :: g.blanked).getLast? = true := by
  have h : Routing.keyMayFollow (',' :: g.blanked).getLast? = true :=
    keyMayFollow_getLast? (List.forall_mem_cons.mpr ⟨by decide, fun c hc => (g.isSpace c hc).keyMayFollow⟩)
  rw [List.getLast?_append]
  rwa [List.getLast?_cons] at h ⊢

theorem skips : Skips (keyPattern "loadChildren") g.blanked :=
  skips_of_notMem fun h => absurd (g.isSpace _ h) (by decide)

theorem continues (depth : Int) : Continues g.blanked depth depth :=
  .plain (fun c hc => (g.isSpace c hc).continues) depth

end Gap

/-! ### Tails -/

/-- The text of a property with the brackets of its value blanked. -/
def Block.own (key : String) (kind : Bracket) : Block → List Char
  | .absent => []
  | .present comma colon items closing =>
    keyText Gap.blanked key comma colon ++
      (kind.opening :: (items.render Gap.blanked ++ closing.blanked ++ [kind.closing])).map blankOut

/-- What may stand behind the head of a route. -/
structure IsTail (tail : List Char) : Prop where
  skips : Skips (keyPattern "loadChildren") tail
  starts : (∀ c ∈ tail, IsSpace c) ∨ ∃ rest, tail = ',' :: rest

theorem skips_data : Skips (keyPattern "loadChildren") "data".toList := skips_of_notMem (by decide)

theorem skips_children : Skips (keyPattern "loadChildren") "children".toList := by
  have hmiss (before : Option Char) (rest : List Char) :
      keyPattern "loadChildren" before ('l' :: 'd' :: rest) = none := by
    rw [keyPattern, Option.map_eq_none_iff, Option.eq_none_iff_forall_ne_some]
    intro value h
    obtain ⟨-, mark, blanks, -, -, heq⟩ := afterKey?_eq_some_iff.mp h
    exact absurd (List.cons.inj (List.cons.inj heq).2).1 (by decide)
  have hpair : Skips (keyPattern "loadChildren") ['l', 'd'] := by
    intro before rest
    have hd := skips_of_notMem (x := ['d']) (by decide) (some 'l') rest
    rw [List.cons_append, List.singleton_append, firstMatch, hmiss, Option.orElse_none]
    exact hd
  have hchi : Skips (keyPattern "loadChildren") "chi".toList := skips_of_notMem (by decide)
  have hren : Skips (keyPattern "loadChildren") "ren".toList := skips_of_notMem (by decide)
  exact (hchi.append hpair).append hren

theorem skips_keyText {key : String} (h : Skips (keyPattern "loadChildren") key.toList)
    (comma colon : Gap) : Skips (keyPattern "loadChildren") (keyText Gap.blanked key comma colon) := by
  have hcomma : Skips (keyPattern "loadChildren") [','] := skips_of_notMem (by decide)
  have hcolon : Skips (keyPattern "loadChildren") [':'] := skips_of_notMem (by decide)
  have := hcomma.append ((comma.skips.append h).append (hcolon.append colon.skips))
  simpa [keyText] using this

namespace IsTail

theorem gap (g : Gap) : IsTail g.blanked where
  skips := g.skips
  starts := .inl g.isSpace

theorem block {key : String} (h : Skips (keyPattern "loadChildren") key.toList) (kind : Bracket)
    (b : Block) {tail : List Char} (ht : IsTail tail) : IsTail (b.own key kind ++ tail) := by
  cases b with
  | absent => exact ht
  | present comma colon items closing =>
    refine ⟨((skips_keyText h comma colon).append ?_).append ht.skips, .inr ⟨_, rfl⟩⟩
    exact skips_of_notMem fun hmem => absurd (isSpace_map_blankOut _ hmem) (by decide)

theorem firstMatch_eq_none {tail : List Char} (h : IsTail tail) (before : Option Char) :
    firstMatch (keyPattern "loadChildren") before tail = none := by
  have hend := h.skips before []
  rw [List.append_nil] at hend
  rw [hend, firstMatch, keyPattern, Option.map_eq_none_iff, Option.eq_none_iff_forall_ne_some]
  intro value hvalue
  obtain ⟨-, mark, blanks, -, -, heq⟩ := afterKey?_eq_some_iff.mp hvalue
  exact absurd heq (by simp)

end IsTail

theorem skipBlanks_ne_colon {x : List Char} (h : (∀ c ∈ x, IsSpace c) ∨ ∃ rest, x = ',' :: rest)
    (rest : List Char) : skipBlanks x ≠ ':' :: rest := by
  rcases h with h | ⟨y, rfl⟩
  · have hx := skipBlanks_append (fun c hc => (h c hc).isBlank) []
    rw [List.append_nil] at hx
    rw [hx]
    exact nofun
  · rw [skipBlanks_cons (by decide)]
    exact fun heq => absurd (List.cons.inj heq).1 (by decide)

/-! ### Heads -/

theorem IsLegacyPart.isLiteral {name symbol : String} (h : IsLegacyPart name)
    (hs : IsLegacyPart symbol) : IsLiteral (name.toList ++ '#' :: symbol.toList) := by
  obtain ⟨⟨hq, hb, hl⟩, -⟩ := h
  obtain ⟨⟨hq', hb', hl'⟩, -⟩ := hs
  simp [IsLiteral, *]

theorem Reference.continues (r : Reference) : Continues (r.render Gap.blanked) 0 0 := by
  cases r with
  | call name h before after =>
    have hcode : ∀ c ∈ callOpening, IsCode c ∧ c ≠ ',' := by decide
    have hopen : Continues callOpening 0 1 := .word hcode 0
    have hclose : Continues [')'] 1 0 := .code (by decide) (by decide) 1
    exact (((hopen.append (before.continues 1)).append (.literal h.1 1)).append
      (after.continues 1)).append hclose
  | legacy name symbol h hs =>
    exact .literal (h.1.isLiteral hs) 0

theorem Reference.moduleReference?_render (r : Reference) {blanks : List Char}
    (hblanks : ∀ c ∈ blanks, Text.isBlank c = true) (rest : List Char) :
    moduleReference? (blanks ++ (r.render Gap.blanked ++ rest)) = some r.name.toList := by
  cases r with
  | call name h before after =>
    have hquote : ∀ c ∈ name.toList, isQuote c = false := h.2.1
    have hne : name.toList ≠ [] := fun heq => h.2.2 (String.toList_inj.mp heq)
    have htext : (call name h before after).render Gap.blanked ++ rest = callOpening ++
        (before.blanked ++ (literal name.toList ++ (after.blanked ++ ')' :: rest))) := by
      simp [render]
    rw [htext]
    exact moduleReference?_import hblanks before.isBlank hquote hne after.isBlank rest
  | legacy name symbol h hs =>
    obtain ⟨⟨⟨hquote, -⟩, hdouble⟩, hhash⟩ := h
    obtain ⟨⟨hquote', -⟩, hdouble'⟩ := hs
    refine moduleReference?_literal hblanks hhash (fun c hc => ?_) rest
    rw [Bool.or_eq_false_iff, decide_eq_false_iff_not, decide_eq_false_iff_not]
    constructor
    · rintro rfl
      simp [hquote, hquote'] at hc
    · rintro rfl
      simp [hdouble, hdouble'] at hc

namespace Head

theorem pathValue? (h : Head) (tail : List Char) :
    Routing.pathValue? (h.render Gap.blanked ++ tail) = some h.path.toList := by
  have := pathValue?_append h.opening.isBlank h.opening.keyMayFollow h.colon.isBlank h.isLiteral.1
    (h.rest Gap.blanked ++ tail)
  simpa [render] using this

theorem firstMatch_render (h : Head) (hkey : ¬ HasKey "loadChildren" h.path.toList)
    {tail : List Char} (ht : IsTail tail) :
    firstMatch (keyPattern "loadChildren") none (h.render Gap.blanked ++ tail) =
      firstMatch (keyPattern "loadChildren") (some '\'') (h.rest Gap.blanked ++ tail) := by
  have hrest : (∀ c ∈ h.rest Gap.blanked ++ tail, IsSpace c) ∨
      ∃ rest, h.rest Gap.blanked ++ tail = ',' :: rest := by
    rw [rest]
    cases h.load with
    | none => exact ht.starts
    | some l => exact .inr ⟨_, rfl⟩
  have hpath : Skips (keyPattern "loadChildren") "path:".toList := skips_of_notMem (by decide)
  have hskip := (h.opening.skips.append hpath).append h.colon.skips
  have htext : h.render Gap.blanked ++ tail = h.opening.blanked ++ "path:".toList ++ h.colon.blanked ++
      (literal h.path.toList ++ (h.rest Gap.blanked ++ tail)) := by simp [render]
  rw [htext, hskip, firstMatch_literal (show _ = 'l' :: _ from rfl) (by decide) h.isLiteral.1 hkey
    (skipBlanks_ne_colon hrest)]

theorem moduleReference? (h : Head) (hkey : ¬ HasKey "loadChildren" h.path.toList)
    {tail : List Char} (ht : IsTail tail) :
    (loadChildrenText? (h.render Gap.blanked ++ tail)).bind Routing.moduleReference? =
      h.load.map (·.reference.name.toList) := by
  have hfirst := h.firstMatch_render hkey ht
  rw [rest] at hfirst
  cases hload : h.load with
  | none =>
    rw [hload] at hfirst
    dsimp only at hfirst
    rw [List.nil_append, ht.firstMatch_eq_none] at hfirst
    rw [loadChildrenText?, loadChildrenValue?_eq, hfirst]
    rfl
  | some l =>
    rw [hload] at hfirst
    have hcomma : Skips (keyPattern "loadChildren") [','] := skips_of_notMem (by decide)
    have htext : l.render Gap.blanked ++ tail = [','] ++ l.comma.blanked ++
        ("loadChildren".toList ++ ':' :: (l.colon.blanked ++ (l.reference.render Gap.blanked ++ tail))) := by
      simp [Load.render, keyText]
    have hvalue : loadChildrenValue? (h.render Gap.blanked ++ tail) =
        some (l.colon.blanked ++ (l.reference.render Gap.blanked ++ tail)) := by
      refine loadChildrenValue?_append (l.comma.keyMayFollow_comma ['\'']) ?_
      have hlast : (['\''] ++ ',' :: l.comma.blanked).getLast? =
          (',' :: l.comma.blanked).getLast?.or (some '\'') := by
        rw [List.getLast?_append]
        rfl
      rw [hfirst, htext, hcomma.append l.comma.skips, hlast]
      rfl
    rw [loadChildrenText?, hvalue, Option.map_some, Option.bind_some, l.colon.continues,
      l.reference.continues, l.reference.moduleReference?_render l.colon.isBlank]
    rfl

end Head

end RouteInventory.Routing.Printed
