import RouteInventory.Proofs.Reference.Canonical
import RouteInventory.Proofs.Text.Matches
import RouteInventory.Reference.Scanner

/-!
# Markers in references

A scanner rejects a route with a marker in it, but it looks for markers in what normalization leaves of a capture.
A marker that is taken with the decoration of the route is not seen: one behind the number sign of the fragment, and
a backquote among the quotes at an end (`Decoration.Takes`). These are the only markers in captures that are
returned as references.
-/

namespace RouteInventory.Text

variable {α : Type}

theorem append_eq_append_cons {x y u w : List α} {a : α} (h : x ++ y = u ++ a :: w) :
    (∃ v, x = u ++ a :: v ∧ w = v ++ y) ∨ ∃ v, u = x ++ v ∧ y = v ++ a :: w := by
  rcases List.append_eq_append_iff.mp h with ⟨v, hu, hy⟩ | ⟨v, hx, hw⟩
  · exact .inr ⟨v, hu, hy⟩
  · cases v with
    | nil => exact .inr ⟨[], by simpa using hx.symm, by simpa using hw.symm⟩
    | cons b v =>
      obtain ⟨rfl, rfl⟩ := List.cons.inj hw
      exact .inl ⟨v, hx, rfl⟩

end RouteInventory.Text

namespace RouteInventory.Reference

open Text Script

/-! ### Captures -/

/-- What the patterns capture in a text, by pattern and then by place. -/
def Scanner.captures (s : Scanner) (text : List Char) : List (Match (List Char)) :=
  s.patterns.flatMap fun pattern => allMatches pattern text

theorem Scanner.sightings_eq (s : Scanner) (text : List Char) :
    s.sightings text = (s.captures text).map fun m => { m with captured := normalize m.captured } :=
  List.map_flatMap.symm

theorem Scanner.mem_scanText_iff {s : Scanner} {text : List Char} {path : String} {r : Reference} :
    r ∈ s.scanText text path ↔ ∃ m ∈ s.captures text, s.accepts (normalize m.captured) = true ∧
      r = ⟨String.ofList (normalize m.captured), path, m.line, s.source⟩ := by
  simp only [Scanner.scanText, Scanner.sightings_eq, List.mem_map, List.mem_filter]
  constructor
  · rintro ⟨_, ⟨⟨m, hm, rfl⟩, haccepts⟩, rfl⟩
    exact ⟨m, hm, haccepts, rfl⟩
  · rintro ⟨m, hm, haccepts, rfl⟩
    exact ⟨_, ⟨⟨m, hm, rfl⟩, haccepts⟩, rfl⟩

/-! ### Markers that are taken -/

/-- Whether a marker, in a text of a route with its decoration, is taken with the decoration, told by what stands
before it and behind it: it stands behind the number sign of the fragment, or it is a backquote among the quotes
at an end. -/
inductive Decoration.Takes (d : Decoration) (route marker : List Char) : (before after : List Char) → Prop
  | fragment (front after : List Char) :
      Takes d route marker (d.left ++ (d.address ++ d.leftBlanks) ++ (route ++ (d.rightBlanks ++ '#' :: front)))
        after
  | left {before rest : List Char} (after : List Char) (hmarker : marker = [backquote])
      (hleft : d.left = before ++ backquote :: rest) : Takes d route marker before after
  | right {rest after : List Char} (before : List Char) (hmarker : marker = [backquote])
      (hright : d.right = rest ++ backquote :: after) : Takes d route marker before after

/-- Whether a marker begins with no character that normalization takes, unless it is a backquote, and goes on with
none that stands behind a route. -/
structure IsVisible (marker : List Char) : Prop where
  nonempty : marker ≠ []
  head : ∀ c ∈ marker.head?, c ≠ '/' ∧ c ≠ '#' ∧ Text.isBlank c = false
  junk : ∀ c ∈ marker.head?, isEdgeJunk c = true → marker = [backquote]
  tail : ∀ c ∈ marker.tail, c ≠ '#' ∧ isEdge c = false

theorem IsVisible.cons {a : Char} {tail : List Char} (hhead : a ≠ '/' ∧ a ≠ '#' ∧ Text.isBlank a = false)
    (hjunk : isEdgeJunk a = true → a :: tail = [backquote]) (htail : ∀ c ∈ tail, c ≠ '#' ∧ isEdge c = false) :
    IsVisible (a :: tail) :=
  ⟨List.cons_ne_nil a tail, fun _ hc => Option.some.inj hc ▸ hhead, fun _ hc => Option.some.inj hc ▸ hjunk, htail⟩

variable {route marker before after : List Char} {d : Decoration}

theorem Decoration.head?_back {c : Char} (hc : c ∈ d.back.head?) : c = '#' ∨ isEdge c = true := by
  rw [Decoration.back, List.head?_append, Option.mem_def, Option.or_eq_some_iff, List.head?_append,
    Option.or_eq_some_iff] at hc
  rcases hc with hc | ⟨-, hc | ⟨-, hc⟩⟩
  · exact .inr (isEdge_of_isBlank (d.rightBlanks_blank c (List.mem_of_mem_head? hc)))
  · exact .inl (d.fragment_hash c hc)
  · exact .inr (isEdge_of_isEdgeJunk (d.right_junk c (List.mem_of_mem_head? hc)))

theorem Decoration.takes_back {a : Char} {tail : List Char} (hmarker : IsVisible (a :: tail))
    (h : d.back = before ++ a :: (tail ++ after)) :
    d.Takes route (a :: tail) (d.left ++ (d.address ++ d.leftBlanks) ++ (route ++ before)) after := by
  have hhead := hmarker.head a rfl
  rcases append_eq_append_cons h with ⟨v, hblanks, -⟩ | ⟨front, rfl, hrest⟩
  · have hblank := d.rightBlanks_blank a (by simp [hblanks])
    exact absurd (hhead.2.2.symm.trans hblank) Bool.false_ne_true
  rcases append_eq_append_cons hrest with ⟨v, hfragment, -⟩ | ⟨front, rfl, hright⟩
  · cases front with
    | nil => exact absurd (d.fragment_hash a (by rw [hfragment]; rfl)) hhead.2.1
    | cons c front =>
      obtain rfl : c = '#' := d.fragment_hash c (by rw [hfragment]; rfl)
      exact .fragment front after
  · have hjunk := d.right_junk a (by simp [hright])
    obtain ⟨rfl, rfl⟩ := List.cons.inj (hmarker.junk a rfl hjunk)
    exact .right _ rfl hright

/-- A marker of a text that does not occur in the route is taken. -/
theorem Decoration.takes_of_not_infix (hmarker : IsVisible marker) (hroute : ¬ marker <:+: route)
    (h : d.text route = before ++ (marker ++ after)) : d.Takes route marker before after := by
  obtain ⟨a, tail, rfl⟩ := List.exists_cons_of_ne_nil hmarker.nonempty
  have hhead := hmarker.head a rfl
  rw [Decoration.text, List.append_assoc, List.cons_append] at h
  rcases append_eq_append_cons h with ⟨v, hleft, -⟩ | ⟨front, rfl, hinner⟩
  · have hjunk := d.left_junk a (by simp [hleft])
    obtain ⟨rfl, rfl⟩ := List.cons.inj (hmarker.junk a rfl hjunk)
    exact .left after rfl hleft
  rcases append_eq_append_cons hinner with ⟨v, hfront, -⟩ | ⟨front, rfl, hbare⟩
  · have hmem : a ∈ d.address ++ d.leftBlanks := by simp [hfront]
    rcases List.mem_append.mp hmem with ha | ha
    · exact absurd (d.eq_slash_or_hash ha) (not_or.mpr ⟨hhead.1, hhead.2.1⟩)
    · exact absurd (hhead.2.2.symm.trans (d.leftBlanks_blank a ha)) Bool.false_ne_true
  rcases append_eq_append_cons hbare with ⟨v, rfl, hafter⟩ | ⟨front, rfl, hback⟩
  · -- the marker goes on behind the route, with a character that stands there
    have hstart : a :: tail <+: (a :: v) ++ d.back :=
      ⟨after, by rw [List.cons_append, List.cons_append, hafter]⟩
    rcases exists_of_prefix_append hstart with hinside | ⟨rest, heq, hrest⟩
    · exact absurd (hinside.isInfix.trans (List.suffix_append front _).isInfix) hroute
    · obtain ⟨-, rfl⟩ := List.cons.inj heq
      cases rest with
      | nil => exact absurd (by simp [(List.suffix_append front _).isInfix]) hroute
      | cons c rest =>
        obtain ⟨more, hback⟩ := hrest
        have hc := hmarker.tail c (by simp)
        have hedge : c = '#' ∨ isEdge c = true := d.head?_back (by rw [← hback]; rfl)
        exact absurd hedge (not_or.mpr ⟨hc.1, Bool.not_eq_true _ ▸ hc.2⟩)
  · rw [← List.append_assoc]
    exact takes_back hmarker hback

theorem Decoration.not_takes_route (d : Decoration) (front marker back : List Char) :
    ¬ d.Takes (front ++ (marker ++ back)) marker (d.left ++ (d.address ++ d.leftBlanks) ++ front)
      (back ++ d.back) := by
  generalize hbefore : d.left ++ (d.address ++ d.leftBlanks) ++ front = before
  generalize hafter : back ++ d.back = after
  intro h
  cases h with
  | fragment more =>
    have hlength := congrArg List.length hbefore
    simp only [List.length_append, List.length_cons] at hlength
    omega
  | left after hmarker hleft =>
    have hlength := congrArg List.length hleft
    simp only [← hbefore, List.length_append, List.length_cons] at hlength
    omega
  | right before hmarker hright =>
    have hlength := congrArg List.length hright
    simp only [← hafter, Decoration.back, List.length_append, List.length_cons] at hlength
    omega

/-- Whether all markers in a text are taken with the decoration of its route. -/
def TakesMarkers (s : Scanner) (raw : List Char) : Prop :=
  ∃ d : Decoration, raw = d.text (normalize raw) ∧ ∀ marker ∈ s.rejectedMarkers, ∀ before after,
    raw = before ++ (marker.toList ++ after) → d.Takes (normalize raw) marker.toList before after

variable {s : Scanner}

theorem accepts_normalize_iff (hs : ∀ marker ∈ s.rejectedMarkers, IsVisible marker.toList) (raw : List Char) :
    s.accepts (normalize raw) = true ↔ normalize raw ≠ [] ∧ TakesMarkers s raw := by
  rw [Scanner.accepts_iff_not_infix]
  refine and_congr_right fun _ => ?_
  constructor
  · intro hroute
    obtain ⟨d, hraw⟩ := exists_decoration raw
    refine ⟨d, hraw, fun marker hmem before after heq => ?_⟩
    exact Decoration.takes_of_not_infix (hs marker hmem) (hroute marker hmem) (hraw.symm.trans heq)
  · rintro ⟨d, hraw, htaken⟩ marker hmem ⟨front, back, hroute⟩
    rw [List.append_assoc] at hroute
    refine d.not_takes_route front marker.toList back ?_
    rw [hroute]
    refine htaken marker hmem _ _ ?_
    nth_rewrite 1 [hraw, Decoration.text, ← hroute]
    simp only [List.append_assoc]

/-- A text without number signs has no markers that are taken, but for backquotes. -/
theorem TakesMarkers.eq_backquote {raw : List Char} (h : TakesMarkers s raw) (hhash : '#' ∉ raw) {marker : String}
    (hmem : marker ∈ s.rejectedMarkers) (hmarker : marker.toList <:+: raw) :
    marker = String.singleton backquote := by
  obtain ⟨d, -, htaken⟩ := h
  obtain ⟨before, after, heq⟩ := hmarker
  rw [List.append_assoc] at heq
  cases htaken marker hmem before after heq.symm with
  | fragment front after =>
    rw [← heq] at hhash
    exact absurd (by simp) hhash
  | left after hmarker hleft => exact String.toList_inj.mp (by simpa using hmarker)
  | right before hmarker hright => exact String.toList_inj.mp (by simpa using hmarker)

theorem isVisible_rejectedMarkers (hs : s ∈ [templates, navigation]) :
    ∀ marker ∈ s.rejectedMarkers, IsVisible marker.toList := by
  rcases List.mem_cons.mp hs with rfl | hs
  · rw [templates, List.forall_mem_cons, List.forall_mem_singleton]
    exact ⟨.cons (by decide) (by decide) (by decide), .cons (by decide) (by decide) (by decide)⟩
  · obtain rfl := List.mem_singleton.mp hs
    rw [navigation, List.forall_mem_cons, List.forall_mem_singleton]
    exact ⟨.cons (by decide) (by decide) (by decide), .cons (by decide) (by decide) (by decide)⟩

/-- The references of a text are the routes of its captures, other than empty ones, in which all markers are taken
with the decoration. Only backquotes are taken if there is no number sign. -/
theorem mem_scanText_iff_takesMarkers (hs : s ∈ [templates, navigation]) (text : List Char) (path : String) :
    (∀ r, r ∈ s.scanText text path ↔ ∃ m ∈ s.captures text,
      (normalize m.captured ≠ [] ∧ TakesMarkers s m.captured) ∧
        r = ⟨String.ofList (normalize m.captured), path, m.line, s.source⟩) ∧
      ∀ raw, TakesMarkers s raw → '#' ∉ raw → ∀ marker ∈ s.rejectedMarkers, marker.toList <:+: raw →
        marker = String.singleton backquote := by
  refine ⟨fun r => ?_, fun raw htaken hhash marker hmem => htaken.eq_backquote hhash hmem⟩
  simp only [Scanner.mem_scanText_iff, accepts_normalize_iff (isVisible_rejectedMarkers hs)]

theorem mem_scanText_reports : templates ∈ [templates, navigation] ∧
    ∃ m ∈ templates.captures "<a\n routerLink=\"/reports#top\">".toList,
      (normalize m.captured ≠ [] ∧ TakesMarkers templates m.captured) ∧
        (⟨"reports", "a.html", 2, .html⟩ : Reference) =
          ⟨String.ofList (normalize m.captured), "a.html", m.line, .html⟩ := by
  have hs : templates ∈ [templates, navigation] := List.mem_cons_self
  exact ⟨hs, ((mem_scanText_iff_takesMarkers hs _ _).1 _).mp (by decide)⟩

/-- A value with interpolation in its fragment is returned, as is a template literal with a placeholder there. -/
theorem scanText_marked :
    (templates.captures "<a routerLink=\"reports#\x7b\x7b id \x7d\x7d\">".toList).map (·.captured) =
        ["reports#\x7b\x7b id \x7d\x7d".toList] ∧
      "\x7b\x7b" ∈ templates.rejectedMarkers ∧ "\x7b\x7b".toList <:+: "reports#\x7b\x7b id \x7d\x7d".toList ∧
      templates.scanText "<a routerLink=\"reports#\x7b\x7b id \x7d\x7d\">".toList "a.html" =
        [⟨"reports", "a.html", 1, .html⟩] ∧
      navigation.scanText ".navigateByUrl(`reports#$\x7bid\x7d`)".toList "a.ts" =
        [⟨"reports", "a.ts", 1, .typescript⟩] := by
  decide

end RouteInventory.Reference
