import RouteInventory.Proofs.Path.Names
import RouteInventory.Proofs.Text.Trim
import RouteInventory.Routing.Resolver

/-!
# The application boundary

A reference is cut behind a segment that names the application's sources, if a slash ends that segment
(`BoundaryAt`). Inner segments go before the leading one: what is left of a reference (`Leaves`) begins
behind the first boundary among them, else behind the leading one, else it is all of the reference. So the
first boundary is the one taken unless it leads the reference and another one follows.
-/

namespace RouteInventory

namespace Text

theorem fields_ne_nil (separator : Char) (text : List Char) : fields separator text ≠ [] := by
  cases text with
  | nil => simp [fields]
  | cons c rest =>
    rw [fields]
    split
    · exact List.cons_ne_nil _ _
    · split <;> exact List.cons_ne_nil _ _

/-- A text is a field alone, or a field before a separator and a text behind it. -/
theorem fields_induction (separator : Char) {P : List Char → Prop}
    (last : ∀ field, separator ∉ field → P field)
    (more : ∀ field rest, separator ∉ field → P rest → P (field ++ separator :: rest))
    (text : List Char) : P text := by
  induction hn : text.length using Nat.strong_induction_on generalizing text with
  | _ n ih =>
    by_cases hmem : separator ∈ text
    · obtain ⟨field, rest, rfl, hfield⟩ := List.eq_append_cons_of_mem hmem
      refine more field rest hfield (ih rest.length ?_ rest rfl)
      rw [← hn, List.length_append, List.length_cons]
      omega
    · exact last text hmem

theorem intercalate_fields (separator : Char) (text : List Char) :
    [separator].intercalate (fields separator text) = text := by
  induction text using fields_induction separator with
  | last field h => rw [fields_of_not_mem h, List.intercalate_singleton]
  | more field rest h ih =>
    obtain ⟨first, others, hrest⟩ := List.exists_cons_of_ne_nil (fields_ne_nil separator rest)
    rw [fields_append h, hrest, List.intercalate_cons_cons, ← hrest, ih, List.append_assoc,
      List.singleton_append]

end Text

namespace Routing

open Text

/-- Whether a segment names the application's sources. -/
def NamesApp (segment : List Char) : Prop := segment = "app".toList ∨ segment = "@app".toList

instance (segment : List Char) : Decidable (NamesApp segment) := inferInstanceAs (Decidable (_ ∨ _))

/-- Whether some segments on the first line are followed by one that names the application's sources and
that a slash ends, since there are more behind it. -/
structure BoundaryAt (segments front rest : List (List Char)) : Prop where
  split : ∃ segment, NamesApp segment ∧ segments = front ++ segment :: rest
  ended : rest ≠ []
  line : ∀ segment ∈ front, '\n' ∉ segment

/-- Whether a boundary is the first one. -/
structure FirstBoundary (segments front rest : List (List Char)) : Prop extends
    BoundaryAt segments front rest where
  first : ∀ segment ∈ front, ¬ NamesApp segment

/-- What is left of the segments of a reference. -/
inductive Leaves (segments : List (List Char)) : List (List Char) → Prop
  | inner {first : List Char} {before rest : List (List Char)}
      (h : BoundaryAt segments (first :: before) rest) (hfirst : ∀ segment ∈ before, ¬ NamesApp segment) :
      Leaves segments rest
  | leading {rest : List (List Char)} (h : BoundaryAt segments [] rest)
      (hinner : ∀ front rest', BoundaryAt segments front rest' → front = []) : Leaves segments rest
  | whole (h : ∀ front rest, ¬ BoundaryAt segments front rest) : Leaves segments segments

variable {segments front rest : List (List Char)} {first : List Char} {text : List Char}

theorem NamesApp.slash_not_mem {segment : List Char} (h : NamesApp segment) : '/' ∉ segment := by
  rcases h with rfl | rfl <;> decide

namespace BoundaryAt

theorem cons (h : BoundaryAt segments front rest) (hfirst : '\n' ∉ first) :
    BoundaryAt (first :: segments) (first :: front) rest := by
  obtain ⟨segment, hsegment, rfl⟩ := h.split
  exact ⟨⟨segment, hsegment, rfl⟩, h.ended, List.forall_mem_cons.mpr ⟨hfirst, h.line⟩⟩

theorem of_cons {c : List Char} (h : BoundaryAt (first :: segments) (c :: front) rest) :
    '\n' ∉ first ∧ BoundaryAt segments front rest := by
  obtain ⟨segment, hsegment, heq⟩ := h.split
  obtain ⟨rfl, rfl⟩ := List.cons.inj heq
  obtain ⟨hfirst, hline⟩ := List.forall_mem_cons.mp h.line
  exact ⟨hfirst, ⟨segment, hsegment, rfl⟩, h.ended, hline⟩

theorem front_eq_nil (h : BoundaryAt [first] front rest) : front = [] := by
  obtain ⟨segment, -, heq⟩ := h.split
  cases front with
  | nil => rfl
  | cons c front => simp at heq

end BoundaryAt

theorem afterAppSegment?_eq_some_iff {rest : List Char} : afterAppSegment? text = some rest ↔
    ∃ segment, NamesApp segment ∧ text = segment ++ '/' :: rest := by
  rw [afterAppSegment?, Option.orElse_eq_or, Option.or_eq_some_iff, after?_eq_some_iff, after?_eq_some_iff]
  constructor
  · rintro (rfl | ⟨-, rfl⟩)
    · exact ⟨_, .inl rfl, rfl⟩
    · exact ⟨_, .inr rfl, rfl⟩
  · rintro ⟨segment, rfl | rfl, rfl⟩
    · exact .inl rfl
    · exact .inr ⟨rfl, rfl⟩

/-- A text begins with a boundary where an application segment is read off it. -/
theorem boundaryAt_nil_iff : BoundaryAt (fields '/' text) [] rest ↔
    ∃ left, afterAppSegment? text = some left ∧ fields '/' left = rest := by
  constructor
  · intro h
    obtain ⟨segment, hsegment, heq⟩ := h.split
    cases text using fields_induction '/' with
    | last field hfield =>
      rw [fields_of_not_mem hfield] at heq
      exact absurd (List.cons.inj heq).2.symm h.ended
    | more field left hfield _ =>
      rw [fields_append hfield] at heq
      obtain ⟨rfl, rfl⟩ := List.cons.inj heq
      exact ⟨left, afterAppSegment?_eq_some_iff.mpr ⟨field, hsegment, rfl⟩, rfl⟩
  · rintro ⟨left, hleft, rfl⟩
    obtain ⟨segment, hsegment, rfl⟩ := afterAppSegment?_eq_some_iff.mp hleft
    rw [fields_append hsegment.slash_not_mem]
    exact ⟨⟨segment, hsegment, rfl⟩, fields_ne_nil _ _, by simp⟩

theorem afterInnerApp?_of_not_mem (h : '/' ∉ text) : afterInnerApp? text = none := by
  induction text with
  | nil => rfl
  | cons c text ih =>
    rw [List.mem_cons, not_or] at h
    rw [afterInnerApp?, if_neg (Ne.symm h.1), ih h.2, ite_self]

theorem afterInnerApp?_append (h : '/' ∉ first) (left : List Char) :
    afterInnerApp? (first ++ '/' :: left) =
      if '\n' ∈ first then none else (afterAppSegment? left).or (afterInnerApp? left) := by
  induction first with
  | nil => rw [List.nil_append, afterInnerApp?, if_pos rfl, Option.orElse_eq_or, if_neg List.not_mem_nil]
  | cons c first ih =>
    rw [List.mem_cons, not_or] at h
    rw [List.cons_append, afterInnerApp?, if_neg (Ne.symm h.1), ih h.2]
    by_cases hc : c = '\n'
    · rw [if_pos hc, if_pos (by simp [hc])]
    · simp [hc, Ne.symm hc]

/-- What is read behind an inner boundary stands behind the first of them. -/
theorem exists_of_afterInnerApp? {left : List Char} (h : afterInnerApp? text = some left) :
    ∃ first before, BoundaryAt (fields '/' text) (first :: before) (fields '/' left) ∧
      ∀ segment ∈ before, ¬ NamesApp segment := by
  induction text using fields_induction '/' with
  | last field hfield =>
    rw [afterInnerApp?_of_not_mem hfield] at h
    cases h
  | more field text hfield ih =>
    rw [afterInnerApp?_append hfield] at h
    split at h
    · cases h
    next hline =>
      rw [fields_append hfield]
      rcases Option.or_eq_some_iff.mp h with hsegment | ⟨hnone, hinner⟩
      · exact ⟨field, [], (boundaryAt_nil_iff.mpr ⟨left, hsegment, rfl⟩).cons hline, by simp⟩
      · obtain ⟨first, before, hboundary, hbefore⟩ := ih hinner
        refine ⟨field, first :: before, hboundary.cons hline, List.forall_mem_cons.mpr ⟨fun hfirst => ?_,
          hbefore⟩⟩
        -- a boundary at the beginning would have been read first
        obtain ⟨segment, -, heq⟩ := hboundary.split
        have hleading : BoundaryAt (fields '/' text) [] (before ++ segment :: fields '/' left) :=
          ⟨⟨first, hfirst, heq⟩, by simp, by simp⟩
        obtain ⟨left', hleft', -⟩ := boundaryAt_nil_iff.mp hleading
        rw [hnone] at hleft'
        cases hleft'

theorem front_eq_nil_of_afterInnerApp? (h : afterInnerApp? text = none)
    (hboundary : BoundaryAt (fields '/' text) front rest) : front = [] := by
  induction text using fields_induction '/' generalizing front with
  | last field hfield =>
    rw [fields_of_not_mem hfield] at hboundary
    exact hboundary.front_eq_nil
  | more field text hfield ih =>
    cases front with
    | nil => rfl
    | cons first front =>
      rw [fields_append hfield] at hboundary
      obtain ⟨hline, hrest⟩ := hboundary.of_cons
      rw [afterInnerApp?_append hfield, if_neg hline, Option.or_eq_none_iff] at h
      obtain rfl := ih h.2 hrest
      obtain ⟨left, hleft, -⟩ := boundaryAt_nil_iff.mp hrest
      rw [h.1] at hleft
      cases hleft

/-- What the resolver leaves of a reference. -/
theorem leaves_dropBoundary (text : List Char) :
    Leaves (fields '/' text) (fields '/' (dropBoundary text)) := by
  rw [dropBoundary, Option.orElse_eq_or]
  cases hinner : afterInnerApp? text with
  | some left =>
    obtain ⟨first, before, h, hbefore⟩ := exists_of_afterInnerApp? hinner
    exact .inner h hbefore
  | none =>
    have hfront (front rest) (h : BoundaryAt (fields '/' text) front rest) : front = [] :=
      front_eq_nil_of_afterInnerApp? hinner h
    cases hleading : afterAppSegment? text with
    | some left => exact .leading (boundaryAt_nil_iff.mpr ⟨left, hleading, rfl⟩) hfront
    | none =>
      refine .whole fun front rest h => ?_
      obtain rfl := hfront front rest h
      obtain ⟨left, hleft, -⟩ := boundaryAt_nil_iff.mp h
      rw [hleading] at hleft
      cases hleft

/-! ### The boundary taken -/

theorem split_unique {α : Type} {P : α → Prop} {front front' rest rest' : List α} {a b : α}
    (h : front ++ a :: rest = front' ++ b :: rest') (hfront : ∀ x ∈ front, ¬ P x)
    (hfront' : ∀ x ∈ front', ¬ P x) (ha : P a) (hb : P b) : rest = rest' := by
  induction front generalizing front' with
  | nil =>
    cases front' with
    | nil => exact (List.cons.inj h).2
    | cons x front' => exact absurd ((List.cons.inj h).1 ▸ ha) (hfront' x List.mem_cons_self)
  | cons x front ih =>
    cases front' with
    | nil => exact absurd ((List.cons.inj h).1 ▸ hb) (hfront x List.mem_cons_self)
    | cons y front' =>
      exact ih (List.cons.inj h).2 (fun z hz => hfront z (List.mem_cons_of_mem _ hz))
        fun z hz => hfront' z (List.mem_cons_of_mem _ hz)

theorem Leaves.unique {rest' : List (List Char)} (h : Leaves segments rest) (h' : Leaves segments rest') :
    rest = rest' := by
  cases h with
  | whole hnone =>
    cases h' with
    | whole => rfl
    | inner h' => exact absurd h' (hnone _ _)
    | leading h' => exact absurd h' (hnone _ _)
  | leading h hinner =>
    cases h' with
    | whole hnone => exact absurd h (hnone _ _)
    | inner h' => exact absurd (hinner _ _ h') (List.cons_ne_nil _ _)
    | leading h' =>
      obtain ⟨segment, -, rfl⟩ := h.split
      obtain ⟨segment', -, heq⟩ := h'.split
      exact (List.cons.inj heq).2
  | inner h hbefore =>
    cases h' with
    | whole hnone => exact absurd h (hnone _ _)
    | leading _ hinner => exact absurd (hinner _ _ h) (List.cons_ne_nil _ _)
    | inner h' hbefore' =>
      obtain ⟨segment, hsegment, rfl⟩ := h.split
      obtain ⟨segment', hsegment', heq⟩ := h'.split
      exact split_unique (List.cons.inj heq).2 hbefore hbefore' hsegment hsegment'

theorem FirstBoundary.leaves (h : FirstBoundary segments front rest)
    (honly : front = [] → ∀ front' rest', ¬ BoundaryAt rest front' rest') : Leaves segments rest := by
  cases front with
  | cons first before => exact .inner h.1 fun segment hs => h.first segment (List.mem_cons_of_mem _ hs)
  | nil =>
    refine .leading h.1 fun front' rest' h' => ?_
    obtain ⟨segment, -, rfl⟩ := h.split
    cases front' with
    | nil => rfl
    | cons first front' => exact absurd h'.of_cons.2 (honly rfl front' rest')

/-- A leading boundary is passed over for the next one. -/
theorem FirstBoundary.leaves_of_leading {front' rest' : List (List Char)}
    (h : FirstBoundary rest front' rest') (hleading : BoundaryAt segments [] rest) :
    Leaves segments rest' := by
  obtain ⟨segment, hsegment, rfl⟩ := hleading.split
  have hline : '\n' ∉ segment := by rcases hsegment with rfl | rfl <;> decide
  exact .inner (h.1.cons hline) h.first

/-- The path below the application's sources that segments spell. -/
def Layout.belowApp (layout : Layout) (segments : List (List Char)) : Path :=
  (layout.appRoot.join (.ofString (String.ofList (['/'].intercalate segments)))).normalize

/-- Whether a text is a reference, trimmed and without a symbol, to something below the application's
sources. -/
structure IsAppReference (text : List Char) : Prop where
  noSymbol : '#' ∉ text
  oneLine : '\n' ∉ text
  trimmed : IsTrimmed isBlank text
  noDot : text.head? ≠ some '.'
  noProject : ¬ "src/".toList <+: text

theorem isAbsolute_ofString {text : String} (h : text.toList.head? ≠ some '/') :
    (Path.ofString text).isAbsolute = false := by
  rw [Path.isAbsolute, Path.ofString]
  cases htext : text.toList with
  | nil => rfl
  | cons c rest =>
    have hc : c ≠ '/' := fun hc => h (by rw [htext, hc, List.head?_cons])
    simp [Anchor.ofText, hc]

theorem referenceName_of_trimmed {reference : String} (hsymbol : '#' ∉ reference.toList)
    (h : IsTrimmed isBlank reference.toList) : referenceName reference = reference.toList := by
  have hkept : reference.toList.takeWhile (· != '#') = reference.toList :=
    List.takeWhile_eq_self_iff.mpr fun c hc => bne_iff_ne.mpr fun heq => hsymbol (heq ▸ hc)
  rw [referenceName, hkept, strip, trim_of_isTrimmed h]

theorem basePath_of_app (layout : Layout) (source : Path) {name : List Char} (hdot : name.head? ≠ some '.')
    (hproject : ¬ "src/".toList <+: name) :
    layout.basePath name source = layout.belowApp (fields '/' (dropBoundary name)) := by
  have hdot' : (name.head? == some '.') = false := by simpa using hdot
  have hproject' : (after? "src/".toList name).isSome = false := by
    rw [← Bool.not_eq_true, after?_isSome_iff]
    exact hproject
  rw [Layout.basePath, Layout.belowApp, intercalate_fields]
  simp only [hdot', hproject', Bool.false_eq_true, if_false]

/-- A reference is looked up behind its first boundary, or as it is if it has none; but behind the second
one if the first leads it. So `app/` and `@app/` stand for the application's sources in front of a path
without a boundary of its own. -/
theorem basePath_firstBoundary (layout : Layout) (source : Path) {reference : String}
    (h : IsAppReference reference.toList) :
    ((∀ front rest, ¬ BoundaryAt (fields '/' reference.toList) front rest) →
      layout.basePath (referenceName reference) source =
        (layout.appRoot.join (.ofString reference)).normalize) ∧
    (∀ front rest, FirstBoundary (fields '/' reference.toList) front rest →
      (front = [] → ∀ front' rest', ¬ BoundaryAt rest front' rest') →
      layout.basePath (referenceName reference) source = layout.belowApp rest) ∧
    (∀ rest front' rest', BoundaryAt (fields '/' reference.toList) [] rest →
      FirstBoundary rest front' rest' →
      layout.basePath (referenceName reference) source = layout.belowApp rest') ∧
    ∀ inner : String, reference = "app/" ++ inner ∨ reference = "@app/" ++ inner →
      inner.toList.head? ≠ some '/' → (∀ front rest, ¬ BoundaryAt (fields '/' inner.toList) front rest) →
      layout.basePath (referenceName reference) source =
        Path.normalize ⟨layout.appRoot.anchor, layout.appRoot.names ++ (Path.ofString inner).names⟩ := by
  have hbase : layout.basePath (referenceName reference) source =
      layout.belowApp (fields '/' (dropBoundary reference.toList)) := by
    rw [referenceName_of_trimmed h.noSymbol h.trimmed]
    exact basePath_of_app layout source h.noDot h.noProject
  have hleaves {rest : List (List Char)} (hrest : Leaves (fields '/' reference.toList) rest) :
      layout.basePath (referenceName reference) source = layout.belowApp rest := by
    rw [hbase, (leaves_dropBoundary reference.toList).unique hrest]
  refine ⟨fun hnone => ?_, fun front rest hfirst honly => hleaves (hfirst.leaves honly),
    fun rest front' rest' hleading hfirst => hleaves (hfirst.leaves_of_leading hleading),
    fun inner hinner hslash hnone => ?_⟩
  · rw [hleaves (.whole hnone), Layout.belowApp, intercalate_fields, String.ofList_toList]
  · obtain ⟨segment, hsegment, htext⟩ : ∃ segment, NamesApp segment ∧
        reference.toList = segment ++ '/' :: inner.toList := by
      rcases hinner with rfl | rfl
      · exact ⟨"app".toList, .inl rfl, by simp⟩
      · exact ⟨"@app".toList, .inr rfl, by simp⟩
    have hfirst : FirstBoundary (fields '/' reference.toList) [] (fields '/' inner.toList) := by
      rw [htext, fields_append hsegment.slash_not_mem]
      exact ⟨⟨⟨segment, hsegment, rfl⟩, fields_ne_nil _ _, by simp⟩, by simp⟩
    rw [hleaves (hfirst.leaves fun _ => hnone), Layout.belowApp, intercalate_fields, String.ofList_toList]
    rw [Path.join, isAbsolute_ofString hslash, if_neg Bool.false_ne_true]

def shopLayout : Layout := ⟨.ofString "proj", .ofString "proj/src/app"⟩

theorem basePath_innerApp : IsAppReference "libs/app/orders/app/list".toList ∧
    FirstBoundary (fields '/' "libs/app/orders/app/list".toList) ["libs".toList]
      (fields '/' "orders/app/list".toList) ∧
    shopLayout.basePath (referenceName "libs/app/orders/app/list") (.ofString "proj/src/app/a.ts") =
      .ofString "proj/src/app/orders/app/list" := by
  have h : IsAppReference "libs/app/orders/app/list".toList :=
    ⟨by decide, by decide, by decide, by decide, by decide⟩
  have hfirst : FirstBoundary (fields '/' "libs/app/orders/app/list".toList) ["libs".toList]
      (fields '/' "orders/app/list".toList) :=
    ⟨⟨⟨"app".toList, by decide, by decide⟩, by decide, by decide⟩, by decide⟩
  refine ⟨h, hfirst, ?_⟩
  rw [(basePath_firstBoundary shopLayout _ h).2.1 _ _ hfirst (by simp)]
  decide

/-- Behind a leading boundary a second one is taken, so that what stands between them is lost. -/
theorem basePath_leadingApp_ne : IsAppReference "app/orders/app/list".toList ∧
    FirstBoundary (fields '/' "app/orders/app/list".toList) [] (fields '/' "orders/app/list".toList) ∧
    shopLayout.basePath (referenceName "app/orders/app/list") (.ofString "proj/src/app/a.ts") ≠
      shopLayout.belowApp (fields '/' "orders/app/list".toList) := by
  refine ⟨⟨by decide, by decide, by decide, by decide, by decide⟩,
    ⟨⟨⟨"app".toList, by decide, by decide⟩, by decide, by decide⟩, by decide⟩, ?_⟩
  decide

end Routing

end RouteInventory
