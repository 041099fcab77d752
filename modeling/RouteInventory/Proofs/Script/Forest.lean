import RouteInventory.Proofs.Script.Bracket

/-!
# Forests of spans

The spans of a text lie one behind another or one within another (`Tiled`). `Span.allOf` lists them in
the order of their opening brackets, and one stands among the spans inside another exactly if its
brackets stand between the other's (`Tiled.mem_allOf_iff`).
-/

namespace RouteInventory.Script

/-- Induction over spans: a property of the spans inside the first and of those behind it. -/
theorem forest_induction {P : List Span → Prop} (nil : P [])
    (cons : ∀ s rest, P s.children → P rest → P (s :: rest)) : ∀ roots, P roots
  | [] => nil
  | ⟨kind, start, stop, children⟩ :: rest =>
    cons ⟨kind, start, stop, children⟩ rest (forest_induction nil cons children)
      (forest_induction nil cons rest)

namespace Span

mutual

/-- The brackets of a span and of those inside it, from left to right. -/
def brackets : Span → List (Nat × Mark)
  | ⟨kind, start, stop, children⟩ =>
    (start, .opens kind) :: (bracketsOf children ++ [(stop, .closes kind)])

def bracketsOf : List Span → List (Nat × Mark)
  | [] => []
  | s :: rest => brackets s ++ bracketsOf rest

end

mutual

/-- A span and those inside it, in the order of their opening brackets. -/
def all : Span → List Span
  | ⟨kind, start, stop, children⟩ => ⟨kind, start, stop, children⟩ :: allOf children

def allOf : List Span → List Span
  | [] => []
  | s :: rest => all s ++ allOf rest

end

theorem brackets_eq (s : Span) :
    s.brackets = (s.start, .opens s.kind) :: (bracketsOf s.children ++ [(s.stop, .closes s.kind)]) := by
  cases s
  rw [brackets]

theorem all_eq (s : Span) : s.all = s :: allOf s.children := by
  cases s
  rw [all]

theorem allOf_cons (s : Span) (rest : List Span) :
    allOf (s :: rest) = s :: (allOf s.children ++ allOf rest) := by rw [allOf, all_eq, List.cons_append]

theorem bracketsOf_append (a b : List Span) :
    bracketsOf (a ++ b) = bracketsOf a ++ bracketsOf b := by
  induction a with
  | nil => rw [List.nil_append, bracketsOf, List.nil_append]
  | cons s rest ih => rw [List.cons_append, bracketsOf, bracketsOf, ih, List.append_assoc]

theorem bracketsOf_singleton (s : Span) : bracketsOf [s] = s.brackets := by
  rw [bracketsOf, bracketsOf, List.append_nil]

end Span

open Script.Span

/-! ### Brackets that have been nested -/

/-- The brackets that open spans and the spans inside them have had so far. -/
def openBrackets : List OpenSpan → List (Nat × Mark)
  | [] => []
  | top :: below =>
    openBrackets below ++ (top.start, .opens top.kind) :: bracketsOf top.children.reverse

theorem bracketsOf_nest {stack : List OpenSpan} {roots result : List Span} {marks : List (Nat × Mark)}
    (h : nest stack roots marks = .ok result) :
    bracketsOf roots.reverse ++ (openBrackets stack ++ marks) = bracketsOf result := by
  -- each step moves one bracket over, from the marks to the stack or to a span that is closed
  fun_induction nest stack roots marks with
  | case1 roots =>
    cases h
    simp [openBrackets]
  | case2 => cases h
  | case3 stack roots offset kind rest ih =>
    rw [← ih h]
    simp [openBrackets, bracketsOf]
  | case4 => cases h
  | case5 roots offset rest top span ih =>
    rw [← ih h]
    simp [openBrackets, bracketsOf_append, bracketsOf_singleton, brackets_eq, span]
  | case6 top roots offset rest outer more span ih =>
    rw [← ih h]
    simp [openBrackets, bracketsOf_append, bracketsOf_singleton, brackets_eq, span]
  | case7 => cases h

theorem bracketsOf_spans {text : List Char} {roots : List Span} (h : spans text = .ok roots) :
    bracketsOf roots = marks text := by
  unfold spans at h
  split at h
  · rename_i result hnest
    cases h
    exact (bracketsOf_nest hnest).symm
  · cases h

/-! ### Where spans lie -/

theorem le_of_mem_codeChars {start offset : Nat} {c : Char} {list : List Segment}
    (h : (offset, c) ∈ codeChars start list) : start ≤ offset := by
  obtain ⟨front, back, -, rfl⟩ := exists_of_mem_codeChars h
  exact Nat.le_add_right ..

theorem pairwise_codeChars (start : Nat) (list : List Segment) :
    (codeChars start list).Pairwise fun a b => a.1 < b.1 := by
  fun_induction codeChars start list with
  | case1 => exact List.Pairwise.nil
  | case2 start c rest ih =>
    exact List.pairwise_cons.mpr ⟨fun b hb => Nat.lt_of_succ_le (le_of_mem_codeChars hb), ih⟩
  | case3 start s rest _ ih => exact ih

theorem pairwise_marks (text : List Char) : (marks text).Pairwise fun a b => a.1 < b.1 := by
  refine List.Pairwise.filterMap _ (fun a a' haa b hb b' hb' => ?_) (pairwise_codeChars 0 _)
  obtain ⟨_, -, rfl⟩ := Option.map_eq_some_iff.mp hb
  obtain ⟨_, -, rfl⟩ := Option.map_eq_some_iff.mp hb'
  exact haa

/-- Spans that lie one behind another between two offsets, and so do those inside each. -/
inductive Tiled : Nat → Nat → List Span → Prop
  | nil (low high : Nat) : Tiled low high []
  | cons {low high : Nat} {s : Span} {rest : List Span} (hstart : low ≤ s.start)
      (hstop : s.start < s.stop) (hhigh : s.stop < high) (hchildren : Tiled (s.start + 1) s.stop s.children)
      (hrest : Tiled (s.stop + 1) high rest) : Tiled low high (s :: rest)

theorem tiled_of_pairwise (roots : List Span) : ∀ {low high : Nat},
    (bracketsOf roots).Pairwise (fun a b => a.1 < b.1) →
      (∀ m ∈ bracketsOf roots, low ≤ m.1 ∧ m.1 < high) → Tiled low high roots := by
  induction roots using forest_induction with
  | nil => exact fun _ _ => .nil _ _
  | cons s rest ihchildren ihrest =>
    intro low high hpairs hbounds
    rw [bracketsOf, brackets_eq] at hpairs hbounds
    rw [List.cons_append, List.append_assoc, List.pairwise_cons, List.pairwise_append,
      List.singleton_append, List.pairwise_cons] at hpairs
    obtain ⟨hopen, hinner, ⟨hclose, hrest⟩, hacross⟩ := hpairs
    simp only [List.cons_append, List.append_assoc, List.forall_mem_cons, List.forall_mem_append]
      at hbounds hopen hacross
    obtain ⟨hstart, hinside, hstop, -, hbehind⟩ := hbounds
    refine .cons hstart.1 hopen.2.1 hstop.2 (ihchildren hinner fun m hm => ?_)
      (ihrest hrest fun m hm => ⟨hclose m hm, (hbehind m hm).2⟩)
    exact ⟨hopen.1 m hm, (hacross m hm).1⟩

theorem tiled_spans {text : List Char} {roots : List Span} (h : spans text = .ok roots) :
    Tiled 0 text.length roots := by
  have hmarks := bracketsOf_spans h
  refine tiled_of_pairwise roots (hmarks ▸ pairwise_marks text) fun m hm => ⟨Nat.zero_le _, ?_⟩
  rw [hmarks] at hm
  exact (List.getElem?_eq_some_iff.mp (getElem?_of_mem_marks hm)).1

theorem mem_allOf_of_mem {roots : List Span} {s : Span} (h : s ∈ roots) : s ∈ allOf roots := by
  induction roots with
  | nil => cases h
  | cons r rest ih =>
    rw [allOf_cons, List.mem_cons, List.mem_append]
    rcases List.mem_cons.mp h with rfl | h
    · exact .inl rfl
    · exact .inr (.inr (ih h))

/-- Whether one span lies within another. -/
def Span.Encloses (outer inner : Span) : Prop := outer.start < inner.start ∧ inner.stop < outer.stop

namespace Tiled

variable {low high : Nat} {roots : List Span} {r s : Span}

theorem bounds (h : Tiled low high roots) (hs : s ∈ allOf roots) :
    low ≤ s.start ∧ s.start < s.stop ∧ s.stop < high := by
  induction h with
  | nil => cases hs
  | cons hstart hstop hhigh _ _ ihchildren ihrest =>
    rw [allOf_cons, List.mem_cons, List.mem_append] at hs
    rcases hs with rfl | hs | hs
    · exact ⟨hstart, hstop, hhigh⟩
    · have := ihchildren hs
      omega
    · have := ihrest hs
      omega

theorem children (h : Tiled low high roots) (hs : s ∈ allOf roots) :
    Tiled (s.start + 1) s.stop s.children := by
  induction h with
  | nil => cases hs
  | cons _ _ _ hchildren _ ihchildren ihrest =>
    rw [allOf_cons, List.mem_cons, List.mem_append] at hs
    rcases hs with rfl | hs | hs
    · exact hchildren
    · exact ihchildren hs
    · exact ihrest hs

theorem pairwise_start (h : Tiled low high roots) :
    (allOf roots).Pairwise fun a b => a.start < b.start := by
  induction h with
  | nil => exact List.Pairwise.nil
  | cons hstart hstop hhigh hchildren hrest ihchildren ihrest =>
    rw [allOf_cons, List.pairwise_cons, List.pairwise_append]
    refine ⟨?_, ihchildren, ihrest, fun a ha b hb => ?_⟩
    · intro b hb
      rcases List.mem_append.mp hb with hb | hb
      · exact (hchildren.bounds hb).1
      · have := hrest.bounds hb
        omega
    · have := hchildren.bounds ha
      have := hrest.bounds hb
      omega

/-- Spans are the same, or one stands inside the other, or one ends before the other starts. -/
theorem laminar (h : Tiled low high roots) (hr : r ∈ allOf roots) (hs : s ∈ allOf roots) :
    r = s ∨ s ∈ allOf r.children ∨ r ∈ allOf s.children ∨ r.stop < s.start ∨ s.stop < r.start := by
  induction h with
  | nil => cases hs
  | cons hstart hstop hhigh hchildren hrest ihchildren ihrest =>
    rw [allOf_cons, List.mem_cons, List.mem_append] at hr hs
    rcases hr with rfl | hr | hr <;> rcases hs with rfl | hs | hs
    · exact .inl rfl
    · exact .inr (.inl hs)
    · have := hrest.bounds hs
      omega
    · exact .inr (.inr (.inl hr))
    · exact ihchildren hr hs
    · have := hchildren.bounds hr
      have := hrest.bounds hs
      omega
    · have := hrest.bounds hr
      omega
    · have := hchildren.bounds hs
      have := hrest.bounds hr
      omega
    · exact ihrest hr hs

theorem laminar_root (h : Tiled low high roots) (hr : r ∈ roots) (hs : s ∈ allOf roots) :
    r = s ∨ s ∈ allOf r.children ∨ r.stop < s.start ∨ s.stop < r.start := by
  induction h with
  | nil => cases hs
  | cons hstart hstop hhigh hchildren hrest ihchildren ihrest =>
    rw [allOf_cons, List.mem_cons, List.mem_append] at hs
    rcases List.mem_cons.mp hr with rfl | hr' <;> rcases hs with rfl | hs | hs
    · exact .inl rfl
    · exact .inr (.inl hs)
    · have := hrest.bounds hs
      omega
    · have := hrest.bounds (mem_allOf_of_mem hr')
      omega
    · have := hchildren.bounds hs
      have := hrest.bounds (mem_allOf_of_mem hr')
      omega
    · exact ihrest hr' hs

/-- Of two spans around a third, one stands inside the other. -/
theorem nested_of_encloses {q t : Span} (h : Tiled low high roots) (hq : q ∈ allOf roots)
    (hr : r ∈ allOf roots) (ht : t ∈ allOf roots) (hqt : q.Encloses t) (hrt : r.Encloses t) :
    q = r ∨ r ∈ allOf q.children ∨ q ∈ allOf r.children := by
  have := h.bounds ht
  obtain ⟨hqstart, hqstop⟩ := hqt
  obtain ⟨hrstart, hrstop⟩ := hrt
  rcases h.laminar hq hr with heq | hinside | hinside | hlt | hlt
  · exact .inl heq
  · exact .inr (.inl hinside)
  · exact .inr (.inr hinside)
  · omega
  · omega

/-- The spans inside another are those within it. -/
theorem mem_allOf_iff (h : Tiled low high roots) (hr : r ∈ allOf roots) (hs : s ∈ allOf roots) :
    s ∈ allOf r.children ↔ r.Encloses s := by
  constructor
  · intro hmem
    have := (h.children hr).bounds hmem
    exact ⟨by omega, by omega⟩
  · rintro ⟨hstart, hstop⟩
    have := h.bounds hr
    have := h.bounds hs
    rcases h.laminar hr hs with rfl | hmem | hmem | hlt | hlt
    · omega
    · exact hmem
    · have := (h.children hs).bounds hmem
      omega
    · omega
    · omega

end Tiled

theorem mem_allOf_trans {roots : List Span} {r s : Span} (hr : r ∈ allOf roots)
    (hs : s ∈ allOf r.children) : s ∈ allOf roots := by
  induction roots using forest_induction with
  | nil => cases hr
  | cons q rest ihchildren ihrest =>
    rw [allOf_cons, List.mem_cons, List.mem_append] at hr ⊢
    rcases hr with rfl | hr | hr
    · exact .inr (.inl hs)
    · exact .inr (.inl (ihchildren hr))
    · exact .inr (.inr (ihrest hr))

theorem mem_bracketsOf {roots : List Span} {s : Span} (h : s ∈ allOf roots) :
    (s.start, .opens s.kind) ∈ bracketsOf roots ∧ (s.stop, .closes s.kind) ∈ bracketsOf roots := by
  induction roots using forest_induction with
  | nil => cases h
  | cons r rest ihchildren ihrest =>
    rw [allOf_cons, List.mem_cons, List.mem_append] at h
    rw [bracketsOf, brackets_eq]
    rcases h with rfl | h | h
    · simp
    · simp [ihchildren h]
    · simp [ihrest h]

theorem getElem?_of_mem_spans {text : List Char} {roots : List Span} {s : Span}
    (h : spans text = .ok roots) (hs : s ∈ allOf roots) :
    text[s.start]? = some s.kind.opening ∧ text[s.stop]? = some s.kind.closing := by
  obtain ⟨hopens, hcloses⟩ := mem_bracketsOf hs
  rw [bracketsOf_spans h] at hopens hcloses
  exact ⟨getElem?_of_mem_marks hopens, getElem?_of_mem_marks hcloses⟩

end RouteInventory.Script
