import Mathlib
import RouteInventory.Script.Span

/-!
# Well-bracketed texts

`WellBracketed` is the grammar of brackets that close in the order opposite to the one in which they
were opened. `FaultIn` says which bracket of a sequence is at fault and how: the first closing one that
does not match, else the innermost one left open. `nest` nests exactly the well-bracketed sequences,
and refuses any other for the fault in it (`nest_eq_error_iff`). In between stands `openAfter?`, which
follows the open brackets from left to right.
-/

namespace RouteInventory.Script

/-- Brackets every one of which is closed by one of its kind, those inside it first. -/
inductive WellBracketed : List Mark → Prop
  | nil : WellBracketed []
  | enclose (kind : Bracket) {inner rest : List Mark} (hinner : WellBracketed inner)
      (hrest : WellBracketed rest) : WellBracketed (.opens kind :: (inner ++ .closes kind :: rest))

theorem WellBracketed.append {a b : List Mark} (ha : WellBracketed a) (hb : WellBracketed b) :
    WellBracketed (a ++ b) := by
  induction ha with
  | nil => exact hb
  | enclose kind hinner _ _ ih =>
    rw [List.cons_append, List.append_assoc, List.cons_append]
    exact .enclose kind hinner ih

/-- Whether the innermost bracket that a sequence leaves open is of a kind and stands at an offset. -/
def LeavesOpen (marks : List (Nat × Mark)) (start : Nat) (kind : Bracket) : Prop :=
  ∃ outer inner, marks = outer ++ (start, .opens kind) :: inner ∧ WellBracketed (inner.map (·.2))

/-- Whether every closing bracket matches the innermost one that is open before it. -/
def ClosersMatch (marks : List (Nat × Mark)) : Prop :=
  ∀ before offset kind after, marks = before ++ (offset, .closes kind) :: after →
    ∃ start, LeavesOpen before start kind

/-- What is wrong with a sequence of brackets, and with which of them. -/
inductive FaultIn (marks : List (Nat × Mark)) : Nat → Imbalance → Prop
  | unexpected {before after : List (Nat × Mark)} {offset : Nat} {kind : Bracket}
      (hmarks : marks = before ++ (offset, .closes kind) :: after) (hbefore : ClosersMatch before)
      (hkind : ∀ start, ¬ LeavesOpen before start kind) : FaultIn marks offset (.unexpected kind)
  | unclosed {start : Nat} {kind : Bracket} (hclosers : ClosersMatch marks)
      (hopen : LeavesOpen marks start kind) : FaultIn marks start (.unclosed kind)

/-! ### Open brackets -/

/-- The brackets that are open behind a sequence, innermost first, where some were open before it; none
if a closing bracket does not match. -/
def openAfter? : List (Nat × Bracket) → List (Nat × Mark) → Option (List (Nat × Bracket))
  | stack, [] => some stack
  | stack, (offset, .opens kind) :: rest => openAfter? ((offset, kind) :: stack) rest
  | [], (_, .closes _) :: _ => none
  | top :: below, (_, .closes kind) :: rest => if top.2 = kind then openAfter? below rest else none

theorem openAfter?_append (stack : List (Nat × Bracket)) (a b : List (Nat × Mark)) :
    openAfter? stack (a ++ b) = (openAfter? stack a).bind fun stack => openAfter? stack b := by
  fun_induction openAfter? stack a with
  | case1 => rfl
  | case2 stack offset kind rest ih => rw [List.cons_append, openAfter?, ih]
  | case3 => rfl
  | case4 top below offset rest ih => rw [List.cons_append, openAfter?, if_pos rfl, ih]
  | case5 top below offset kind rest hkind => rw [List.cons_append, openAfter?, if_neg hkind]; rfl

/-- A closing bracket behind a sequence is taken if the innermost open bracket is of its kind. -/
theorem openAfter?_closes (stack : List (Nat × Bracket)) (offset : Nat) (kind : Bracket) :
    openAfter? stack [(offset, .closes kind)] =
      if stack.head?.map (·.2) = some kind then some stack.tail else none := by
  cases stack with
  | nil => rfl
  | cons top below => simp [openAfter?]

variable {marks before : List (Nat × Mark)} {stack below : List (Nat × Bracket)}

theorem openAfter?_of_wellBracketed (h : WellBracketed (marks.map (·.2)))
    (stack : List (Nat × Bracket)) : openAfter? stack marks = some stack := by
  generalize hm : marks.map (·.2) = word at h
  induction h generalizing marks stack with
  | nil =>
    rw [List.map_eq_nil_iff.mp hm]
    rfl
  | enclose kind _ _ ihinner ihrest =>
    obtain ⟨⟨start, m⟩, tail, rfl, hstart, htail⟩ := List.map_eq_cons_iff.mp hm
    obtain ⟨inner, closed, rfl, hinner, hclosed⟩ := List.map_eq_append_iff.mp htail
    obtain ⟨⟨stop, n⟩, rest, rfl, hstop, hrest⟩ := List.map_eq_cons_iff.mp hclosed
    obtain rfl : m = .opens kind := hstart
    obtain rfl : n = .closes kind := hstop
    rw [openAfter?, openAfter?_append, ihinner _ hinner, Option.bind_some, openAfter?, if_pos rfl,
      ihrest _ hrest]

/-- Whether a sequence leaves certain brackets open, innermost first. -/
inductive Leaves : List (Nat × Mark) → List (Nat × Bracket) → Prop
  | closed {marks : List (Nat × Mark)} (h : WellBracketed (marks.map (·.2))) : Leaves marks []
  | opened {outer inner : List (Nat × Mark)} {below : List (Nat × Bracket)} {start : Nat}
      {kind : Bracket} (houter : Leaves outer below) (hinner : WellBracketed (inner.map (·.2))) :
      Leaves (outer ++ (start, .opens kind) :: inner) ((start, kind) :: below)

namespace Leaves

theorem openAfter? (h : Leaves marks stack) : openAfter? [] marks = some stack := by
  induction h with
  | closed h => exact openAfter?_of_wellBracketed h []
  | opened _ hinner ih =>
    rw [openAfter?_append, ih, Option.bind_some, Script.openAfter?, openAfter?_of_wellBracketed hinner]

theorem append_closed (h : Leaves before stack) (hmarks : WellBracketed (marks.map (·.2))) :
    Leaves (before ++ marks) stack := by
  cases h with
  | closed h => exact .closed (by rw [List.map_append]; exact h.append hmarks)
  | opened houter hinner =>
    rw [List.append_assoc, List.cons_append]
    exact .opened houter (by rw [List.map_append]; exact hinner.append hmarks)

theorem close {start stop : Nat} {kind : Bracket} (h : Leaves marks ((start, kind) :: below)) :
    Leaves (marks ++ [(stop, .closes kind)]) below := by
  cases h with
  | opened houter hinner =>
    rw [List.append_assoc]
    refine houter.append_closed ?_
    simpa using WellBracketed.enclose kind hinner .nil

theorem run (h : Leaves before stack) (hrun : Script.openAfter? stack marks = some below) :
    Leaves (before ++ marks) below := by
  fun_induction Script.openAfter? stack marks generalizing before with
  | case1 =>
    cases hrun
    rwa [List.append_nil]
  | case2 stack offset kind rest ih =>
    have hopened : Leaves (before ++ [(offset, .opens kind)]) ((offset, kind) :: stack) :=
      .opened h (show WellBracketed ([].map Prod.snd) from .nil)
    have hrest := ih hopened hrun
    rwa [List.append_assoc] at hrest
  | case3 => cases hrun
  | case4 top below offset rest ih =>
    have hclosed : Leaves (before ++ [(offset, .closes top.2)]) below := h.close
    have hrest := ih hclosed hrun
    rwa [List.append_assoc] at hrest
  | case5 => cases hrun

end Leaves

theorem openAfter?_eq_some_iff : openAfter? [] marks = some stack ↔ Leaves marks stack :=
  ⟨(Leaves.closed (show WellBracketed ([].map Prod.snd) from .nil)).run, Leaves.openAfter?⟩

theorem wellBracketed_iff : WellBracketed (marks.map (·.2)) ↔ openAfter? [] marks = some [] := by
  rw [openAfter?_eq_some_iff]
  constructor
  · exact .closed
  · intro h
    cases h
    assumption

theorem leavesOpen_iff {start : Nat} {kind : Bracket} (h : openAfter? [] marks = some stack) :
    LeavesOpen marks start kind ↔ stack.head? = some (start, kind) := by
  constructor
  · rintro ⟨outer, inner, rfl, hinner⟩
    rw [openAfter?_append] at h
    obtain ⟨below, -, h⟩ := Option.bind_eq_some_iff.mp h
    rw [openAfter?, openAfter?_of_wellBracketed hinner] at h
    obtain rfl := Option.some.inj h
    rfl
  · intro hhead
    obtain ⟨below, rfl⟩ := List.head?_eq_some_iff.mp hhead
    cases openAfter?_eq_some_iff.mp h with
    | opened _ hinner => exact ⟨_, _, rfl, hinner⟩

theorem exists_leavesOpen_iff {kind : Bracket} (h : openAfter? [] marks = some stack) :
    (∃ start, LeavesOpen marks start kind) ↔ stack.head?.map (·.2) = some kind := by
  simp only [leavesOpen_iff h, Option.map_eq_some_iff, Prod.exists]
  constructor
  · rintro ⟨start, hhead⟩
    exact ⟨start, kind, hhead, rfl⟩
  · rintro ⟨start, _, hhead, rfl⟩
    exact ⟨start, hhead⟩

/-- A sequence with a closing bracket that does not match has a first one. -/
theorem exists_mismatch (h : openAfter? stack marks = none) : ∃ before offset kind after open',
    marks = before ++ (offset, .closes kind) :: after ∧ openAfter? stack before = some open' ∧
      open'.head?.map (·.2) ≠ some kind := by
  fun_induction openAfter? stack marks with
  | case1 => cases h
  | case2 stack offset kind rest ih =>
    obtain ⟨before, stop, closing, after, open', rfl, hbefore, hkind⟩ := ih h
    exact ⟨(offset, .opens kind) :: before, stop, closing, after, open', rfl, hbefore, hkind⟩
  | case3 offset kind rest => exact ⟨[], offset, kind, rest, [], rfl, rfl, nofun⟩
  | case4 top below offset rest ih =>
    obtain ⟨before, stop, closing, after, open', rfl, hbefore, hkind⟩ := ih h
    exact ⟨(offset, .closes top.2) :: before, stop, closing, after, open', rfl,
      by rw [openAfter?, if_pos rfl, hbefore], hkind⟩
  | case5 top below offset kind rest hkind =>
    exact ⟨[], offset, kind, rest, top :: below, rfl, rfl, by simpa using hkind⟩

theorem closersMatch_iff : ClosersMatch marks ↔ ∃ stack, openAfter? [] marks = some stack := by
  constructor
  · intro h
    cases hopen : openAfter? [] marks with
    | some stack => exact ⟨stack, rfl⟩
    | none =>
      obtain ⟨before, offset, kind, after, open', rfl, hbefore, hkind⟩ := exists_mismatch hopen
      exact absurd ((exists_leavesOpen_iff hbefore).mp (h before offset kind after rfl)) hkind
  · rintro ⟨stack, h⟩ before offset kind after rfl
    rw [openAfter?_append] at h
    obtain ⟨open', hbefore, h⟩ := Option.bind_eq_some_iff.mp h
    rw [← List.singleton_append, openAfter?_append, openAfter?_closes] at h
    rw [exists_leavesOpen_iff hbefore]
    by_cases hkind : open'.head?.map (·.2) = some kind
    · exact hkind
    · rw [if_neg hkind] at h
      cases h

/-! ### Nesting -/

def OpenSpan.key (s : OpenSpan) : Nat × Bracket := (s.start, s.kind)

/-- Nesting goes on behind a sequence whose closing brackets match with what is open then. -/
theorem nest_append (spans : List OpenSpan) (roots : List Span)
    (h : openAfter? (spans.map OpenSpan.key) before = some stack) :
    ∃ spans' roots', spans'.map OpenSpan.key = stack ∧
      ∀ rest, nest spans roots (before ++ rest) = nest spans' roots' rest := by
  induction before generalizing spans roots with
  | nil => exact ⟨spans, roots, Option.some.inj h, fun _ => rfl⟩
  | cons first tail ih =>
    match first, spans with
    | (offset, .opens kind), spans =>
      obtain ⟨spans', roots', hkeys, hnest⟩ := ih (⟨kind, offset, []⟩ :: spans) roots h
      exact ⟨spans', roots', hkeys, fun rest => by rw [List.cons_append, nest, hnest]⟩
    | (offset, .closes kind), [] => cases h
    | (offset, .closes kind), [top] =>
      rw [List.map_cons, openAfter?, Option.ite_none_right_eq_some] at h
      obtain ⟨hkind : top.kind = kind, h⟩ := h
      obtain ⟨spans', roots', hkeys, hnest⟩ :=
        ih [] (⟨kind, top.start, offset, top.children.reverse⟩ :: roots) h
      exact ⟨spans', roots', hkeys, fun rest => by
        rw [List.cons_append, nest, if_pos hkind, ← hnest]⟩
    | (offset, .closes kind), top :: outer :: more =>
      rw [List.map_cons, openAfter?, Option.ite_none_right_eq_some] at h
      obtain ⟨hkind : top.kind = kind, h⟩ := h
      let span : Span := ⟨kind, top.start, offset, top.children.reverse⟩
      obtain ⟨spans', roots', hkeys, hnest⟩ :=
        ih ({ outer with children := span :: outer.children } :: more) roots h
      exact ⟨spans', roots', hkeys, fun rest => by
        rw [List.cons_append, nest, if_pos hkind, ← hnest]⟩

/-- A closing bracket that does not match is where nesting stops. -/
theorem nest_mismatch {spans : List OpenSpan} {kind : Bracket} (roots : List Span) (offset : Nat)
    (rest : List (Nat × Mark)) (h : (spans.map OpenSpan.key).head?.map (·.2) ≠ some kind) :
    nest spans roots ((offset, .closes kind) :: rest) = .error (offset, .unexpected kind) := by
  cases spans with
  | nil => rfl
  | cons top below =>
    have hkind : top.kind ≠ kind := fun hkind => h (congrArg some hkind)
    rw [nest, if_neg hkind]

variable {offset : Nat} {imbalance : Imbalance}

theorem FaultIn.nest (h : FaultIn marks offset imbalance) :
    nest [] [] marks = .error (offset, imbalance) := by
  cases h with
  | unexpected hmarks hbefore hkind =>
    obtain ⟨stack, hstack⟩ := closersMatch_iff.mp hbefore
    obtain ⟨spans, roots, rfl, hnest⟩ := nest_append [] [] hstack
    rw [hmarks, hnest]
    refine nest_mismatch roots _ _ fun hhead => ?_
    obtain ⟨start, hopen⟩ := (exists_leavesOpen_iff hstack).mpr hhead
    exact hkind start hopen
  | unclosed hclosers hopen =>
    obtain ⟨stack, hstack⟩ := closersMatch_iff.mp hclosers
    obtain ⟨spans, roots, rfl, hnest⟩ := nest_append [] [] hstack
    have hhead := (leavesOpen_iff hstack).mp hopen
    rw [← List.append_nil marks, hnest]
    cases spans with
    | nil => cases hhead
    | cons top below =>
      obtain ⟨rfl, rfl⟩ := Prod.mk.inj (Option.some.inj hhead)
      rfl

/-- A sequence is well-bracketed, and then it nests, or there is a fault in it. -/
theorem wellBracketed_or_faultIn (marks : List (Nat × Mark)) :
    (WellBracketed (marks.map (·.2)) ∧ ∃ roots, nest [] [] marks = .ok roots) ∨
      ∃ offset imbalance, FaultIn marks offset imbalance := by
  cases hopen : openAfter? [] marks with
  | none =>
    obtain ⟨before, offset, kind, after, stack, hmarks, hbefore, hkind⟩ := exists_mismatch hopen
    refine .inr ⟨offset, .unexpected kind, .unexpected hmarks (closersMatch_iff.mpr ⟨_, hbefore⟩) ?_⟩
    intro start hleaves
    exact hkind ((exists_leavesOpen_iff hbefore).mp ⟨start, hleaves⟩)
  | some stack =>
    cases stack with
    | nil =>
      obtain ⟨spans, roots, hkeys, hnest⟩ := nest_append [] [] hopen
      obtain rfl := List.map_eq_nil_iff.mp hkeys
      refine .inl ⟨wellBracketed_iff.mpr hopen, roots.reverse, ?_⟩
      rw [← List.append_nil marks, hnest, Script.nest]
    | cons top below =>
      refine .inr ⟨top.1, .unclosed top.2, .unclosed (closersMatch_iff.mpr ⟨_, hopen⟩) ?_⟩
      exact (leavesOpen_iff hopen).mpr rfl

/-- Nesting fails exactly at the bracket at fault. -/
theorem nest_eq_error_iff :
    nest [] [] marks = .error (offset, imbalance) ↔ FaultIn marks offset imbalance := by
  refine ⟨fun h => ?_, FaultIn.nest⟩
  obtain ⟨-, roots, hroots⟩ | ⟨offset', imbalance', hfault⟩ := wellBracketed_or_faultIn marks
  · rw [hroots] at h
    cases h
  · have hnest := hfault.nest
    rw [h] at hnest
    cases hnest
    exact hfault

theorem exists_faultIn_iff :
    (∃ offset imbalance, FaultIn marks offset imbalance) ↔ ¬ WellBracketed (marks.map (·.2)) := by
  constructor
  · rintro ⟨offset, imbalance, hfault⟩ h
    obtain ⟨spans, roots, hkeys, hnest⟩ := nest_append [] [] (wellBracketed_iff.mp h)
    obtain rfl := List.map_eq_nil_iff.mp hkeys
    have hok := hfault.nest
    rw [← List.append_nil marks, hnest] at hok
    cases hok
  · intro h
    exact (wellBracketed_or_faultIn marks).resolve_left fun hwell => h hwell.1

/-! ### Brackets of a text -/

def Mark.char : Mark → Char
  | opens kind => kind.opening
  | closes kind => kind.closing

theorem Mark.char_ne_space (mark : Mark) : mark.char ≠ ' ' := by
  cases mark with
  | opens kind => cases kind <;> decide
  | closes kind => cases kind <;> decide

theorem Mark.char_of_ofChar? {c : Char} {mark : Mark} (h : Mark.ofChar? c = some mark) :
    mark.char = c := by
  unfold Mark.ofChar? at h
  split at h
  · next hc => cases h; exact hc.symm
  split at h
  · next hc => cases h; exact hc.symm
  split at h
  · next hc => cases h; exact hc.symm
  split at h
  · next hc => cases h; exact hc.symm
  · cases h

theorem exists_of_mem_codeChars {start : Nat} {c : Char} {list : List Segment}
    (h : (offset, c) ∈ codeChars start list) : ∃ front back,
      list = front ++ .code c :: back ∧ offset = start + (front.flatMap Segment.text).length := by
  fun_induction codeChars start list with
  | case1 => cases h
  | case2 start d rest ih =>
    obtain heq | hmem := List.mem_cons.mp h
    · obtain ⟨rfl, rfl⟩ := Prod.mk.inj heq
      exact ⟨[], rest, rfl, rfl⟩
    · obtain ⟨front, back, rfl, rfl⟩ := ih hmem
      refine ⟨.code d :: front, back, rfl, ?_⟩
      simp only [List.flatMap_cons, Segment.text, List.length_append, List.length_singleton]
      omega
  | case3 start s rest _ ih =>
    obtain ⟨front, back, rfl, rfl⟩ := ih h
    refine ⟨s :: front, back, rfl, ?_⟩
    simp only [List.flatMap_cons, List.length_append]
    omega

theorem getElem?_of_mem_marks {text : List Char} {mark : Mark} (h : (offset, mark) ∈ Script.marks text) :
    text[offset]? = some mark.char := by
  obtain ⟨⟨_, c⟩, hmem, hmark⟩ := List.mem_filterMap.mp h
  obtain ⟨_, hchar, heq⟩ := Option.map_eq_some_iff.mp hmark
  obtain ⟨rfl, rfl⟩ := Prod.mk.inj heq
  obtain ⟨front, back, hsegments, rfl⟩ := exists_of_mem_codeChars hmem
  rw [Mark.char_of_ofChar? hchar, ← text_segments .bare text, hsegments]
  simp [Segment.text]

/-- The bracket that an imbalance is about. -/
def Imbalance.mark : Imbalance → Mark
  | unexpected kind => .closes kind
  | unclosed kind => .opens kind

theorem FaultIn.mem (h : FaultIn marks offset imbalance) : (offset, imbalance.mark) ∈ marks := by
  cases h with
  | unexpected hmarks _ _ => simp [hmarks, Imbalance.mark]
  | unclosed _ hopen =>
    obtain ⟨outer, inner, rfl, -⟩ := hopen
    simp [Imbalance.mark]

end RouteInventory.Script
