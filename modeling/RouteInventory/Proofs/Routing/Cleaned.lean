import RouteInventory.Proofs.Script.Bracket
import RouteInventory.Proofs.Script.Comment
import RouteInventory.Routing.Module

/-!
# Reading cleaned modules

A routing module is read from its text with the comments blanked. It is refused exactly if the brackets
of the cleaned text do not balance, for the bracket at fault; lines are those of the text itself, since
blanking keeps the line feeds. Cleaning a cleaned text changes nothing where slashes keep their meaning
(`SlashesAgree`), and then no bracket and no flag is read from a comment.
-/

namespace RouteInventory.Routing

open Script Text

/-! ### Refused modules -/

theorem parseModule_eq_error {text : List Char} {fault : BracketFault} :
    parseModule text = .error fault ↔ ∃ offset imbalance,
      nest [] [] (marks (stripComments text)) = .error (offset, imbalance) ∧
        fault = ⟨lineOf text offset, imbalance⟩ := by
  have hline := (blankedTo_stripComments text).lineOf_eq
  unfold parseModule spans
  cases nest [] [] (marks (stripComments text)) with
  | ok roots => simp [Except.map]
  | error found =>
    obtain ⟨offset, imbalance⟩ := found
    simp [Except.map, hline, eq_comm]

/-- A routing module is refused exactly if the brackets in the code of its cleaned text are not well
bracketed, for the bracket at fault, which stands in the module at the offset that tells the line. -/
theorem parseModule_eq_error_iff_faultIn (text : List Char) :
    ((∃ fault, parseModule text = .error fault) ↔
      ¬ WellBracketed ((marks (stripComments text)).map (·.2))) ∧
    ∀ line imbalance, parseModule text = .error ⟨line, imbalance⟩ ↔ ∃ offset,
      FaultIn (marks (stripComments text)) offset imbalance ∧
        text[offset]? = some imbalance.mark.char ∧ line = (text.take offset).count '\n' + 1 := by
  have hfault : ∀ line imbalance, parseModule text = .error ⟨line, imbalance⟩ ↔ ∃ offset,
      FaultIn (marks (stripComments text)) offset imbalance ∧
        text[offset]? = some imbalance.mark.char ∧ line = (text.take offset).count '\n' + 1 := by
    intro line imbalance
    rw [parseModule_eq_error]
    constructor
    · rintro ⟨offset, imbalance, hnest, heq⟩
      obtain ⟨rfl, rfl⟩ := BracketFault.mk.inj heq
      have hfault := nest_eq_error_iff.mp hnest
      have hchar := (blankedTo_stripComments text).getElem?_of_ne imbalance.mark.char_ne_space
        (getElem?_of_mem_marks hfault.mem)
      exact ⟨offset, hfault, hchar, rfl⟩
    · rintro ⟨offset, hfault, -, rfl⟩
      exact ⟨offset, imbalance, nest_eq_error_iff.mpr hfault, rfl⟩
  refine ⟨?_, hfault⟩
  rw [← exists_faultIn_iff]
  constructor
  · rintro ⟨⟨line, imbalance⟩, herror⟩
    obtain ⟨offset, h, -⟩ := (hfault line imbalance).mp herror
    exact ⟨offset, imbalance, h⟩
  · rintro ⟨offset, imbalance, h⟩
    exact ⟨_, parseModule_eq_error.mpr ⟨offset, imbalance, nest_eq_error_iff.mpr h, rfl⟩⟩

/-! ### Cleaned twice -/

/-- The brackets in the code of some segments that stand at an offset. -/
def marksOf (offset : Nat) (segments : List Segment) : List (Nat × Mark) :=
  (codeChars offset segments).filterMap fun (offset, c) => (Mark.ofChar? c).map (offset, ·)

theorem marks_eq_marksOf (text : List Char) : marks text = marksOf 0 (segments .bare text) := rfl

theorem marksOf_cons (offset : Nat) (s : Segment) (rest : List Segment) :
    marksOf offset (s :: rest) = marksOf offset [s] ++ marksOf (offset + s.text.length) rest := by
  cases s with
  | code c => exact List.filterMap_append (l := [(offset, c)])
  | string | regex | lineComment | blockComment => rfl

theorem marksOf_comment {s : Segment} (h : s.isComment = true) (offset : Nat) : marksOf offset [s] = [] := by
  cases s with
  | code | string | regex => cases h
  | lineComment | blockComment => rfl

theorem marksOf_blanks {text : List Char} (h : ∀ c ∈ text, Mark.ofChar? c = none) (offset : Nat)
    (rest : List Segment) :
    marksOf offset (text.map .code ++ rest) = marksOf (offset + text.length) rest := by
  induction text generalizing offset with
  | nil => rfl
  | cons c text ih =>
    obtain ⟨hc, htext⟩ := List.forall_mem_cons.mp h
    have hnone : marksOf offset [.code c] = [] := by simp [marksOf, codeChars, hc]
    rw [List.map_cons, List.cons_append, marksOf_cons, hnone, List.nil_append, ih htext, Nat.add_assoc,
      Nat.add_comm _ text.length]
    rfl

/-- The blanks in the places of comments are no brackets. -/
theorem marksOf_flatMap_residue (offset : Nat) (segments : List Segment) :
    marksOf offset (segments.flatMap Segment.residue) = marksOf offset segments := by
  induction segments generalizing offset with
  | nil => rfl
  | cons s rest ih =>
    rw [List.flatMap_cons, marksOf_cons offset s rest]
    cases hs : s.isComment with
    | false => rw [(Segment.stripped_of_not_comment hs).2, List.singleton_append, marksOf_cons, ih]
    | true =>
      have hblank : ∀ c ∈ s.stripped, Mark.ofChar? c = none := by
        rw [Segment.stripped, if_pos hs]
        intro c hc
        obtain ⟨d, -, rfl⟩ := List.mem_map.mp hc
        unfold blankOut
        split <;> rfl
      rw [Segment.residue, if_pos hs, marksOf_blanks hblank, marksOf_comment hs, List.nil_append,
        s.length_stripped, ih]

/-- Where no slash is read otherwise for the comments before it, cleaning a module once is enough: the
cleaned module is clean, read alike, and its brackets are those that stand in code of the module. -/
theorem parseModule_stripComments {text : List Char} (h : SlashesAgree text) :
    stripComments (stripComments text) = stripComments text ∧
      parseModule (stripComments text) = parseModule text ∧
      usesHashRouting (stripComments text) = usesHashRouting text ∧
      marks (stripComments text) = marksOf 0 (segments .commented text) := by
  have hclean := stripComments_of_slashesAgree h
  refine ⟨hclean, ?_, ?_, ?_⟩
  · rw [parseModule, parseModule, hclean]
  · rw [usesHashRouting, usesHashRouting, hclean]
  · rw [marks_eq_marksOf, segments_stripComments .bare h, marksOf_flatMap_residue]

def ratio : List Char := "x = [ /[/]/, 4 /* ] */ / 2 ]; // ]".toList

theorem parseModule_stripComments_ratio : SlashesAgree ratio ∧
    stripComments (stripComments ratio) = stripComments ratio ∧
      parseModule (stripComments ratio) = parseModule ratio ∧
      usesHashRouting (stripComments ratio) = usesHashRouting ratio ∧
      marks (stripComments ratio) = marksOf 0 (segments .commented ratio) := by
  have h : SlashesAgree ratio := by decide +kernel
  exact ⟨h, parseModule_stripComments h⟩

/-- A comment before a regular expression, with another behind it. -/
def remark : List Char := "x = /**/ /\"/ // [ useHash: true".toList

/-- The slash is taken for a division behind the comment, so that the quote opens a string and the other
comment stays. It is taken for a regular expression behind the blanks. -/
theorem stripComments_stripComments_remark_ne :
    ¬ SlashesAgree remark ∧ stripComments (stripComments remark) ≠ stripComments remark ∧
      (parseModule remark).isOk = false ∧ (parseModule (stripComments remark)).isOk = true ∧
      usesHashRouting remark = true ∧ usesHashRouting (stripComments remark) = false := by
  decide +kernel

end RouteInventory.Routing
