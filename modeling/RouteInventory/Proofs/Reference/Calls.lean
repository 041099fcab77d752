import RouteInventory.Proofs.Text.Matches
import RouteInventory.Proofs.Text.Trim
import RouteInventory.Reference.Scanner

/-!
# The calls of a script

A script is put together from calls that navigate, in two forms, and code that does not mention the methods
(`Program`). Their names stand in it nowhere but in its calls, so each of the two patterns takes the calls of its
own form and passes over all else (`matchesBehind_calls`): the scanner refers to the first target of every call.
-/

namespace RouteInventory.Reference

open Script Text

/-! ### Scripts -/

/-- What the names of both methods begin with. -/
def methodKey : List Char := ".navigate".toList

/-- The forms of calls: one with an array of targets, and one with an address. -/
inductive CallForm
  | array
  | address
deriving DecidableEq, Repr

namespace CallForm

def name : CallForm → List Char
  | array => ".navigate(".toList
  | address => ".navigateByUrl(".toList

/-- What opens the array of targets. -/
def bracket : CallForm → List Char
  | array => ['[']
  | address => []

def pattern : CallForm → Pattern (List Char)
  | array => navigateCall
  | address => navigateByUrlCall

end CallForm

/-- A call up to the end of its first target, a literal on one line in quotes of any kind. Line feeds may be among
the blanks before it; the targets and arguments behind it are code that follows the call. -/
structure Call where
  form : CallForm
  blanks : List Char
  itemBlanks : List Char
  mark : Char
  target : List Char
  blank : ∀ c ∈ blanks, isBlank c = true
  itemBlank : ∀ c ∈ itemBlanks, isBlank c = true
  quotes : isQuote mark = true
  noMark : mark ∉ target
  oneLine : '\n' ∉ target
  noKey : ¬ methodKey <:+: target

/-- What stands in a call behind the name. -/
def Call.arguments (c : Call) : List Char :=
  c.blanks ++ (c.form.bracket ++ (c.itemBlanks ++ c.mark :: (c.target ++ [c.mark])))

def Call.text (c : Call) : List Char := c.form.name ++ c.arguments

/-- A text that does not mention the methods. -/
structure Code where
  text : List Char
  noKey : ¬ methodKey <:+: text

/-- The text of some calls with the code behind them. -/
def callsText (calls : List (Call × Code)) : List Char :=
  calls.flatMap fun (c, code) => c.text ++ code.text

structure Program where
  lead : Code
  calls : List (Call × Code)

def Program.text (p : Program) : List Char := p.lead.text ++ callsText p.calls

/-- Calls with the lines on which they begin, behind a text. -/
def placedCalls (before : List Char) : List (Call × Code) → List (Call × Nat)
  | [] => []
  | (c, code) :: rest =>
    (c, before.count '\n' + 1) :: placedCalls (before ++ (c.text ++ code.text)) rest

/-- The calls of one form with the lines on which they begin, in the order of the script. -/
def Program.callsOf (p : Program) (form : CallForm) : List (Call × Nat) :=
  (placedCalls p.lead.text p.calls).filter (·.1.form = form)

/-- Whether a route is known without the script being run. -/
def IsStatic (route : List Char) : Prop :=
  route ≠ [] ∧ ¬ "$\x7b".toList <:+: route ∧ backquote ∉ route

instance (route : List Char) : Decidable (IsStatic route) := inferInstanceAs (Decidable (_ ∧ _))

/-- What a call on a line of a file refers to, if its route is static. -/
def callReference? (path : String) (x : Call × Nat) : Option Reference :=
  if IsStatic (normalize x.1.target) then
    some ⟨String.ofList (normalize x.1.target), path, x.2, .typescript⟩
  else none

/-! ### The names in calls -/

variable {c : Call} {code : Code} {form : CallForm} {before y : List Char} {rest : List (Call × Code)}

theorem borderless_methodKey : Borderless methodKey := .of_tails (by decide)

theorem CallForm.methodKey_prefix_name (form : CallForm) : methodKey <+: form.name := by
  cases form <;> decide

theorem callsText_cons (c : Call) (code : Code) (rest : List (Call × Code)) :
    callsText ((c, code) :: rest) = c.text ++ (code.text ++ callsText rest) := by
  simp [callsText]

theorem Call.methodKey_prefix_text (c : Call) (y : List Char) : methodKey <+: c.text ++ y := by
  rw [Call.text, List.append_assoc]
  exact c.form.methodKey_prefix_name.trans (List.prefix_append _ _)

theorem Call.text_eq (c : Call) : c.text = '.' :: (c.form.name.tail ++ c.arguments) := by
  rw [Call.text]
  cases c.form <;> rfl

theorem Call.text_append (c : Call) (y : List Char) : c.text ++ y =
    c.form.name ++ (c.blanks ++ (c.form.bracket ++ (c.itemBlanks ++ c.mark :: (c.target ++ c.mark :: y)))) := by
  simp [Call.text, Call.arguments]

theorem interrupts_callsText (calls : List (Call × Code)) : Interrupts methodKey (callsText calls) := by
  cases calls with
  | nil => exact .inl rfl
  | cons x rest =>
    rw [callsText_cons]
    exact .inr (.inl (x.1.methodKey_prefix_text _))

theorem Call.mark_ne {d : Char} (c : Call) (hd : isQuote d = false) : d ≠ c.mark := by
  rintro rfl
  rw [c.quotes] at hd
  cases hd

/-- No name begins in a call behind its first character, up to the next call. -/
theorem spares_call (c : Call) (code : Code) (rest : List (Call × Code)) :
    Spares methodKey (c.form.name.tail ++ c.arguments ++ code.text) (callsText rest) := by
  have hname : '.' ∉ c.form.name.tail := by cases c.form <;> decide
  have hbracket : '.' ∉ c.form.bracket := by cases c.form <;> decide
  have hmark : '.' ∉ [c.mark] := by simpa using c.mark_ne (by decide)
  have hblanks : '.' ∉ c.blanks := fun h => ne_of_isBlank (c.blank _ h) (by decide) rfl
  have hitem : '.' ∉ c.itemBlanks := fun h => ne_of_isBlank (c.itemBlank _ h) (by decide) rfl
  have hfront : '.' ∉ c.form.name.tail ++ (c.blanks ++ (c.form.bracket ++ (c.itemBlanks ++ [c.mark]))) := by
    simp only [List.mem_append, not_or]
    exact ⟨hname, hblanks, hbracket, hitem, hmark⟩
  have htarget (y : List Char) : Spares methodKey c.target ([c.mark] ++ y) := by
    refine .of_borderless borderless_methodKey c.noKey (.inr (.inr ⟨c.mark, rfl, ?_⟩))
    intro hmem
    have hquote : ∀ d ∈ methodKey, isQuote d = false := by decide
    exact c.mark_ne (hquote c.mark hmem) rfl
  have hcode : Spares methodKey code.text (callsText rest) :=
    .of_borderless borderless_methodKey code.noKey (interrupts_callsText rest)
  have hsplit : c.form.name.tail ++ c.arguments ++ code.text =
      (c.form.name.tail ++ (c.blanks ++ (c.form.bracket ++ (c.itemBlanks ++ [c.mark])))) ++
        (c.target ++ ([c.mark] ++ code.text)) := by
    simp [Call.arguments]
  rw [hsplit]
  refine .append (.of_head hfront) (.append ?_ (.append (.of_head hmark) hcode))
  rw [List.append_assoc]
  exact htarget _

/-! ### The patterns -/

theorem CallForm.pattern_eq_none (form : CallForm) (before : Option Char) (text : List Char)
    (h : ¬ form.name <+: text) : form.pattern before text = none := by
  have hafter : after? form.name text = none := by
    rw [← Option.not_isSome_iff_eq_none, after?_isSome_iff]
    exact h
  cases form with
  | array =>
    rw [CallForm.pattern, navigateCall, show after? ".navigate(".toList text = none from hafter]
    rfl
  | address =>
    rw [CallForm.pattern, navigateByUrlCall, show after? ".navigateByUrl(".toList text = none from hafter]
    rfl

theorem CallForm.pattern_eq_none_of_key (form : CallForm) (before : Option Char) (text : List Char)
    (h : ¬ methodKey <+: text) : form.pattern before text = none :=
  form.pattern_eq_none before text fun hname => h (form.methodKey_prefix_name.trans hname)

theorem CallForm.eq_of_prefix {other : CallForm} (h : form.name <+: other.name ++ y) : form = other := by
  have hnames : form.name <+: other.name ∨ other.name <+: form.name :=
    List.prefix_or_prefix_of_prefix h (List.prefix_append _ _)
  revert hnames
  cases form <;> cases other <;> decide

theorem Call.lineLiteral?_append (c : Call) (y : List Char) :
    lineLiteral? isQuote (c.mark :: (c.target ++ c.mark :: y)) = some (c.target, y) := by
  have hline : ∀ d ∈ c.target, decide (d = '\n') = false := fun d hd =>
    decide_eq_false fun heq => c.oneLine (heq ▸ hd)
  rw [lineLiteral?, if_pos c.quotes, bodyUpTo_append c.noMark hline]

theorem Call.skipBlanks_item (c : Call) (y : List Char) :
    skipBlanks (c.itemBlanks ++ c.mark :: y) = c.mark :: y := by
  have hmark : isBlank c.mark = false := by
    have hquote := c.quotes
    simp only [isQuote, Bool.or_eq_true, decide_eq_true_eq] at hquote
    rcases hquote with (h | h) | h <;> rw [h] <;> decide
  rw [skipBlanks_append c.itemBlank, skipBlanks_cons hmark]

theorem Call.pattern_text (c : Call) (before : Option Char) (y : List Char) :
    c.form.pattern before (c.text ++ y) = some (c.target, y) := by
  have hafter : after? c.form.name (c.text ++ y) = some
      (c.blanks ++ (c.form.bracket ++ (c.itemBlanks ++ c.mark :: (c.target ++ c.mark :: y)))) := by
    rw [Call.text_append, after?_eq_some_iff.mpr rfl]
  have hitems (items : List Char) : after? ['['] ('[' :: items) = some items := rfl
  cases hform : c.form with
  | array =>
    rw [hform] at hafter
    rw [CallForm.pattern, navigateCall, show after? ".navigate(".toList _ = _ from hafter]
    simp only [Option.bind_eq_bind, Option.bind_some, CallForm.bracket, List.singleton_append,
      skipBlanks_append c.blank, skipBlanks_cons (show isBlank '[' = false by decide), hitems,
      c.skipBlanks_item, c.lineLiteral?_append]
  | address =>
    rw [hform] at hafter
    rw [CallForm.pattern, navigateByUrlCall, show after? ".navigateByUrl(".toList _ = _ from hafter]
    simp only [Option.bind_eq_bind, Option.bind_some, CallForm.bracket, List.nil_append,
      skipBlanks_append c.blank, c.skipBlanks_item, c.lineLiteral?_append]

/-! ### The calls of one form -/

theorem passes_code (form : CallForm) (before : List Char) (code : Code) (rest : List (Call × Code)) :
    Passes form.pattern before code.text (callsText rest) :=
  have hspares := Spares.of_borderless borderless_methodKey code.noKey (interrupts_callsText rest)
  hspares.passes form.pattern_eq_none_of_key before

theorem passes_call (hform : form ≠ c.form) (before : List Char) (code : Code) (rest : List (Call × Code)) :
    Passes form.pattern before (c.text ++ code.text) (callsText rest) := by
  have hname : ¬ form.name <+: c.text ++ (code.text ++ callsText rest) := by
    rw [Call.text, List.append_assoc]
    exact fun h => hform (CallForm.eq_of_prefix h)
  rw [c.text_eq, List.cons_append] at hname ⊢
  refine .cons (form.pattern_eq_none _ _ ?_) ((spares_call c code rest).passes form.pattern_eq_none_of_key _)
  rwa [List.append_assoc (_ ++ _)]

theorem matchesBehind_calls (form : CallForm) (before : List Char) (calls : List (Call × Code)) :
    matchesBehind form.pattern before (callsText calls) =
      ((placedCalls before calls).filter (·.1.form = form)).map fun x => ⟨x.1.target, x.2⟩ := by
  induction calls generalizing before with
  | nil => rfl
  | cons x rest ih =>
    obtain ⟨c, code⟩ := x
    rw [callsText_cons, placedCalls]
    by_cases hform : c.form = form
    · subst hform
      have hne : c.text ≠ [] := by
        rw [c.text_eq]
        exact List.cons_ne_nil _ _
      rw [matchesBehind_of_match hne (c.pattern_text _ _), matchesBehind_of_passes (passes_code _ _ _ _),
        List.append_assoc, ih, List.filter_cons_of_pos (by simp), List.map_cons]
    · rw [← List.append_assoc, matchesBehind_of_passes (passes_call (Ne.symm hform) _ _ _), ih,
        List.filter_cons_of_neg (by simpa using hform)]

theorem Program.allMatches_text (p : Program) (form : CallForm) :
    allMatches form.pattern p.text = (p.callsOf form).map fun x => ⟨x.1.target, x.2⟩ := by
  rw [allMatches_eq, Program.text, matchesBehind_of_passes (passes_code _ _ _ _), List.nil_append]
  exact matchesBehind_calls form _ _

/-! ### The references -/

theorem navigation_accepts_iff (route : List Char) : navigation.accepts route = true ↔ IsStatic route := by
  have hquote : (String.singleton backquote).toList <:+: route ↔ backquote ∈ route :=
    List.singleton_infix_iff _ _
  rw [Scanner.accepts_iff_not_infix, navigation, List.forall_mem_cons, List.forall_mem_singleton, hquote]
  rfl

/-- The matches in a script are its calls with arrays, then those with addresses. -/
theorem Program.sightings_text (p : Program) : navigation.sightings p.text =
    (p.callsOf .array ++ p.callsOf .address).map fun x => ⟨normalize x.1.target, x.2⟩ := by
  have hpatterns : navigation.patterns = [CallForm.array.pattern, CallForm.address.pattern] := rfl
  rw [Scanner.sightings, hpatterns, List.flatMap_cons, List.flatMap_singleton, p.allMatches_text,
    p.allMatches_text, List.map_map, List.map_map, List.map_append]
  rfl

/-- The scanner refers once to the first target of each call whose route is static: to those in arrays first and
then to the addresses, both in the order of the script. -/
theorem scanText_program (p : Program) (path : String) : navigation.scanText p.text path =
    (p.callsOf .array ++ p.callsOf .address).filterMap (callReference? path) := by
  rw [Scanner.scanText_eq_filterMap, p.sightings_text, List.filterMap_map]
  refine List.filterMap_congr fun x _ => ?_
  exact if_congr (navigation_accepts_iff _) rfl rfl

/-- A script with a call by address before one with an array, and with a template for a third target. -/
def mixedProgram : Program where
  lead := ⟨"go".toList, by decide⟩
  calls :=
    [(⟨.address, [], [], '"', "#/b".toList, by decide, by decide, by decide, by decide, by decide,
        by decide⟩, ⟨");\ngo".toList, by decide⟩),
      (⟨.array, [' '], ['\n'], '\'', "/a".toList, by decide, by decide, by decide, by decide, by decide,
        by decide⟩, ⟨", id]);\ngo".toList, by decide⟩),
      (⟨.address, [], [], backquote, "at/$\x7bid\x7d".toList, by decide, by decide, by decide, by decide,
        by decide, by decide⟩, ⟨[')'], by decide⟩)]

theorem scanText_mixedProgram :
    mixedProgram.text = "go.navigateByUrl(\"#/b\");\ngo.navigate( [\n'/a', id]);\ngo.navigateByUrl(".toList ++
        backquote :: "at/$\x7bid\x7d".toList ++ [backquote, ')'] ∧
      navigation.scanText mixedProgram.text "a.ts" =
        [⟨"a", "a.ts", 2, .typescript⟩, ⟨"b", "a.ts", 1, .typescript⟩] := by
  refine ⟨rfl, ?_⟩
  rw [scanText_program mixedProgram "a.ts"]
  decide +kernel

end RouteInventory.Reference
