import Mathlib
import RouteInventory.Path.Basic

/-!
# Names in paths

A path that some text spells can be read back from its text, so putting a suffix behind its text makes its
last name longer and changes nothing else. Removing double dots leaves a path that begins with some and has
none behind other names (`IsNormal`); below a base it comes to the same for every base, as long as the
double dots do not lead out of it (`foldl_pushName_inside`).
-/

namespace RouteInventory

namespace Text

variable {separator : Char}

theorem fields_of_not_mem {text : List Char} (h : separator ∉ text) : fields separator text = [text] := by
  induction text with
  | nil => rfl
  | cons c rest ih =>
    rw [List.mem_cons, not_or] at h
    rw [fields, if_neg (Ne.symm h.1), ih h.2]

theorem fields_append {first : List Char} (h : separator ∉ first) (rest : List Char) :
    fields separator (first ++ separator :: rest) = first :: fields separator rest := by
  induction first with
  | nil => rw [List.nil_append, fields, if_pos rfl]
  | cons c first ih =>
    rw [List.mem_cons, not_or] at h
    rw [List.cons_append, fields, if_neg (Ne.symm h.1), ih h.2]

theorem not_mem_of_mem_fields {text field : List Char} (h : field ∈ fields separator text) :
    separator ∉ field := by
  induction text generalizing field with
  | nil =>
    rw [List.mem_singleton.mp h]
    exact List.not_mem_nil
  | cons c rest ih =>
    rw [fields] at h
    split at h
    · rcases List.mem_cons.mp h with rfl | h
      · exact List.not_mem_nil
      · exact ih h
    · next hc =>
      split at h
      · rw [List.mem_singleton.mp h]
        simpa using Ne.symm hc
      · next first others heq =>
        rcases List.mem_cons.mp h with rfl | h
        · have hfirst := ih (heq ▸ List.mem_cons_self)
          simpa [hfirst] using Ne.symm hc
        · exact ih (heq ▸ List.mem_cons_of_mem _ h)

theorem fields_intercalate {names : List (List Char)} (hne : names ≠ [])
    (h : ∀ name ∈ names, separator ∉ name) : fields separator ([separator].intercalate names) = names := by
  induction names with
  | nil => exact absurd rfl hne
  | cons first rest ih =>
    obtain ⟨hfirst, hrest⟩ := List.forall_mem_cons.mp h
    cases rest with
    | nil => simpa using fields_of_not_mem hfirst
    | cons second rest =>
      rw [List.intercalate_cons_cons, List.append_assoc, List.singleton_append, fields_append hfirst,
        ih (List.cons_ne_nil _ _) hrest]

end Text

/-- What can stand between the slashes of a text as a name of its own. -/
def IsName (name : String) : Prop := name ≠ "" ∧ name ≠ "." ∧ '/' ∉ name.toList

instance (name : String) : Decidable (IsName name) := inferInstanceAs (Decidable (_ ∧ _ ∧ _))

/-- A text that can be put behind any name, and behind none. -/
def IsSuffix (suffix : String) : Prop := 2 ≤ suffix.toList.length ∧ '/' ∉ suffix.toList

instance (suffix : String) : Decidable (IsSuffix suffix) := inferInstanceAs (Decidable (_ ∧ _))

theorem IsSuffix.isName_append {suffix : String} (h : IsSuffix suffix) {stem : String}
    (hstem : '/' ∉ stem.toList) : IsName (stem ++ suffix) := by
  have hlength : 2 ≤ (stem ++ suffix).toList.length := by
    rw [String.toList_append, List.length_append]
    exact le_add_left h.1
  refine ⟨fun heq => ?_, fun heq => ?_, ?_⟩
  · simp [heq] at hlength
  · simp [heq] at hlength
  · rw [String.toList_append, List.mem_append, not_or]
    exact ⟨hstem, h.2⟩

namespace Path

/-- Whether a path can be read from a text. -/
def IsSpelled (p : Path) : Prop := ∀ name ∈ p.names, IsName name

theorem isSpelled_ofString (s : String) : (ofString s).IsSpelled := by
  intro name hname
  simp only [ofString, List.mem_filter, List.mem_map, Bool.and_eq_true, bne_iff_ne] at hname
  obtain ⟨⟨field, hfield, rfl⟩, hempty, hdot⟩ := hname
  exact ⟨hempty, hdot, by simpa using Text.not_mem_of_mem_fields hfield⟩

variable {p q : Path}

theorem IsSpelled.join (hp : p.IsSpelled) (hq : q.IsSpelled) : (p.join q).IsSpelled := by
  unfold Path.join
  split
  · exact hq
  · intro name hname
    rcases List.mem_append.mp hname with h | h
    exacts [hp name h, hq name h]

theorem IsSpelled.parent (h : p.IsSpelled) : p.parent.IsSpelled :=
  fun name hname => h name (List.dropLast_subset _ hname)

theorem IsSpelled.child (h : p.IsSpelled) {name : String} (hname : IsName name) :
    (p.child name).IsSpelled := by
  intro n hn
  rcases List.mem_append.mp hn with hn | hn
  · exact h n hn
  · rwa [List.mem_singleton.mp hn]

/-! ### Texts of paths -/

/-- Reading the names of a text that begins with one. -/
theorem filter_fields_intercalate {names : List String} (h : ∀ name ∈ names, IsName name) :
    (((Text.fields '/' (String.intercalate "/" names).toList).map String.ofList).filter
      fun name => name != "" && name != ".") = names := by
  by_cases hne : names = []
  · subst hne
    rfl
  have hslash : ∀ name ∈ names.map String.toList, '/' ∉ name := by
    intro name hname
    obtain ⟨name, hmem, rfl⟩ := List.mem_map.mp hname
    exact (h name hmem).2.2
  rw [String.toList_intercalate, show "/".toList = ['/'] from rfl,
    Text.fields_intercalate (by simpa using hne) hslash, List.map_map,
    show String.ofList ∘ String.toList = id from funext fun s => String.ofList_toList, List.map_id]
  refine List.filter_eq_self.mpr fun name hname => ?_
  simp [(h name hname).1, (h name hname).2.1]

theorem intercalate_eq_cons {names : List String} (hne : names ≠ []) (h : ∀ name ∈ names, IsName name) :
    ∃ c rest, c ≠ '/' ∧ (String.intercalate "/" names).toList = c :: rest := by
  cases names with
  | nil => exact absurd rfl hne
  | cons first rest =>
    obtain ⟨hempty, -, hslash⟩ := h first List.mem_cons_self
    cases hfirst : first.toList with
    | nil => exact absurd (String.toList_inj.mp hfirst) hempty
    | cons c others =>
      have hc : c ≠ '/' := fun hc => hslash (by rw [hfirst, hc]; exact List.mem_cons_self)
      cases rest with
      | nil => exact ⟨c, others, hc, by simpa using hfirst⟩
      | cons second rest => exact ⟨c, _, hc, by
          rw [String.intercalate_cons_cons, String.toList_append, String.toList_append, hfirst]
          rfl⟩

theorem ofString_text (h : p.IsSpelled) : ofString p.text = p := by
  obtain ⟨anchor, names⟩ := p
  have hnames := filter_fields_intercalate h
  by_cases hne : names = []
  · subst hne
    cases anchor <;> decide
  obtain ⟨c, rest, hc, htext⟩ := intercalate_eq_cons hne h
  have hskip (text : List Char) : (((Text.fields '/' ('/' :: text)).map String.ofList).filter
      fun name => name != "" && name != ".") = ((Text.fields '/' text).map String.ofList).filter
        fun name => name != "" && name != "." := by
    rw [Text.fields, if_pos rfl]
    rfl
  cases anchor with
  | relative =>
    have hanchor : Anchor.ofText (c :: rest) = .relative := by simp [Anchor.ofText, hc]
    rw [htext] at hnames
    simp only [text, ofString, Anchor.text, hne, and_false, if_false, String.empty_append, htext, hanchor,
      hnames]
  | slash =>
    have hanchor : Anchor.ofText ('/' :: c :: rest) = .slash := by simp [Anchor.ofText, hc]
    simp only [text, ofString, Anchor.text, reduceCtorEq, false_and, if_false, String.toList_append,
      show "/".toList = ['/'] from rfl, List.singleton_append, hskip, hnames, htext ▸ hanchor]
  | doubleSlash =>
    have hanchor : Anchor.ofText ('/' :: '/' :: c :: rest) = .doubleSlash := by simp [Anchor.ofText, hc]
    simp only [text, ofString, Anchor.text, reduceCtorEq, false_and, if_false, String.toList_append,
      show "//".toList = ['/', '/'] from rfl, List.cons_append, List.nil_append, hskip, hnames,
      htext ▸ hanchor]

theorem text_inj (hp : p.IsSpelled) (hq : q.IsSpelled) (h : p.text = q.text) : p = q := by
  rw [← ofString_text hp, ← ofString_text hq, h]

/-- The name that a suffix behind the text of a path makes longer. -/
def stem (p : Path) : String := p.names.getLast?.getD (if p.anchor = .relative then "." else "")

/-- The path with its last name made longer. -/
def lengthened (p : Path) (suffix : String) : Path :=
  { p with names := p.names.dropLast ++ [p.stem ++ suffix] }

theorem text_append (p : Path) (suffix : String) : p.text ++ suffix = (p.lengthened suffix).text := by
  obtain ⟨anchor, names⟩ := p
  rcases List.eq_nil_or_concat names with rfl | ⟨front, last, rfl⟩
  · cases anchor <;> simp [text, lengthened, stem, Anchor.text]
  · have hlast : String.intercalate "/" (front ++ [last]) ++ suffix =
        String.intercalate "/" (front ++ [last ++ suffix]) := by
      by_cases hfront : front = []
      · subst hfront
        simp
      · rw [String.intercalate_append_of_ne_nil hfront (by simp),
          String.intercalate_append_of_ne_nil hfront (by simp)]
        simp [String.append_assoc]
    simp [text, lengthened, stem, ← hlast, String.append_assoc]

theorem slash_not_mem_stem (h : p.IsSpelled) : '/' ∉ p.stem.toList := by
  unfold stem
  cases hlast : p.names.getLast? with
  | none =>
    cases p.anchor <;> decide
  | some last => exact (h last (List.mem_of_getLast? hlast)).2.2

theorem isSpelled_lengthened (h : p.IsSpelled) {suffix : String} (hs : IsSuffix suffix) :
    (p.lengthened suffix).IsSpelled :=
  h.parent.child (hs.isName_append (slash_not_mem_stem h))

/-- A suffix behind the text of a path makes its last name longer. -/
theorem appendText_eq (h : p.IsSpelled) {suffix : String} (hs : IsSuffix suffix) :
    p.appendText suffix = p.lengthened suffix := by
  rw [appendText, text_append, ofString_text (isSpelled_lengthened h hs)]

/-! ### Double dots -/

/-- Whether double dots stand in a path only at its beginning, and on no absolute path. -/
def IsNormal (p : Path) : Prop :=
  ∃ ups down, p.names = List.replicate ups ".." ++ down ∧ ".." ∉ down ∧ (p.isAbsolute = true → ups = 0)

theorem pushName_of_ne {absolute : Bool} {stack : List String} {name : String} (h : name ≠ "..") :
    pushName absolute stack name = name :: stack := by
  unfold pushName
  exact if_pos (bne_iff_ne.mpr h)

theorem pushName_of_top {absolute : Bool} {below : List String} {top : String} (h : top ≠ "..") :
    pushName absolute (top :: below) ".." = below := by
  simp [pushName, h]

theorem pushName_of_dots (ups : Nat) : pushName false (List.replicate ups "..") ".." =
    List.replicate (ups + 1) ".." := by
  cases ups <;> rfl

theorem foldl_pushName_down {absolute : Bool} {names : List String} (h : ".." ∉ names)
    (stack : List String) : names.foldl (pushName absolute) stack = names.reverse ++ stack := by
  induction names generalizing stack with
  | nil => rfl
  | cons name rest ih =>
    rw [List.mem_cons, not_or] at h
    rw [List.foldl_cons, pushName_of_ne (Ne.symm h.1), ih h.2, List.reverse_cons, List.append_assoc]
    rfl

theorem foldl_pushName_ups (ups : Nat) :
    (List.replicate ups "..").foldl (pushName false) [] = List.replicate ups ".." := by
  induction ups with
  | zero => rfl
  | succ ups ih =>
    rw [List.replicate_succ', List.foldl_append, ih, ← List.replicate_succ']
    exact pushName_of_dots ups

theorem normalize_of_isNormal (h : p.IsNormal) : p.normalize = p := by
  obtain ⟨anchor, names⟩ := p
  obtain ⟨ups, down, rfl, hdown, habs⟩ := h
  have hups : (List.replicate ups "..").foldl (pushName (isAbsolute ⟨anchor,
      List.replicate ups ".." ++ down⟩)) [] = List.replicate ups ".." := by
    cases hanchor : isAbsolute ⟨anchor, List.replicate ups ".." ++ down⟩ with
    | true => rw [habs hanchor]; rfl
    | false => exact foldl_pushName_ups ups
  simp only [normalize, List.foldl_append, hups, foldl_pushName_down hdown, List.reverse_append,
    List.reverse_reverse, List.reverse_replicate]

/-- Whether a stack of names, latest first, has double dots at its bottom only, and none on an absolute
path. -/
def StackNormal (absolute : Bool) (stack : List String) : Prop :=
  ∃ ups down, stack = down ++ List.replicate ups ".." ∧ ".." ∉ down ∧ (absolute = true → ups = 0)

theorem StackNormal.pushName {absolute : Bool} {stack : List String} (h : StackNormal absolute stack)
    (name : String) : StackNormal absolute (pushName absolute stack name) := by
  obtain ⟨ups, down, rfl, hdown, habs⟩ := h
  by_cases hname : name = ".."
  · subst hname
    cases down with
    | cons top down =>
      rw [List.mem_cons, not_or] at hdown
      rw [List.cons_append, pushName_of_top (Ne.symm hdown.1)]
      exact ⟨ups, down, rfl, hdown.2, habs⟩
    | nil =>
      cases absolute with
      | true => exact ⟨0, [], by rw [habs rfl]; rfl, by simp, fun _ => rfl⟩
      | false =>
        exact ⟨ups + 1, [], pushName_of_dots ups, by simp, by simp⟩
  · rw [pushName_of_ne hname]
    exact ⟨ups, name :: down, rfl, by simp [hdown, Ne.symm hname], habs⟩

theorem isNormal_normalize (p : Path) : p.normalize.IsNormal := by
  have hfold (names stack : List String) (h : StackNormal p.isAbsolute stack) :
      StackNormal p.isAbsolute (names.foldl (pushName p.isAbsolute) stack) := by
    induction names generalizing stack with
    | nil => exact h
    | cons name rest ih => exact ih _ (h.pushName name)
  obtain ⟨ups, down, hstack, hdown, habs⟩ := hfold p.names [] ⟨0, [], rfl, by simp, fun _ => rfl⟩
  exact ⟨ups, down.reverse, by simp [normalize, hstack], by simpa using hdown, habs⟩

theorem isNormal_of_not_mem (h : ".." ∉ p.names) : p.IsNormal := ⟨0, p.names, rfl, h, fun _ => rfl⟩

theorem IsNormal.child (h : p.IsNormal) {name : String} (hname : name ≠ "..") : (p.child name).IsNormal := by
  obtain ⟨ups, down, hnames, hdown, habs⟩ := h
  exact ⟨ups, down ++ [name], by simp [Path.child, hnames], by simp [hdown, Ne.symm hname], habs⟩

theorem IsNormal.parent (h : p.IsNormal) : p.parent.IsNormal := by
  obtain ⟨ups, down, hnames, hdown, habs⟩ := h
  by_cases hnil : down = []
  · subst hnil
    refine ⟨ups - 1, [], ?_, List.not_mem_nil, fun h => by rw [habs h]⟩
    rw [Path.parent, hnames, List.append_nil, List.append_nil, List.dropLast_replicate]
  · refine ⟨ups, down.dropLast, ?_, fun hmem => hdown (List.dropLast_subset _ hmem), habs⟩
    rw [Path.parent, hnames, List.dropLast_append_of_ne_nil hnil]

theorem mem_of_mem_pushName {absolute : Bool} {stack : List String} {name n : String}
    (h : n ∈ pushName absolute stack name) : n = name ∨ n ∈ stack := by
  unfold pushName at h
  split at h
  · exact List.mem_cons.mp h
  · cases stack with
    | nil =>
      dsimp only at h
      split at h
      · exact absurd h List.not_mem_nil
      · exact .inl (List.mem_singleton.mp h)
    | cons top below =>
      dsimp only at h
      split at h
      · exact List.mem_cons.mp h
      · exact .inr (List.mem_cons_of_mem _ h)

theorem mem_of_mem_foldl_pushName {absolute : Bool} {names stack : List String} {n : String}
    (h : n ∈ names.foldl (pushName absolute) stack) : n ∈ names ∨ n ∈ stack := by
  induction names generalizing stack with
  | nil => exact .inr h
  | cons name rest ih =>
    rcases ih h with h | h
    · exact .inl (List.mem_cons_of_mem _ h)
    · rcases mem_of_mem_pushName h with rfl | h
      exacts [.inl List.mem_cons_self, .inr h]

theorem IsSpelled.normalize (h : p.IsSpelled) : p.normalize.IsSpelled := by
  intro name hname
  rcases mem_of_mem_foldl_pushName (List.mem_reverse.mp hname) with hname | hname
  · exact h name hname
  · exact absurd hname List.not_mem_nil

/-- Double dots that lead out of the names before them stay. -/
theorem mem_pushName {stack : List String} (h : ".." ∈ stack) (name : String) :
    ".." ∈ pushName false stack name := by
  unfold pushName
  split
  · exact List.mem_cons_of_mem _ h
  · cases stack with
    | nil => exact absurd h List.not_mem_nil
    | cons top below =>
      dsimp only
      split
      · exact List.mem_cons_of_mem _ h
      · next htop => exact (List.mem_cons.mp h).resolve_left (Ne.symm htop)

theorem mem_foldl_pushName {names stack : List String} (h : ".." ∈ stack) :
    ".." ∈ names.foldl (pushName false) stack := by
  induction names generalizing stack with
  | nil => exact h
  | cons name rest ih => exact ih (mem_pushName h name)

/-- Names whose double dots do not lead out of them come to the same below anything. -/
theorem foldl_pushName_inside (absolute : Bool) {names stack : List String}
    (h : ".." ∉ names.foldl (pushName false) stack) (below : List String) :
    names.foldl (pushName absolute) (stack ++ below) = names.foldl (pushName false) stack ++ below := by
  induction names generalizing stack with
  | nil => rfl
  | cons name rest ih =>
    rw [List.foldl_cons] at h
    have hstack : ".." ∉ pushName false stack name := fun hmem => h (mem_foldl_pushName hmem)
    rw [List.foldl_cons, List.foldl_cons]
    by_cases hname : name = ".."
    · subst hname
      cases stack with
      | nil => exact absurd (List.mem_singleton_self _) hstack
      | cons top others =>
        have htop : top ≠ ".." := by
          rintro rfl
          exact hstack (by simp [pushName])
        rw [pushName_of_top htop] at h
        rw [List.cons_append, pushName_of_top htop, pushName_of_top htop]
        exact ih h
    · rw [pushName_of_ne hname] at h
      rw [pushName_of_ne hname, pushName_of_ne hname]
      exact ih h

end Path

end RouteInventory
