import Mathlib
import RouteInventory.CommandLine.Outcome
import RouteInventory.Proofs.Routing.Property

/-!
# Extractions spelled in full

A line of options spelled in full, with at most one operand, asks for the same with the command
`extract` in front of it and without. The two are read by different grammars, which agree on what such
words are (`read_parts`); and of the words only those count for a command that are no option's value
(`firstOperand?_parts`).
-/

namespace RouteInventory.CommandLine

/-- Whether a word is an operand of an extraction. -/
def IsOperand (word : String) : Prop := Grammar.inventory.role word = .ok .operand

/-- The options of an extraction that take a value. -/
def settings : List Flag := [.configFlag, .outDirFlag, .appRootFlag, .rootModuleFlag]

/-- The options of an extraction that take none. -/
def switches : List Flag := [.deterministicFlag, .quietFlag, .verboseFlag]

/-- A part of a line: an option and its value, in one word or two, an option without a value, or an
operand. -/
inductive Part
  | setting (flag : Flag) (name value : String) (joined : Bool)
  | switch (flag : Flag) (name : String)
  | project (word : String)

namespace Part

def words : Part → List String
  | setting _ name value true => [name ++ "=" ++ value]
  | setting _ name value false => [name, value]
  | switch _ name => [name]
  | project word => [word]

/-- Whether the part is an option of an extraction by one of its names, with a value that does not begin
with a dash, or an operand that is no command. -/
def IsFull : Part → Prop
  | setting flag name value _ =>
    flag ∈ settings ∧ name ∈ flag.names ∧
      value.toList.head? ≠ some '-'
  | switch flag name =>
    flag ∈ switches ∧ name ∈ flag.names
  | project word => IsOperand word ∧ Command.ofName? word = none

def project? : Part → Option String
  | project word => some word
  | _ => none

/-- What the part adds to what is read behind it. -/
def addTo : Part → Reading → Reading
  | setting flag _ value _, r => r.addUse flag.key value
  | switch flag _, r => r.addUse flag.key ""
  | project word, r => r.addOperand word

/-- The words with their roles in an extraction. -/
def roles : Part → List Word
  | setting flag name value true =>
    [⟨name ++ "=" ++ value, .option name flag (some (.equals value.toList))⟩]
  | setting flag name value false => [⟨name, .option name flag none⟩, ⟨value, .operand⟩]
  | switch flag name => [⟨name, .option name flag none⟩]
  | project word => [⟨word, .operand⟩]

end Part

/-- A line of options spelled in full, in any number and order, with one operand or none. -/
def IsFullLine (line : List String) : Prop :=
  ∃ parts : List Part, (∀ p ∈ parts, p.IsFull) ∧ (parts.filterMap Part.project?).length ≤ 1 ∧
    line = parts.flatMap Part.words

/-- What parts hold. -/
def readingOf (parts : List Part) : Reading := parts.foldr Part.addTo {}

/-! ### Roles -/

namespace Grammar

variable {g g' : Grammar} {word : String}

theorem role_congr (h : g.flags = g'.flags) (word : String) : g.role word = g'.role word := by
  simp only [role, assigned?, candidates, flag?, spellings, h]

theorem role_of_head (h : word.toList.head? ≠ some '-') : g.role word = .ok .operand := by
  unfold role
  split
  · rename_i hword
    rw [hword] at h
    exact absurd rfl h
  · rfl

theorem role_of_flag? {flag : Flag} (hdash : word.toList.head? = some '-') (hlength : 1 < word.toList.length)
    (h : g.flag? word = some flag) : g.role word = .ok (.option word flag none) := by
  match hword : word.toList with
  | [] | [_] => simp [hword] at hlength
  | c :: d :: rest =>
    obtain rfl : c = '-' := by simpa [hword] using hdash
    simp [role, hword, h]

theorem flag?_eq_none (h : ∀ p ∈ g.spellings, '=' ∉ p.1.toList) (hword : '=' ∈ word.toList) :
    g.flag? word = none := by
  rw [flag?, List.lookup_eq_none_iff]
  intro p hp
  refine bne_iff_ne.mpr ?_
  rintro rfl
  exact h p hp hword

theorem splitEquals_joined {name : List Char} (h : '=' ∉ name) (value : List Char) :
    splitEquals (name ++ '=' :: value) = (name, some value) := by
  rw [splitEquals, Text.bodyUpTo_append h fun _ _ => rfl]

/-- A name in front of an equals sign is an option if it is one alone. -/
theorem role_joined {flag : Flag} {name : String} (hspell : ∀ p ∈ g.spellings, '=' ∉ p.1.toList)
    (hname : '=' ∉ name.toList) (hdash : name.toList.head? = some '-') (h : g.flag? name = some flag)
    (value : String) :
    g.role (name ++ "=" ++ value) = .ok (.option name flag (some (.equals value.toList))) := by
  have htext : (name ++ "=" ++ value).toList = name.toList ++ '=' :: value.toList := by simp
  have hnone : g.flag? (name ++ "=" ++ value) = none := flag?_eq_none hspell (by simp)
  have hsplit := splitEquals_joined hname value.toList
  have hassigned : g.assigned? (name.toList ++ '=' :: value.toList) =
      some (.option name flag (some (.equals value.toList))) := by
    simp [assigned?, hsplit, h]
  obtain ⟨rest, hrest⟩ : ∃ rest, name.toList = '-' :: rest := List.head?_eq_some_iff.mp hdash
  obtain ⟨c, tail, htail⟩ : ∃ c tail, rest ++ '=' :: value.toList = c :: tail :=
    List.exists_cons_of_ne_nil (by simp)
  rw [hrest, List.cons_append, htail] at htext hassigned
  simp [role, htext, hnone, hassigned]

theorem exists_candidates (word : List Char) : ∃ (fits : String → Bool)
    (candidate : String × Flag → String × Flag × Option Attached), ∀ g : Grammar,
      g.candidates word = (g.spellings.filter fun p => fits p.1).map candidate := by
  match word with
  | [] | [c] => exact ⟨fun _ => false, fun p => (p.1, p.2, none), fun g => by simp [candidates]⟩
  | c :: d :: rest =>
    by_cases hdashes : c = '-' ∧ d = '-'
    · obtain ⟨rfl, rfl⟩ := hdashes
      let split := splitEquals ('-' :: '-' :: rest)
      exact ⟨fun s => split.1.isPrefixOf s.toList, fun p => (p.1, p.2, split.2.map .equals),
        fun g => rfl⟩
    · refine ⟨fun s => decide (s.toList = [c, d]), fun p => (p.1, p.2, some (.joined rest)), fun g => ?_⟩
      rw [candidates.eq_2]
      all_goals exact fun hc hd => hdashes ⟨hc, hd⟩

theorem candidates_joined {name : String} (h : '=' ∉ name.toList) (htwice : name.startsWith "--" = true)
    (value : List Char) : g.candidates (name.toList ++ '=' :: value) =
      (g.spellings.filter fun p => name.toList.isPrefixOf p.1.toList).map
        fun p => (p.1, p.2, some (.equals value)) := by
  obtain ⟨rest, hrest⟩ := String.startsWith_string_iff.mp htwice
  have hword : name.toList ++ '=' :: value = '-' :: '-' :: (rest ++ '=' :: value) := by
    rw [← hrest]
    rfl
  rw [hword, candidates, ← hword, splitEquals_joined h]
  rfl

theorem candidates_of_operand {c : Char} {rest : List Char} (hword : word.toList = '-' :: c :: rest)
    (h : g.role word = .ok .operand) : g.candidates word.toList = [] := by
  simp only [role, hword] at h
  rw [hword]
  split at h
  · rename_i role hrole
    obtain rfl := Except.ok.inj h
    cases hflag : g.flag? word with
    | some flag => simp [hflag] at hrole
    | none =>
      rw [hflag, assigned?] at hrole
      split at hrole
      · simp at hrole
      · simp at hrole
  · split at h
    · assumption
    · cases h
    · cases h

theorem exists_role (h : (g.candidates word.toList).length ≤ 1) : ∃ role, g.role word = .ok role := by
  unfold role
  split
  · rename_i c rest hword
    rw [hword] at h
    split
    · exact ⟨_, rfl⟩
    split
    · exact ⟨_, rfl⟩
    · exact ⟨_, rfl⟩
    · rename_i several hnil hone
      match hs : g.candidates ('-' :: c :: rest), h with
      | [], _ => exact absurd hs hnil
      | [(spelling, flag, attached)], _ => exact absurd hs (hone spelling flag attached)
  · exact ⟨_, rfl⟩

theorem exists_words {line : List String} (h : ∀ word ∈ line, ∃ role, g.role word = .ok role) :
    ∃ words, g.words line = .ok words ∧ words.map (·.text) = line := by
  induction line with
  | nil => exact ⟨[], rfl, rfl⟩
  | cons word rest ih =>
    rw [words]
    split
    · refine ⟨_, rfl, ?_⟩
      rw [List.map_cons, List.map_map]
      exact congrArg (word :: ·) (List.map_id rest)
    · obtain ⟨role, hrole⟩ := h word List.mem_cons_self
      obtain ⟨words, hwords, htext⟩ := ih fun w hw => h w (List.mem_cons_of_mem _ hw)
      rw [hrole, hwords]
      exact ⟨_, rfl, by simp [htext]⟩

theorem use_of_key {flag : Flag} (hhelp : flag.key ≠ .help) (hversion : flag.key ≠ .version)
    (value : String) (rest : Except Stop Reading) :
    g.use flag value rest = rest.map (·.addUse flag.key value) := by
  unfold use
  split
  · exact absurd ‹_› hhelp
  · exact absurd ‹_› hversion
  · rfl

end Grammar

/-! ### What the options are -/

/-- A name of an option of an extraction, as the words behind a command are read, and those before. -/
structure IsName (flag : Flag) (name : String) : Prop where
  flag? : Grammar.inventory.flag? name = some flag
  help : flag.key ≠ .help
  version : flag.key ≠ .version
  dashed : name.startsWith "-" = true
  long : 1 < name.toList.length
  plain : '=' ∉ name.toList
  candidates : (Grammar.commands.candidates name.toList).length ≤ 1
  separator : name ≠ "--"
  unversioned : name ≠ "--version"

/-- A name of an option with a value. -/
structure IsSettingName (flag : Flag) (name : String) : Prop extends IsName flag name where
  value : ∃ value, flag.value = some value
  skipped : name ∈ valueOptions
  twice : name.startsWith "--" = true
  before : Grammar.commands.spellings.filter (fun p => name.toList.isPrefixOf p.1.toList) = []

theorem isName {flag : Flag} {name : String} (hflag : flag ∈ settings ++ switches) (hname : name ∈ flag.names) :
    IsName flag name := by
  have hnames : ∀ flag ∈ settings ++ switches, ∀ name ∈ flag.names,
      Grammar.inventory.flag? name = some flag ∧ flag.key ≠ .help ∧ flag.key ≠ .version ∧
        name.startsWith "-" = true ∧ 1 < name.toList.length ∧ '=' ∉ name.toList ∧
        (Grammar.commands.candidates name.toList).length ≤ 1 ∧ name ≠ "--" ∧ name ≠ "--version" := by
    decide +kernel
  obtain ⟨h1, h2, h3, h4, h5, h6, h7, h8, h9⟩ := hnames flag hflag name hname
  exact ⟨h1, h2, h3, h4, h5, h6, h7, h8, h9⟩

theorem isSettingName {flag : Flag} {name : String} (hflag : flag ∈ settings) (hname : name ∈ flag.names) :
    IsSettingName flag name := by
  have hnames : ∀ flag ∈ settings, ∀ name ∈ flag.names,
      flag.value.isSome = true ∧ name ∈ valueOptions ∧ name.startsWith "--" = true ∧
        Grammar.commands.spellings.filter (fun p => name.toList.isPrefixOf p.1.toList) = [] := by
    decide +kernel
  obtain ⟨hvalue, hskipped, htwice, hbefore⟩ := hnames flag hflag name hname
  exact ⟨isName (List.mem_append_left _ hflag) hname, Option.isSome_iff_exists.mp hvalue, hskipped,
    htwice, hbefore⟩

theorem isName_switch {flag : Flag} {name : String} (hflag : flag ∈ switches) (hname : name ∈ flag.names) :
    IsName flag name ∧ flag.value = none ∧ name ∉ valueOptions := by
  have hnames : ∀ flag ∈ switches, ∀ name ∈ flag.names, flag.value = none ∧ name ∉ valueOptions := by
    decide +kernel
  exact ⟨isName (List.mem_append_right _ hflag) hname, hnames flag hflag name hname⟩

/-! ### What the words are -/

theorem startsWith_dash {word : String} :
    word.startsWith "-" = true ↔ word.toList.head? = some '-' := by
  rw [String.startsWith_string_iff, List.head?_eq_some_iff]
  constructor
  · rintro ⟨rest, h⟩
    exact ⟨rest, h.symm⟩
  · rintro ⟨rest, h⟩
    exact ⟨rest, h.symm⟩

theorem role_of_flags {g : Grammar} (hg : g.flags = Grammar.extractFlags) (word : String) :
    g.role word = Grammar.inventory.role word := Grammar.role_congr hg word

namespace IsName

variable {g : Grammar} {flag : Flag} {name : String}

theorem role (h : IsName flag name) (hg : g.flags = Grammar.extractFlags) :
    g.role name = .ok (.option name flag none) := by
  rw [role_of_flags hg]
  exact Grammar.role_of_flag? (startsWith_dash.mp h.dashed) h.long h.flag?

theorem exists_role (h : IsName flag name) : ∃ role, Grammar.commands.role name = .ok role :=
  Grammar.exists_role h.candidates

theorem role_joined (h : IsName flag name) (hg : g.flags = Grammar.extractFlags) (value : String) :
    g.role (name ++ "=" ++ value) = .ok (.option name flag (some (.equals value.toList))) := by
  have hspell : ∀ p ∈ Grammar.inventory.spellings, '=' ∉ p.1.toList := by decide +kernel
  rw [role_of_flags hg]
  exact Grammar.role_joined hspell h.plain (startsWith_dash.mp h.dashed) h.flag? value

end IsName

/-- A word with an equals sign is none of those that are looked for as they are. -/
theorem ne_of_equals {word : String} (h : '=' ∈ word.toList) :
    word ≠ "--" ∧ word ≠ "--version" ∧ word ∉ valueOptions := by
  have hvalue : ∀ name ∈ valueOptions, '=' ∉ name.toList := by decide +kernel
  refine ⟨?_, ?_, fun hmem => hvalue word hmem h⟩
  all_goals
    rintro rfl
    revert h
    decide

theorem IsSettingName.exists_role_joined {flag : Flag} {name : String} (h : IsSettingName flag name)
    (value : String) : ∃ role, Grammar.commands.role (name ++ "=" ++ value) = .ok role := by
  have htext : (name ++ "=" ++ value).toList = name.toList ++ '=' :: value.toList := by simp
  refine Grammar.exists_role ?_
  rw [htext, Grammar.candidates_joined h.plain h.twice, h.before]
  exact Nat.zero_le 1

/-- The words before a command know an operand of an extraction as at most one option. -/
theorem IsOperand.exists_role {word : String} (h : IsOperand word) :
    ∃ role, Grammar.commands.role word = .ok role := by
  by_cases hlong : ∃ c rest, word.toList = '-' :: c :: rest
  · obtain ⟨c, rest, hword⟩ := hlong
    -- the options before a command are all options of an extraction too, `--version` apart
    have hnone := Grammar.candidates_of_operand hword h
    obtain ⟨fits, candidate, hcandidates⟩ := Grammar.exists_candidates word.toList
    rw [hcandidates, List.map_eq_nil_iff, List.filter_eq_nil_iff] at hnone
    have hfits : ∀ name ∈ ["-h", "--help", "-v", "--verbose"], fits name = false := by
      intro name hname
      have hmem : ∀ name ∈ ["-h", "--help", "-v", "--verbose"],
          ∃ p ∈ Grammar.inventory.spellings, p.1 = name := by decide +kernel
      obtain ⟨p, hp, rfl⟩ := hmem name hname
      exact Bool.eq_false_iff.mpr (hnone p hp)
    have hbefore : Grammar.commands.spellings.map (·.1) =
      ["-h", "--help", "--version", "-v", "--verbose"] := rfl
    refine Grammar.exists_role ?_
    have hcount : (Grammar.commands.candidates word.toList).length =
        (["-h", "--help", "--version", "-v", "--verbose"].filter fits).length := by
      rw [hcandidates, List.length_map, ← hbefore, List.filter_map, List.length_map]
      rfl
    rw [hcount]
    cases hversion : fits "--version" <;> simp [hfits, hversion]
  · refine ⟨.operand, ?_⟩
    unfold Grammar.role
    split
    · exact absurd ⟨_, _, ‹_›⟩ hlong
    · rfl

theorem IsOperand.ne {word : String} (h : IsOperand word) :
    word ≠ "--" ∧ word ≠ "--version" ∧ word ∉ valueOptions := by
  have hvalue : ∀ name ∈ valueOptions, Grammar.inventory.role name ≠ .ok .operand := by decide +kernel
  refine ⟨?_, ?_, fun hmem => hvalue word hmem h⟩
  all_goals
    rintro rfl
    revert h
    rw [IsOperand]
    decide +kernel

/-! ### Reading parts -/

section Parts

variable {g : Grammar} {p : Part} {parts : List Part}

theorem words_cons {text : String} {role : Role} (hne : text ≠ "--") (hrole : g.role text = .ok role)
    (rest : List String) : g.words (text :: rest) = (g.words rest).map (⟨text, role⟩ :: ·) := by
  rw [Grammar.words, if_neg hne, hrole]

theorem ne_of_head {word other : String} (h : word.toList.head? ≠ some '-')
    (hother : other.toList.head? = some '-') : word ≠ other := by
  rintro rfl
  exact h hother

theorem words_part (hg : g.flags = Grammar.extractFlags) (h : p.IsFull) (rest : List String) :
    g.words (p.words ++ rest) = (g.words rest).map (p.roles ++ ·) := by
  match p with
  | .setting flag name value true =>
    obtain ⟨hflag, hname, -⟩ := h
    have hname := isSettingName hflag hname
    exact words_cons (ne_of_equals (by simp)).1 (hname.role_joined hg value) rest
  | .setting flag name value false =>
    obtain ⟨hflag, hname, hvalue⟩ := h
    have hname := isSettingName hflag hname
    rw [Part.words, List.cons_append, words_cons hname.separator (hname.role hg), List.singleton_append,
      words_cons (ne_of_head hvalue (by decide)) (Grammar.role_of_head hvalue)]
    cases g.words rest <;> rfl
  | .switch flag name =>
    have hname := (isName_switch h.1 h.2).1
    exact words_cons hname.separator (hname.role hg) rest
  | .project word =>
    have hrole : g.role word = .ok .operand := (role_of_flags hg word).trans h.1
    exact words_cons h.1.ne.1 hrole rest

theorem words_parts (hg : g.flags = Grammar.extractFlags) (h : ∀ p ∈ parts, p.IsFull) :
    g.words (parts.flatMap Part.words) = .ok (parts.flatMap Part.roles) := by
  induction parts with
  | nil => rfl
  | cons p parts ih =>
    obtain ⟨hp, hparts⟩ := List.forall_mem_cons.mp h
    rw [List.flatMap_cons, words_part hg hp, ih hparts]
    rfl

/-- Whether an operand may still come behind a part. -/
def Part.after (stage : Stage) : Part → Stage
  | .project _ => .taken
  | _ => if stage = .taken then .closed else stage

theorem readWords_part (hg : g.operand = Grammar.projectOperand) (h : p.IsFull) {stage : Stage}
    (hstage : p.project?.isSome → stage = .awaited) (rest : List Word) :
    g.readWords stage (p.roles ++ rest) = (g.readWords (p.after stage) rest).map p.addTo := by
  match p with
  | .setting flag name value joined =>
    obtain ⟨hflag, hname, -⟩ := h
    have hname := isSettingName hflag hname
    obtain ⟨arg, harg⟩ := hname.value
    cases joined with
    | true =>
      rw [Part.roles, List.singleton_append, Grammar.readWords.eq_4 _ _ _ _ _ _ _ _ harg,
        Grammar.use_of_key hname.help hname.version, Attached.value, Attached.chars, String.ofList_toList]
      rfl
    | false =>
      rw [Part.roles, List.cons_append, List.singleton_append,
        Grammar.readWords.eq_5 _ _ _ _ _ _ _ _ harg, Grammar.use_of_key hname.help hname.version]
      rfl
  | .switch flag name =>
    obtain ⟨hname, hvalue, -⟩ := isName_switch h.1 h.2
    rw [Part.roles, List.singleton_append, Grammar.readWords.eq_3 _ _ _ _ _ _ _ hvalue, Grammar.switches]
    exact Grammar.use_of_key hname.help hname.version "" _
  | .project word =>
    obtain rfl := hstage rfl
    have hnone : ∀ name choices, g.operand ≠ .command name choices := by simp [hg, Grammar.projectOperand]
    rw [Part.roles, List.singleton_append, Grammar.readWords.eq_8 _ _ _ hnone]
    rfl

theorem readWords_parts (hg : g.operand = Grammar.projectOperand) (h : ∀ p ∈ parts, p.IsFull)
    {stage : Stage}
    (hstage : (parts.filterMap Part.project?).length ≤ if stage = .awaited then 1 else 0) :
    g.readWords stage (parts.flatMap Part.roles) = .ok (readingOf parts) := by
  induction parts generalizing stage with
  | nil =>
    rw [List.flatMap_nil, Grammar.readWords, Grammar.finish]
    all_goals simp [hg, Grammar.projectOperand, readingOf]
  | cons p parts ih =>
    obtain ⟨hp, hparts⟩ := List.forall_mem_cons.mp h
    obtain ⟨hawaited, hafter⟩ : (p.project?.isSome → stage = .awaited) ∧
        (parts.filterMap Part.project?).length ≤ if p.after stage = .awaited then 1 else 0 := by
      rw [List.filterMap_cons] at hstage
      cases p <;> cases stage <;> simp_all [Part.project?, Part.after]
    rw [List.flatMap_cons, readWords_part hg hp hawaited, ih hparts hafter]
    rfl

/-- Grammars with the options and the operand of an extraction read the same. -/
theorem read_parts (hflags : g.flags = Grammar.extractFlags) (hoperand : g.operand = Grammar.projectOperand)
    (h : ∀ p ∈ parts, p.IsFull) (hcount : (parts.filterMap Part.project?).length ≤ 1) :
    g.read (parts.flatMap Part.words) = .ok (readingOf parts) := by
  rw [Grammar.read, words_parts hflags h]
  exact readWords_parts hoperand h hcount

theorem extras_readingOf (parts : List Part) : (readingOf parts).extras = [] := by
  induction parts with
  | nil => rfl
  | cons p parts ih => cases p <;> exact ih

/-! ### Whether there is a command -/

theorem firstOperand?_cons_of_dash {word : String} (h : word ∉ valueOptions) (hdash : word.startsWith "-" = true)
    (rest : List String) : firstOperand? (word :: rest) = firstOperand? rest := by
  rw [firstOperand?.eq_def]
  dsimp only
  rw [if_neg h, if_pos hdash]

theorem firstOperand?_cons_of_setting {name : String} (h : name ∈ valueOptions) (value : String)
    (rest : List String) : firstOperand? (name :: value :: rest) = firstOperand? rest := by
  rw [firstOperand?.eq_def]
  exact if_pos h

theorem firstOperand?_cons_of_plain {word : String} (h : word ∉ valueOptions) (hdash : ¬ word.startsWith "-" = true)
    (rest : List String) : firstOperand? (word :: rest) = some word := by
  rw [firstOperand?.eq_def]
  dsimp only
  rw [if_neg h, if_neg hdash]

/-- The words of a part are passed over, unless it is an operand that is no command. -/
theorem firstOperand?_part (h : p.IsFull) (rest : List String) :
    firstOperand? (p.words ++ rest) = firstOperand? rest ∨
      (firstOperand? (p.words ++ rest)).bind Command.ofName? = none := by
  match p with
  | .setting flag name value true =>
    have hname := isSettingName h.1 h.2.1
    refine .inl (firstOperand?_cons_of_dash (ne_of_equals (by simp)).2.2 ?_ rest)
    obtain ⟨tail, htail⟩ := String.startsWith_string_iff.mp hname.dashed
    rw [String.startsWith_string_iff, String.toList_append, String.toList_append, ← htail,
      List.append_assoc, List.append_assoc]
    exact List.prefix_append _ _
  | .setting flag name value false =>
    exact .inl (firstOperand?_cons_of_setting (isSettingName h.1 h.2.1).skipped value rest)
  | .switch flag name =>
    obtain ⟨hname, -, hskipped⟩ := isName_switch h.1 h.2
    exact .inl (firstOperand?_cons_of_dash hskipped hname.dashed rest)
  | .project word =>
    by_cases hdash : word.startsWith "-" = true
    · exact .inl (firstOperand?_cons_of_dash h.1.ne.2.2 hdash rest)
    · refine .inr ?_
      rw [Part.words, List.singleton_append, firstOperand?_cons_of_plain h.1.ne.2.2 hdash]
      exact h.2

theorem firstOperand?_parts (h : ∀ p ∈ parts, p.IsFull) :
    (firstOperand? (parts.flatMap Part.words)).bind Command.ofName? = none := by
  induction parts with
  | nil => rfl
  | cons p parts ih =>
    obtain ⟨hp, hparts⟩ := List.forall_mem_cons.mp h
    rw [List.flatMap_cons]
    rcases firstOperand?_part hp (parts.flatMap Part.words) with hrest | hnone
    · rw [hrest]
      exact ih hparts
    · exact hnone

/-- No word of a part asks for the version, and each has a role before a command. -/
theorem word_of_part (h : p.IsFull) {word : String} (hword : word ∈ p.words) :
    word ≠ "--version" ∧ ∃ role, Grammar.commands.role word = .ok role := by
  match p with
  | .setting flag name value true =>
    obtain rfl := List.mem_singleton.mp hword
    exact ⟨(ne_of_equals (by simp)).2.1, (isSettingName h.1 h.2.1).exists_role_joined value⟩
  | .setting flag name value false =>
    have hname := isSettingName h.1 h.2.1
    rcases List.mem_pair.mp hword with rfl | rfl
    · exact ⟨hname.unversioned, hname.exists_role⟩
    · exact ⟨ne_of_head h.2.2 (by decide), _, Grammar.role_of_head h.2.2⟩
  | .switch flag name =>
    obtain rfl := List.mem_singleton.mp hword
    have hname := (isName_switch h.1 h.2).1
    exact ⟨hname.unversioned, hname.exists_role⟩
  | .project word =>
    obtain rfl := List.mem_singleton.mp hword
    exact ⟨h.1.ne.2.1, h.1.exists_role⟩

theorem word_of_parts (h : ∀ p ∈ parts, p.IsFull) {word : String}
    (hword : word ∈ parts.flatMap Part.words) :
    word ≠ "--version" ∧ ∃ role, Grammar.commands.role word = .ok role := by
  obtain ⟨p, hp, hmem⟩ := List.mem_flatMap.mp hword
  exact word_of_part (h p hp) hmem

theorem hasCommand_parts (h : ∀ p ∈ parts, p.IsFull) : hasCommand (parts.flatMap Part.words) = false := by
  have hversion : "--version" ∉ parts.flatMap Part.words := fun hmem => (word_of_parts h hmem).1 rfl
  rw [hasCommand, firstOperand?_parts h, Option.isSome_none, Bool.false_or]
  exact Bool.eq_false_iff.mpr fun hcontains => hversion (List.contains_iff_mem.mp hcontains)

theorem hasCommand_cons_extract (line : List String) : hasCommand ("extract" :: line) = true := by
  rw [hasCommand, firstOperand?_cons_of_plain (by decide +kernel) (by decide +kernel)]
  rfl

theorem read_cons_extract {line : List String} (h : ∀ word ∈ line, ∃ role, Grammar.commands.role word = .ok role) :
    Grammar.commands.read ("extract" :: line) = .ok { operands := "extract" :: line } := by
  obtain ⟨words, hwords, htext⟩ := Grammar.exists_words h
  rw [Grammar.read, words_cons (by decide) (Grammar.role_of_head (by decide)), hwords]
  rw [← htext]
  rfl

end Parts

theorem ofLine_parts {parts : List Part} (h : ∀ p ∈ parts, p.IsFull)
    (hcount : (parts.filterMap Part.project?).length ≤ 1) :
    Request.ofLine (parts.flatMap Part.words) =
      .ok ⟨(readingOf parts).task .extract, (readingOf parts).has .verbose⟩ := by
  rw [Request.ofLine, hasCommand_parts h, if_neg Bool.false_ne_true, Request.ofPlainLine,
    read_parts rfl rfl h hcount]
  dsimp only
  rw [extras_readingOf]
  rfl

theorem ofLine_cons_extract {parts : List Part} (h : ∀ p ∈ parts, p.IsFull)
    (hcount : (parts.filterMap Part.project?).length ≤ 1) :
    Request.ofLine ("extract" :: parts.flatMap Part.words) =
      .ok ⟨(readingOf parts).task .extract, (readingOf parts).has .verbose⟩ := by
  rw [Request.ofLine, hasCommand_cons_extract, if_pos rfl, Request.ofCommandLine,
    read_cons_extract fun word hword => (word_of_parts h hword).2]
  have hname : Command.ofName? "extract" = some .extract := by decide
  dsimp only
  rw [hname]
  dsimp only
  rw [Request.ofCommand, read_parts rfl rfl h hcount]
  dsimp only
  rw [extras_readingOf]
  rfl

/-- A line of options of an extraction that are spelled in full, with one operand or none that is no
command, asks for an extraction. With the command `extract` in front of it it asks for the same, so the
outcomes are the same on every file system. -/
theorem run_cons_extract {line : List String} (h : IsFullLine line) :
    (∃ target quiet verbose, Request.ofLine line = .ok ⟨.extract target quiet, verbose⟩ ∧
      Request.ofLine ("extract" :: line) = .ok ⟨.extract target quiet, verbose⟩) ∧
      ∀ fs now, run ("extract" :: line) fs now = run line fs now := by
  obtain ⟨parts, hparts, hcount, rfl⟩ := h
  have hplain := ofLine_parts hparts hcount
  have hcommand := ofLine_cons_extract hparts hcount
  refine ⟨⟨_, _, _, hplain, hcommand⟩, fun fs now => ?_⟩
  rw [run, run, hplain, hcommand]

/-- The names of commands are values here, on both sides of the operand. -/
theorem run_cons_extract_values :
    IsFullLine ["--out=validate", "--config", "extract", "-q", "site", "--quiet", "--app-root", "modules"] ∧
      ∀ fs now, run ["extract", "--out=validate", "--config", "extract", "-q", "site", "--quiet",
          "--app-root", "modules"] fs now =
        run ["--out=validate", "--config", "extract", "-q", "site", "--quiet", "--app-root", "modules"]
          fs now := by
  have hsite : IsOperand "site" ∧ Command.ofName? "site" = none :=
    ⟨Grammar.role_of_head (by decide), by decide⟩
  have hline : IsFullLine
      ["--out=validate", "--config", "extract", "-q", "site", "--quiet", "--app-root", "modules"] := by
    refine ⟨[.setting .outDirFlag "--out" "validate" true, .setting .configFlag "--config" "extract" false,
      .switch .quietFlag "-q", .project "site", .switch .quietFlag "--quiet",
      .setting .appRootFlag "--app-root" "modules" false], ?_, by decide, by decide⟩
    simp only [List.forall_mem_cons, List.not_mem_nil, false_imp_iff, implies_true, and_true, Part.IsFull]
    exact ⟨by decide, by decide, by decide, hsite, by decide, by decide⟩
  exact ⟨hline, (run_cons_extract hline).2⟩

end RouteInventory.CommandLine
