import RouteInventory.Proofs.CommandLine.Spelled

/-!
# Values that are names of commands

A line is searched for a command by the full names of the options with values, but it is read with options that
are cut short as well. A value is therefore taken for a command if it is the name of one and stands behind an option
that is cut short, with nothing before it but dashed words and values (`Overlooks`). Such a line is not carried out;
every other line that an extraction takes asks for that extraction.
-/

namespace RouteInventory.CommandLine

/-- Whether a word is short for an option whose value is the next word. -/
def IsCutShort (word : String) : Prop :=
  ∃ name ∈ valueOptions, word ≠ name ∧ ∃ flag, Grammar.inventory.role word = .ok (.option name flag none)

/-- Whether the first word of a line that neither begins with a dash nor stands behind the full name of an option
is the name of a command, and stands behind an option that is cut short. -/
inductive Overlooks : List String → Prop
  | value {word name : String} (rest : List String) (hword : IsCutShort word)
      (hname : (Command.ofName? name).isSome = true) : Overlooks (word :: name :: rest)
  | setting {name : String} {rest : List String} (value : String) (hname : name ∈ valueOptions)
      (h : Overlooks rest) : Overlooks (name :: value :: rest)
  | dashed {word : String} {rest : List String} (hword : word ∉ valueOptions) (hdash : word.startsWith "-" = true)
      (h : Overlooks rest) : Overlooks (word :: rest)

theorem exists_of_map_eq_ok {ε α β : Type} {f : α → β} {x : Except ε α} {b : β} (h : x.map f = .ok b) :
    ∃ a, x = .ok a ∧ f a = b := by
  cases x with
  | error e => cases h
  | ok a => exact ⟨a, rfl, Except.ok.inj h⟩

/-! ### Roles of words -/

namespace Grammar

variable {g : Grammar} {word : String}

theorem mem_spellings_of_flag? {name : String} {flag : Flag} (h : g.flag? name = some flag) :
    (name, flag) ∈ g.spellings := by
  obtain ⟨front, back, hspellings, -⟩ := List.lookup_eq_some_iff.mp h
  rw [hspellings]
  exact List.mem_append_right _ List.mem_cons_self

theorem splitEquals_eq_none {word name : List Char} (h : splitEquals word = (name, none)) : name = word := by
  unfold splitEquals at h
  split at h
  · simp at h
  · exact (Prod.mk.inj h).1.symm

theorem mem_candidates {word : List Char} {spelling : String} {flag : Flag} {attached : Option Attached}
    (h : (spelling, flag, attached) ∈ g.candidates word) :
    (spelling, flag) ∈ g.spellings ∧ (attached = none → word <+: spelling.toList) := by
  unfold candidates at h
  split at h
  · rename_i rest
    cases hsplit : splitEquals ('-' :: '-' :: rest) with
    | mk name value =>
      rw [hsplit] at h
      obtain ⟨p, hp, heq⟩ := List.mem_map.mp h
      obtain ⟨hmem, hfits⟩ := List.mem_filter.mp hp
      obtain ⟨rfl, rfl, rfl⟩ : p.1 = spelling ∧ p.2 = flag ∧ value.map .equals = attached := by simpa using heq
      refine ⟨hmem, fun hnone => ?_⟩
      obtain rfl := Option.map_eq_none_iff.mp hnone
      rw [← splitEquals_eq_none hsplit]
      exact List.isPrefixOf_iff_prefix.mp hfits
  · rename_i dash letter rest _
    obtain ⟨p, hp, heq⟩ := List.mem_map.mp h
    obtain ⟨rfl, rfl, rfl⟩ : p.1 = spelling ∧ p.2 = flag ∧ some (.joined rest) = attached := by simpa using heq
    exact ⟨(List.mem_filter.mp hp).1, fun hnone => absurd hnone (Option.some_ne_none _)⟩
  · cases h

/-- What can be the role of a word: an option is one of the grammar, and a word that begins with a dash. -/
inductive HasRole (g : Grammar) (word : String) : Role → Prop
  | operand : HasRole g word .operand
  | unknown : HasRole g word .unknown
  | option {spelling : String} {flag : Flag} {attached : Option Attached} (hdash : word.startsWith "-" = true)
      (hmem : (spelling, flag) ∈ g.spellings) (hshort : attached = none → word.toList <+: spelling.toList) :
      HasRole g word (.option spelling flag attached)

theorem hasRole {role : Role} (h : g.role word = .ok role) : HasRole g word role := by
  unfold Grammar.role at h
  split at h
  · rename_i c rest hword
    have hdash : word.startsWith "-" = true := startsWith_dash.mpr (by rw [hword]; rfl)
    split at h
    · rename_i found hfound
      obtain rfl := Except.ok.inj h
      cases hflag : g.flag? word with
      | some flag =>
        obtain rfl : .option word flag none = found := by simpa [hflag] using hfound
        exact .option hdash (mem_spellings_of_flag? hflag) fun _ => List.prefix_rfl
      | none =>
        rw [hflag, assigned?] at hfound
        split at hfound
        · rename_i name value _
          obtain ⟨flag, hflag, rfl⟩ : ∃ flag, g.flag? (String.ofList name) = some flag ∧
              .option (String.ofList name) flag (some (.equals value)) = found := by simpa using hfound
          exact .option hdash (mem_spellings_of_flag? hflag) fun h => absurd h (Option.some_ne_none _)
        · simp at hfound
    · split at h
      · obtain rfl := Except.ok.inj h
        split
        · exact .operand
        · exact .unknown
      · rename_i hcandidates
        obtain rfl := Except.ok.inj h
        obtain ⟨hmem, hshort⟩ := mem_candidates (g := g) (by rw [hcandidates]; exact List.mem_cons_self)
        exact .option hdash hmem (by rwa [hword])
      · cases h
  · obtain rfl := Except.ok.inj h
    exact .operand

/-- The words of a line are those behind the first, with its role in front, unless it is the separator. -/
theorem words_cons_eq_ok {text : String} {rest : List String} {words : List Word}
    (h : g.words (text :: rest) = .ok words) :
    (text = "--" ∧ words = ⟨text, .separator⟩ :: rest.map (⟨·, .operand⟩)) ∨
      ∃ role tail, text ≠ "--" ∧ g.role text = .ok role ∧ g.words rest = .ok tail ∧
        words = ⟨text, role⟩ :: tail := by
  rw [Grammar.words] at h
  split at h
  · exact .inl ⟨‹_›, (Except.ok.inj h).symm⟩
  · rename_i hne
    split at h
    · cases h
    · rename_i role hrole
      obtain ⟨tail, htail, rfl⟩ := exists_of_map_eq_ok h
      exact .inr ⟨role, tail, hne, hrole, htail, rfl⟩

/-! ### Reading options -/

section Options

variable {flag : Flag} {r : Reading} {stage : Stage}

/-- An option adds neither operands nor words without a place. -/
theorem use_eq_ok {value : String} {rest : Except Stop Reading} (h : g.use flag value rest = .ok r) :
    ∃ r', rest = .ok r' ∧ r'.operands = r.operands ∧ r'.extras = r.extras := by
  unfold use at h
  split at h
  · cases h
  · cases h
  · obtain ⟨r', hrest, rfl⟩ := exists_of_map_eq_ok h
    exact ⟨r', hrest, rfl, rfl⟩

theorem foldr_use_eq_ok {flags : List Flag} {rest : Except Stop Reading}
    (h : flags.foldr (fun flag reading => g.use flag "" reading) rest = .ok r) :
    ∃ r', rest = .ok r' ∧ r'.operands = r.operands ∧ r'.extras = r.extras := by
  induction flags generalizing r with
  | nil => exact ⟨r, h, rfl, rfl⟩
  | cons flag flags ih =>
    obtain ⟨next, hnext, hoperands, hextras⟩ := use_eq_ok h
    obtain ⟨r', hrest, hoperands', hextras'⟩ := ih hnext
    exact ⟨r', hrest, hoperands'.trans hoperands, hextras'.trans hextras⟩

/-- An option that is taken has its value in its own word or needs none, or it takes the next word, an operand. -/
theorem readWords_option_eq_ok {text spelling : String} {attached : Option Attached} {rest : List Word}
    (h : g.readWords stage (⟨text, .option spelling flag attached⟩ :: rest) = .ok r) :
    ∃ r' tail, r'.operands = r.operands ∧ r'.extras = r.extras ∧
      g.readWords (if stage = .taken then .closed else stage) tail = .ok r' ∧
      ((flag.value = none ∨ attached ≠ none) ∧ tail = rest ∨
        flag.value ≠ none ∧ attached = none ∧ ∃ value, rest = ⟨value, .operand⟩ :: tail) := by
  cases hvalue : flag.value with
  | none =>
    rw [readWords.eq_3 _ _ _ _ _ _ _ hvalue] at h
    split at h
    · cases h
    · obtain ⟨r', hrest, hoperands, hextras⟩ := foldr_use_eq_ok h
      exact ⟨r', rest, hoperands, hextras, hrest, .inl ⟨.inl rfl, rfl⟩⟩
  | some name =>
    cases attached with
    | some attached =>
      rw [readWords.eq_4 _ _ _ _ _ _ _ _ hvalue] at h
      obtain ⟨r', hrest, hoperands, hextras⟩ := use_eq_ok h
      exact ⟨r', rest, hoperands, hextras, hrest, .inl ⟨.inr (Option.some_ne_none _), rfl⟩⟩
    | none =>
      cases rest with
      | nil => simp [readWords, hvalue] at h
      | cons next tail =>
        obtain ⟨value, role⟩ := next
        cases role with
        | operand =>
          rw [readWords.eq_5 _ _ _ _ _ _ _ _ hvalue] at h
          obtain ⟨r', hrest, hoperands, hextras⟩ := use_eq_ok h
          exact ⟨r', tail, hoperands, hextras, hrest, .inr ⟨Option.some_ne_none _, rfl, value, rfl⟩⟩
        | unknown => simp [readWords, hvalue] at h
        | separator => simp [readWords, hvalue] at h
        | option => simp [readWords, hvalue] at h

end Options

end Grammar

/-! ### What lines consist of -/

/-- How a line that an extraction takes is put together, with its operands: from operands and from options, with the
next word where they need one for their value. -/
inductive Consists : (operands line : List String) → Prop
  | nil : Consists [] []
  | separated (words : List String) : Consists words ("--" :: words)
  | operand {word : String} {operands rest : List String} (hword : IsOperand word) (h : Consists operands rest) :
      Consists (word :: operands) (word :: rest)
  | option {word spelling : String} {flag : Flag} {attached : Option Attached} {operands rest : List String}
      (hrole : Grammar.inventory.role word = .ok (.option spelling flag attached))
      (hvalue : flag.value = none ∨ attached ≠ none) (h : Consists operands rest) : Consists operands (word :: rest)
  | setting {word spelling value : String} {flag : Flag} {operands rest : List String}
      (hrole : Grammar.inventory.role word = .ok (.option spelling flag none)) (hflag : flag.value ≠ none)
      (hvalue : IsOperand value) (h : Consists operands rest) : Consists operands (word :: value :: rest)

section Consists

variable {r : Reading} {stage : Stage}

theorem extras_ne_nil_of_addExtras {g : Grammar} {words : List Word} {text : String}
    (h : (g.readWords stage words).map (·.addExtras [text]) = .ok r) : r.extras ≠ [] := by
  obtain ⟨r', -, rfl⟩ := exists_of_map_eq_ok h
  exact List.cons_ne_nil _ _

theorem readWords_operand_eq_ok {text : String} {rest : List Word}
    (h : Grammar.inventory.readWords stage (⟨text, .operand⟩ :: rest) = .ok r) (hextras : r.extras = []) :
    ∃ r', Grammar.inventory.readWords .taken rest = .ok r' ∧ r'.extras = [] ∧
      r.operands = text :: r'.operands := by
  cases stage with
  | awaited =>
    change (Grammar.inventory.readWords .taken rest).map (·.addOperand text) = .ok r at h
    obtain ⟨r', hread, rfl⟩ := exists_of_map_eq_ok h
    exact ⟨r', hread, hextras, rfl⟩
  | taken => exact absurd hextras (extras_ne_nil_of_addExtras h)
  | closed => exact absurd hextras (extras_ne_nil_of_addExtras h)

/-- Behind the separator there are operands alone. -/
theorem operands_of_readWords {words : List String}
    (h : Grammar.inventory.readWords stage (words.map (⟨·, .operand⟩)) = .ok r) (hextras : r.extras = []) :
    r.operands = words := by
  induction words generalizing stage r with
  | nil =>
    obtain rfl : ({} : Reading) = r := Except.ok.inj h
    rfl
  | cons word words ih =>
    obtain ⟨r', hread, hextras', hoperands⟩ := readWords_operand_eq_ok h hextras
    rw [hoperands, ih hread hextras']

theorem consists_of_readWords {line : List String} {words : List Word}
    (hwords : Grammar.inventory.words line = .ok words) (h : Grammar.inventory.readWords stage words = .ok r)
    (hextras : r.extras = []) : Consists r.operands line := by
  induction hlength : line.length using Nat.strong_induction_on generalizing line words stage r with
  | _ length ih =>
    subst hlength
    cases line with
    | nil =>
      obtain rfl := Except.ok.inj hwords
      obtain rfl : ({} : Reading) = r := Except.ok.inj h
      exact .nil
    | cons word rest =>
      rcases Grammar.words_cons_eq_ok hwords with ⟨rfl, rfl⟩ | ⟨role, tail, -, hrole, htail, rfl⟩
      · cases stage with
        | awaited | taken =>
          rw [operands_of_readWords h hextras]
          exact .separated rest
        | closed => exact absurd hextras (extras_ne_nil_of_addExtras h)
      cases Grammar.hasRole hrole with
      | unknown => exact absurd hextras (extras_ne_nil_of_addExtras h)
      | operand =>
        obtain ⟨r', hread, hextras', hoperands⟩ := readWords_operand_eq_ok h hextras
        rw [hoperands]
        exact .operand hrole (ih rest.length (Nat.lt_succ_self _) htail hread hextras' rfl)
      | option =>
        obtain ⟨r', behind, hoperands, hextras', hread, ⟨hvalue, rfl⟩ | ⟨hvalue, rfl, value, rfl⟩⟩ :=
          Grammar.readWords_option_eq_ok h
        · rw [← hoperands]
          exact .option hrole hvalue (ih rest.length (Nat.lt_succ_self _) htail hread (hextras'.trans hextras) rfl)
        · cases rest with
          | nil => cases htail
          | cons next rest =>
            rcases Grammar.words_cons_eq_ok htail with ⟨rfl, heq⟩ | ⟨role, tail, -, hnext, hrest, heq⟩
            · cases heq
            · obtain ⟨⟨rfl, rfl⟩, rfl⟩ : (value = next ∧ .operand = role) ∧ behind = tail := by simpa using heq
              have hlt : rest.length < (word :: value :: rest).length := by simp
              rw [← hoperands]
              exact .setting hrole hvalue hnext (ih rest.length hlt hrest hread (hextras'.trans hextras) rfl)

theorem consists_of_read {line : List String} (h : Grammar.inventory.read line = .ok r) (hextras : r.extras = []) :
    Consists r.operands line := by
  rw [Grammar.read] at h
  cases hwords : Grammar.inventory.words line with
  | error misuse =>
    rw [hwords] at h
    cases h
  | ok words =>
    rw [hwords] at h
    exact consists_of_readWords hwords h hextras

end Consists

/-! ### What is taken for a command -/

section First

variable {word name value : String} {line rest operands : List String}

theorem mem_of_firstOperand? (h : firstOperand? line = some name) : name ∈ line := by
  fun_induction firstOperand? line with
  | case1 => cases h
  | case2 => cases h
  | case3 _ _ _ rest ih => exact List.mem_cons_of_mem _ (List.mem_cons_of_mem _ (ih h))
  | case4 _ _ _ _ ih => exact List.mem_cons_of_mem _ (ih h)
  | case5 =>
    obtain rfl := Option.some.inj h
    exact List.mem_cons_self

theorem not_mem_valueOptions_of_role {spelling : String} {flag : Flag} {attached : Option Attached}
    (hrole : Grammar.inventory.role word = .ok (.option spelling flag attached))
    (hvalue : flag.value = none ∨ attached ≠ none) : word ∉ valueOptions := by
  intro hmem
  have hfull : ∀ name ∈ valueOptions, ∃ flag ∈ settings, name ∈ flag.names := by decide +kernel
  obtain ⟨full, hfull, hname⟩ := hfull word hmem
  have hname := isSettingName hfull hname
  obtain ⟨-, rfl, rfl⟩ := Role.option.inj (Except.ok.inj ((hname.role rfl).symm.trans hrole))
  obtain ⟨arg, harg⟩ := hname.value
  rcases hvalue with hnone | hnone
  · rw [harg] at hnone
    cases hnone
  · exact hnone rfl

theorem isCutShort_of_role {spelling : String} {flag : Flag}
    (hrole : Grammar.inventory.role word = .ok (.option spelling flag none)) (hflag : flag.value ≠ none)
    (hword : word ∉ valueOptions) : IsCutShort word := by
  have hnames : ∀ s ∈ Grammar.inventory.spellings, s.2.value ≠ none → s.1 ∈ valueOptions := by decide +kernel
  cases Grammar.hasRole hrole with
  | option hdash hmem hshort =>
    have hspelling : spelling ∈ valueOptions := hnames _ hmem hflag
    exact ⟨spelling, hspelling, fun heq => hword (heq ▸ hspelling), flag, hrole⟩

/-- The words of an accepted line hold no command but behind an option that is cut short. -/
theorem Consists.overlooks (h : Consists operands line)
    (hoperands : ∀ word ∈ operands, Command.ofName? word = none) (hfirst : firstOperand? line = some name)
    (hname : (Command.ofName? name).isSome = true) : Overlooks line := by
  have hother : ∀ word, Command.ofName? word = none → name ≠ word := by
    rintro word hword rfl
    rw [hword] at hname
    cases hname
  induction h with
  | nil => cases hfirst
  | separated words =>
    rw [firstOperand?_cons_of_dash (by decide +kernel) (by decide +kernel)] at hfirst
    exact absurd rfl (hother name (hoperands name (mem_of_firstOperand? hfirst)))
  | @operand word operands rest hword h ih =>
    obtain ⟨hhead, htail⟩ := List.forall_mem_cons.mp hoperands
    by_cases hdash : word.startsWith "-" = true
    · rw [firstOperand?_cons_of_dash hword.ne.2.2 hdash] at hfirst
      exact .dashed hword.ne.2.2 hdash (ih htail hfirst)
    · rw [firstOperand?_cons_of_plain hword.ne.2.2 hdash] at hfirst
      exact absurd (Option.some.inj hfirst).symm (hother word hhead)
  | @option word spelling flag attached operands rest hrole hvalue h ih =>
    have hmem := not_mem_valueOptions_of_role hrole hvalue
    cases Grammar.hasRole hrole with
    | option hdash =>
      rw [firstOperand?_cons_of_dash hmem hdash] at hfirst
      exact .dashed hmem hdash (ih hoperands hfirst)
  | @setting word spelling value flag operands rest hrole hflag hvalue h ih =>
    by_cases hmem : word ∈ valueOptions
    · rw [firstOperand?_cons_of_setting hmem] at hfirst
      exact .setting value hmem (ih hoperands hfirst)
    cases Grammar.hasRole hrole with
    | option hdash =>
      rw [firstOperand?_cons_of_dash hmem hdash] at hfirst
      by_cases hvdash : value.startsWith "-" = true
      · rw [firstOperand?_cons_of_dash hvalue.ne.2.2 hvdash] at hfirst
        exact .dashed hmem hdash (.dashed hvalue.ne.2.2 hvdash (ih hoperands hfirst))
      · rw [firstOperand?_cons_of_plain hvalue.ne.2.2 hvdash] at hfirst
        obtain rfl := Option.some.inj hfirst
        exact .value rest (isCutShort_of_role hrole hflag hmem) hname

/-! ### What is refused -/

/-- Before a command nothing is known that is short for an option with a value. -/
theorem IsCutShort.role_eq (h : IsCutShort word) :
    word ∉ valueOptions ∧ word.startsWith "-" = true ∧ Grammar.commands.role word = .ok .unknown := by
  -- what is short for a name is one of its beginnings, of which there are few
  have hbeginnings : ∀ s ∈ Grammar.inventory.spellings, s.1 ∈ valueOptions → ∀ p ∈ s.1.toList.inits,
      String.ofList p ≠ s.1 → Grammar.inventory.role (String.ofList p) = .ok (.option s.1 s.2 none) →
        String.ofList p ∉ valueOptions ∧ Grammar.commands.role (String.ofList p) = .ok .unknown := by
    decide +kernel
  obtain ⟨name, hname, hne, flag, hrole⟩ := h
  cases Grammar.hasRole hrole with
  | option hdash hmem hshort =>
    have hinits : word.toList ∈ name.toList.inits := (List.mem_inits _ _).mpr (hshort rfl)
    have hword := hbeginnings _ hmem hname _ hinits
    rw [String.ofList_toList] at hword
    obtain ⟨hvalue, hunknown⟩ := hword hne hrole
    exact ⟨hvalue, hdash, hunknown⟩

theorem not_dashed_of_ofName? (h : (Command.ofName? word).isSome = true) :
    word ∉ valueOptions ∧ ¬ word.startsWith "-" = true := by
  have hnames : ∀ c ∈ Command.all, c.name ∉ valueOptions ∧ ¬ c.name.startsWith "-" = true := by decide +kernel
  obtain ⟨c, hc⟩ := Option.isSome_iff_exists.mp h
  obtain rfl : c.name = word := by simpa [Command.ofName?] using List.find?_some hc
  exact hnames c (Command.mem_all c)

theorem ofName?_eq_none_of_dash (h : word.startsWith "-" = true) : Command.ofName? word = none := by
  cases hname : Command.ofName? word with
  | none => rfl
  | some c => exact absurd h (not_dashed_of_ofName? (by rw [hname]; rfl)).2

theorem Overlooks.hasCommand (h : Overlooks line) : hasCommand line = true := by
  have hfirst : ((firstOperand? line).bind Command.ofName?).isSome = true := by
    induction h with
    | @value word name rest hword hname =>
      obtain ⟨hmem, hdash, -⟩ := hword.role_eq
      obtain ⟨hvalue, hplain⟩ := not_dashed_of_ofName? hname
      rwa [firstOperand?_cons_of_dash hmem hdash, firstOperand?_cons_of_plain hvalue hplain]
    | setting value hname _ ih => rwa [firstOperand?_cons_of_setting hname]
    | dashed hword hdash _ ih => rwa [firstOperand?_cons_of_dash hword hdash]
  rw [CommandLine.hasCommand, hfirst, Bool.true_or]

theorem Overlooks.exists_isCutShort (h : Overlooks line) : ∃ word ∈ line, IsCutShort word := by
  induction h with
  | value rest hword => exact ⟨_, List.mem_cons_self, hword⟩
  | setting _ _ _ ih =>
    obtain ⟨word, hword, hshort⟩ := ih
    exact ⟨word, List.mem_cons_of_mem _ (List.mem_cons_of_mem _ hword), hshort⟩
  | dashed _ _ _ ih =>
    obtain ⟨word, hword, hshort⟩ := ih
    exact ⟨word, List.mem_cons_of_mem _ hword, hshort⟩

theorem extras_ne_nil_of_unknown {words : List Word} {r : Reading}
    (hrole : Grammar.commands.role word = .ok .unknown)
    (hwords : Grammar.commands.words (word :: rest) = .ok words)
    (hread : Grammar.commands.readWords .awaited words = .ok r) : r.extras ≠ [] := by
  rcases Grammar.words_cons_eq_ok hwords with ⟨rfl, -⟩ | ⟨role, tail, -, hrole', -, rfl⟩
  · exact absurd hrole (by decide +kernel)
  · obtain rfl := Except.ok.inj (hrole.symm.trans hrole')
    exact extras_ne_nil_of_addExtras hread

/-- Where a value is taken for a command, a word in front of it is refused. -/
theorem Overlooks.refused {words : List Word} {r : Reading} (h : Overlooks line)
    (hwords : Grammar.commands.words line = .ok words) (hread : Grammar.commands.readWords .awaited words = .ok r) :
    r.extras ≠ [] ∨ ∀ name ∈ r.operands.head?, Command.ofName? name = none := by
  have hvalueless : ∀ s ∈ Grammar.commands.spellings, s.2.value = none := by decide +kernel
  have hsettings : ∀ name ∈ valueOptions, Grammar.commands.role name = .ok .unknown := by decide +kernel
  induction h generalizing words r with
  | value rest hword =>
    obtain ⟨-, -, hunknown⟩ := hword.role_eq
    exact .inl (extras_ne_nil_of_unknown hunknown hwords hread)
  | setting value hname => exact .inl (extras_ne_nil_of_unknown (hsettings _ hname) hwords hread)
  | @dashed word rest hword hdash _ ih =>
    have hnone : Command.ofName? word = none := ofName?_eq_none_of_dash hdash
    rcases Grammar.words_cons_eq_ok hwords with ⟨rfl, rfl⟩ | ⟨role, tail, -, hrole, htail, rfl⟩
    · obtain rfl := Except.ok.inj hread
      exact .inr fun name hname => Option.some.inj hname ▸ hnone
    cases Grammar.hasRole hrole with
    | unknown => exact .inl (extras_ne_nil_of_addExtras hread)
    | operand =>
      obtain rfl := Except.ok.inj hread
      exact .inr fun name hname => Option.some.inj hname ▸ hnone
    | option _ hmem =>
      obtain ⟨r', behind, hoperands, hextras, hbehind, ⟨-, rfl⟩ | ⟨hvalue, -⟩⟩ :=
        Grammar.readWords_option_eq_ok hread
      · rw [← hoperands, ← hextras]
        exact ih htail hbehind
      · exact absurd (hvalueless _ hmem) hvalue

theorem ofCommand_eq_error {front : Reading} (h : front.extras ≠ []) (c : Command) (words : List String) :
    ∃ stop, Request.ofCommand c front words = .error stop := by
  rw [Request.ofCommand]
  cases (Grammar.ofCommand c).read words with
  | error stop => exact ⟨stop, rfl⟩
  | ok r =>
    dsimp only
    rw [Grammar.refuse, if_neg (by simp [h])]
    exact ⟨_, rfl⟩

theorem Overlooks.ofCommandLine_eq_error (h : Overlooks line) :
    ∃ stop, Request.ofCommandLine line = .error stop := by
  rw [Request.ofCommandLine, Grammar.read]
  cases hwords : Grammar.commands.words line with
  | error misuse => exact ⟨_, rfl⟩
  | ok words =>
    dsimp only
    cases hread : Grammar.commands.readWords .awaited words with
    | error stop => exact ⟨stop, rfl⟩
    | ok front =>
      have hrefused := h.refused hwords hread
      dsimp only
      cases hoperands : front.operands with
      | nil => exact ⟨_, rfl⟩
      | cons name behind =>
        dsimp only
        cases hname : Command.ofName? name with
        | none => exact ⟨_, rfl⟩
        | some c =>
          rcases hrefused with hextras | hnone
          · exact ofCommand_eq_error hextras c behind
          · have hfirst := hnone name (by rw [hoperands]; rfl)
            rw [hname] at hfirst
            cases hfirst

end First

/-- A line that an extraction takes, with no name of a command as its operand, asks for that extraction, unless a
value that is the name of a command is overlooked behind an option that is cut short: then it asks for nothing to be
done. -/
theorem ofLine_of_read {line : List String} {r : Reading} (hread : Grammar.inventory.read line = .ok r)
    (hextras : r.extras = []) (hoperands : ∀ word ∈ r.operands, Command.ofName? word = none)
    (hversion : "--version" ∉ line) :
    (¬ Overlooks line → Request.ofLine line = .ok ⟨.extract r.target (r.has .quiet), r.has .verbose⟩ ∧
      ∀ fs now, run line fs now = Request.run ⟨.extract r.target (r.has .quiet), r.has .verbose⟩ fs now) ∧
      (Overlooks line → (∃ word ∈ line, IsCutShort word) ∧ ∃ stop, Request.ofLine line = .error stop) := by
  constructor
  · intro hnot
    have hplain : hasCommand line = false := by
      rw [← Bool.not_eq_true, hasCommand, Bool.or_eq_true, List.contains_iff_mem, not_or]
      refine ⟨fun hcommand => ?_, hversion⟩
      obtain ⟨c, hc⟩ := Option.isSome_iff_exists.mp hcommand
      obtain ⟨name, hfirst, hname⟩ := Option.bind_eq_some_iff.mp hc
      exact hnot ((consists_of_read hread hextras).overlooks hoperands hfirst (by rw [hname]; rfl))
    have hline : Request.ofLine line = .ok ⟨.extract r.target (r.has .quiet), r.has .verbose⟩ := by
      rw [Request.ofLine, hplain, if_neg Bool.false_ne_true, Request.ofPlainLine, hread]
      dsimp only
      rw [hextras]
      rfl
    exact ⟨hline, fun fs now => by rw [run, hline]⟩
  · intro h
    refine ⟨h.exists_isCutShort, ?_⟩
    rw [Request.ofLine, h.hasCommand, if_pos rfl]
    exact h.ofCommandLine_eq_error

theorem ofLine_commandValues :
    Grammar.inventory.read ["--ou=extract", "-q", "--config", "validate", "site", "--app-r", "modules"] =
        .ok { uses := [(.outDir, "extract"), (.quiet, ""), (.config, "validate"), (.appRoot, "modules")]
              operands := ["site"] } ∧
      ∃ target, Request.ofLine ["--ou=extract", "-q", "--config", "validate", "site", "--app-r", "modules"] =
        .ok ⟨.extract target true, false⟩ := by
  have hread : Grammar.inventory.read ["--ou=extract", "-q", "--config", "validate", "site", "--app-r", "modules"] =
      .ok { uses := [(.outDir, "extract"), (.quiet, ""), (.config, "validate"), (.appRoot, "modules")]
            operands := ["site"] } := by decide +kernel
  have hline := ofLine_of_read hread rfl (by decide) (by decide)
  refine ⟨hread, _, (hline.1 fun h => ?_).1⟩
  exact absurd h.hasCommand (by decide +kernel)

/-- A value is passed over behind the full name of an option and taken for a command behind a shorter one. -/
theorem ofLine_ou_extract :
    Overlooks ["--ou", "extract"] ∧
      Grammar.inventory.read ["--ou", "extract"] = .ok { uses := [(.outDir, "extract")] } ∧
      Request.ofLine ["--ou", "extract"] = .error (.misuse .commands (.unrecognized ["--ou"])) ∧
      Request.ofLine ["--out", "extract"] =
        .ok ⟨.extract (Reading.target { uses := [(.outDir, "extract")] }) false, false⟩ := by
  have hshort : IsCutShort "--ou" :=
    ⟨"--out", by decide +kernel, by decide, .outDirFlag, by decide +kernel⟩
  refine ⟨.value [] hshort (by decide), ?_⟩
  decide +kernel

end RouteInventory.CommandLine
