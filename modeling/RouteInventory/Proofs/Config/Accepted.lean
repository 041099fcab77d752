import RouteInventory.Config.File
import RouteInventory.Proofs.Value.Slots

/-!
# Documents that configure a project

A mapping configures a project when each of its entries names a setting and has a value of the kind that the
setting takes (`Fits`); the defaults are then overridden by what the entries give (`ofMapping_eq_ok_iff`). Any other
mapping is refused for its unknown keys, or else for the first value of a wrong kind (`Misfits`). A refusal can fail
itself: where a key is no text, or a value is too long to be named.
-/

namespace RouteInventory

namespace Value

/-- Whether a value is a text or counts as one. -/
def IsText (v : Value) : Prop := v.text?.isSome = true

instance (v : Value) : Decidable v.IsText := inferInstanceAs (Decidable (_ = true))

theorem texts?_isSome_iff (v : Value) :
    v.texts?.isSome = true ↔ ∃ items, v = .list items ∧ ∀ x ∈ items, x.IsText := by
  cases v with
  | list items =>
    rw [texts?, mapM_isSome_iff]
    exact ⟨fun h => ⟨items, rfl, h⟩, fun ⟨_, heq, h⟩ => list.inj heq ▸ h⟩
  | _ => simp [texts?]

def flag? : Value → Option Bool
  | bool b => some b
  | _ => none

/-! What is read from a value of the right kind; of other values nothing is. -/

def readTexts (v : Value) : List String := v.texts?.getD []

def readSize (v : Value) : Nat := (v.int?.getD 0).toNat

def readFlag (v : Value) : Bool := v.flag?.getD false

end Value

namespace Setting

/-- Whether a value is of the kind that a setting takes. -/
def Takes : Setting → Value → Prop
  | appRoot, v | rootModule, v | outDir, v => v.IsText
  | ignoredDirectories, v | excludedRoutes, v | exampleLookups, v =>
    ∃ items, v = .list items ∧ ∀ x ∈ items, x.IsText
  | sampleSize, v => ∃ n : Nat, v.int? = some (n : Int)
  | deterministic, v => ∃ b, v = .bool b

instance : (s : Setting) → (v : Value) → Decidable (s.Takes v)
  | appRoot, v | rootModule, v | outDir, v => inferInstanceAs (Decidable v.IsText)
  | ignoredDirectories, v | excludedRoutes, v | exampleLookups, v =>
    decidable_of_iff (v.texts?.isSome = true) v.texts?_isSome_iff
  | sampleSize, v => decidable_of_iff (∃ n ∈ v.int?, 0 ≤ n)
    ⟨fun ⟨n, hn, hpos⟩ => ⟨n.toNat, by rw [Int.toNat_of_nonneg hpos]; exact hn⟩,
      fun ⟨n, hn⟩ => ⟨n, hn, Int.natCast_nonneg n⟩⟩
  | deterministic, v => decidable_of_iff (v.flag?.isSome = true) (by cases v <;> simp [Value.flag?, Takes])

/-- Why a setting refuses a value. -/
def refusal (s : Setting) (v : Value) : ConfigFault :=
  match s with
  | appRoot | rootModule | outDir => .notPath s.name v
  | ignoredDirectories | excludedRoutes | exampleLookups => .notTexts s.name v
  | sampleSize => .notSize v
  | deterministic => .notFlag v

/-- The value that entries give to a setting, the last one counting. -/
def given (s : Setting) : List (Value × Value) → Option Value
  | [] => none
  | (key, value) :: rest => (s.given rest).or (if ofKey? key = some s then some value else none)

end Setting

/-- The settings that entries give. -/
def Overrides.ofEntries (entries : List (Value × Value)) : Overrides where
  appRoot := (Setting.appRoot.given entries).map fun v => .ofString v.nameText
  rootModule := (Setting.rootModule.given entries).map fun v => .ofString v.nameText
  outDir := (Setting.outDir.given entries).map fun v => .ofString v.nameText
  ignoredDirectories := (Setting.ignoredDirectories.given entries).map Value.readTexts
  excludedRoutes := (Setting.excludedRoutes.given entries).map Value.readTexts
  exampleLookups := (Setting.exampleLookups.given entries).map Value.readTexts
  sampleSize := (Setting.sampleSize.given entries).map Value.readSize
  deterministic := (Setting.deterministic.given entries).map Value.readFlag

/-- Whether a fault is the refusal of a document, and not the failure to name what is refused. -/
def ConfigFault.IsRefusal : ConfigFault → Prop
  | unnamedKey _ | unsortedKeys _ | tooLong => False
  | _ => True

namespace Config

/-- Whether an entry names a setting and has a value of its kind. -/
def Fits (e : Value × Value) : Prop := ∃ s ∈ Setting.ofKey? e.1, s.Takes e.2

instance (e : Value × Value) : Decidable (Fits e) := inferInstanceAs (Decidable (∃ s ∈ _, _))

/-- The first entry that does not fit. -/
def firstMisfit? (entries : List (Value × Value)) : Option (Value × Value) :=
  entries.find? fun e => !decide (Fits e)

/-- Why the entries of a mapping are refused: for all keys that name no setting, or else for the first value of a
wrong kind. -/
inductive Misfits (entries : List (Value × Value)) : ConfigFault → Prop
  | keys {e : Value × Value} (hmem : e ∈ entries) (hkey : Setting.ofKey? e.1 = none) :
    Misfits entries (unknownKeysFault (unknownKeys entries))
  | value {e : Value × Value} {s : Setting} (hknown : ∀ x ∈ entries, Setting.ofKey? x.1 ≠ none)
    (hfirst : firstMisfit? entries = some e) (hkey : Setting.ofKey? e.1 = some s) :
    Misfits entries (.of e.2 (s.refusal e.2))

/-- Whether a document gives a configuration to a project: it counts as empty, or all its entries fit. -/
def Configures (root : Path) (document : Value) (c : Config) : Prop :=
  (document.isBlank = true ∧ c = { projectRoot := root }) ∨
    ∃ entries, document = .mapping entries ∧ (∀ e ∈ entries, Fits e) ∧
      c = override { projectRoot := root } (.ofEntries entries)

/-- Whether what is wrong in a document can be named: its unknown keys are texts, or else no whole number in its first
value of a wrong kind is too long to be written. -/
def IsNameable : Value → Prop
  | .mapping entries =>
    (∀ e ∈ entries, Setting.ofKey? e.1 = none → e.1.IsText) ∧
      ((∀ e ∈ entries, Setting.ofKey? e.1 ≠ none) → ∀ e ∈ firstMisfit? entries, e.2.isTooLong = false)
  | _ => True

variable {c : Config} {root file : Path} {key value : Value} {entries : List (Value × Value)}
  {s : Setting} {fault : ConfigFault}

/-! ### One setting -/

theorem set_of_takes (c : Config) (hkey : Setting.ofKey? key = some s) (h : s.Takes value) :
    c.set s value = .ok (c.override (.ofEntries [(key, value)])) := by
  cases s with
  | appRoot | rootModule | outDir =>
    obtain ⟨text, htext⟩ := Option.isSome_iff_exists.mp h
    simp [Config.set, setPath, htext, override, Overrides.ofEntries, Setting.given, hkey]
  | ignoredDirectories | excludedRoutes | exampleLookups =>
    obtain ⟨texts, htexts⟩ := Option.isSome_iff_exists.mp (value.texts?_isSome_iff.mpr h)
    simp [Config.set, setTexts, htexts, override, Overrides.ofEntries, Setting.given, hkey, Value.readTexts]
  | sampleSize =>
    obtain ⟨n, hn⟩ := h
    simp [Config.set, hn, override, Overrides.ofEntries, Setting.given, hkey, Value.readSize]
  | deterministic =>
    obtain ⟨b, rfl⟩ := h
    simp [Config.set, override, Overrides.ofEntries, Setting.given, hkey, Value.readFlag, Value.flag?]

theorem set_of_not_takes (c : Config) (h : ¬ s.Takes value) :
    c.set s value = .error (.of value (s.refusal value)) := by
  cases s with
  | appRoot | rootModule | outDir =>
    have hnone : value.text? = none := by simpa [Setting.Takes, Value.IsText] using h
    simp [Config.set, setPath, hnone, Setting.refusal]
  | ignoredDirectories | excludedRoutes | exampleLookups =>
    have hnone : value.texts? = none :=
      Option.not_isSome_iff_eq_none.mp fun hsome => h (value.texts?_isSome_iff.mp hsome)
    simp [Config.set, setTexts, hnone, Setting.refusal]
  | sampleSize =>
    unfold Config.set
    dsimp only
    split
    · next n hn => exact absurd ⟨n, hn⟩ h
    · rfl
  | deterministic =>
    unfold Config.set
    dsimp only
    split
    · next b => exact absurd ⟨b, rfl⟩ h
    · rfl

/-! ### All settings -/

/-- The later entries override the earlier ones. -/
theorem override_ofEntries_cons (c : Config) (key value : Value) (rest : List (Value × Value)) :
    c.override (.ofEntries ((key, value) :: rest)) =
      (c.override (.ofEntries [(key, value)])).override (.ofEntries rest) := by
  have hgiven (s : Setting) : s.given ((key, value) :: rest) = (s.given rest).or (s.given [(key, value)]) := rfl
  have hget {α : Type} (later earlier : Option Value) (f : Value → α) (d : α) :
      ((later.or earlier).map f).getD d = (later.map f).getD ((earlier.map f).getD d) := by
    cases later <;> rfl
  simp only [override, Overrides.ofEntries, hgiven, Option.map_map, hget]
  rfl

theorem setAll_of_fits (c : Config) (h : ∀ e ∈ entries, Fits e) :
    c.setAll entries = .ok (c.override (.ofEntries entries)) := by
  induction entries generalizing c with
  | nil => rfl
  | cons e rest ih =>
    obtain ⟨key, value⟩ := e
    obtain ⟨⟨s, hkey, htakes⟩, hrest⟩ := List.forall_mem_cons.mp h
    rw [setAll, show Setting.ofKey? key = some s from hkey, override_ofEntries_cons, ← ih _ hrest]
    dsimp only
    rw [set_of_takes c hkey htakes]
    rfl

theorem setAll_of_misfit (c : Config) {e : Value × Value} (hfirst : firstMisfit? entries = some e)
    (hkey : Setting.ofKey? e.1 = some s) : c.setAll entries = .error (.of e.2 (s.refusal e.2)) := by
  induction entries generalizing c with
  | nil => cases hfirst
  | cons x rest ih =>
    obtain ⟨key, value⟩ := x
    rw [firstMisfit?, List.find?_cons] at hfirst
    split at hfirst
    · next hmisfit =>
      cases hfirst
      have hnot : ¬ s.Takes value := fun htakes => by simp [show Fits (key, value) from ⟨s, hkey, htakes⟩] at hmisfit
      rw [setAll, show Setting.ofKey? key = some s from hkey]
      dsimp only
      rw [set_of_not_takes c hnot]
      rfl
    · next hfit =>
      obtain ⟨s', hkey', htakes⟩ : Fits (key, value) := by simpa using hfit
      rw [setAll, show Setting.ofKey? key = some s' from hkey', ← ih _ hfirst]
      dsimp only
      rw [set_of_takes c hkey' htakes]
      rfl

/-! ### Mappings -/

theorem mem_of_mem_unknownKeys (h : key ∈ unknownKeys entries) :
    Setting.ofKey? key = none ∧ ∃ e ∈ entries, e.1 = key := by
  obtain ⟨hmem, hnone⟩ := List.mem_filter.mp (Value.mem_of_mem_listed (Value.mem_of_mem_listed h))
  exact ⟨by simpa using hnone, by simpa using List.mem_map.mp hmem⟩

theorem unknownKeys_ne_nil {e : Value × Value} (hmem : e ∈ entries) (hkey : Setting.ofKey? e.1 = none) :
    unknownKeys entries ≠ [] := by
  refine Value.listed_ne_nil (Value.listed_ne_nil (List.ne_nil_of_mem (a := e.1) ?_))
  exact List.mem_filter.mpr ⟨List.mem_map_of_mem hmem, by simp [hkey]⟩

theorem unknownKeys_eq_nil (h : ∀ e ∈ entries, Setting.ofKey? e.1 ≠ none) : unknownKeys entries = [] := by
  refine List.eq_nil_iff_forall_not_mem.mpr fun key hkey => ?_
  obtain ⟨hnone, e, he, rfl⟩ := mem_of_mem_unknownKeys hkey
  exact h e he hnone

theorem ofMapping_of_fits (root : Path) (h : ∀ e ∈ entries, Fits e) :
    ofMapping root entries = .ok (override { projectRoot := root } (.ofEntries entries)) := by
  have hknown : ∀ e ∈ entries, Setting.ofKey? e.1 ≠ none := by
    intro e he hnone
    obtain ⟨s, hs, -⟩ := h e he
    rw [hnone] at hs
    cases hs
  rw [ofMapping, unknownKeys_eq_nil hknown]
  exact setAll_of_fits _ h

theorem ofMapping_of_misfits (root : Path) (h : Misfits entries fault) :
    ofMapping root entries = .error fault := by
  unfold ofMapping
  dsimp only
  cases h with
  | keys hmem hkey =>
    rw [if_neg (by simpa using unknownKeys_ne_nil hmem hkey)]
  | value hknown hfirst hkey =>
    rw [unknownKeys_eq_nil hknown]
    exact setAll_of_misfit _ hfirst hkey

theorem fits_or_misfits (entries : List (Value × Value)) :
    (∀ e ∈ entries, Fits e) ∨ ∃ fault, Misfits entries fault := by
  by_cases hknown : ∀ e ∈ entries, Setting.ofKey? e.1 ≠ none
  · cases hfirst : firstMisfit? entries with
    | none => exact .inl fun e he => by simpa using List.find?_eq_none.mp hfirst e he
    | some e =>
      obtain ⟨s, hkey⟩ := Option.ne_none_iff_exists'.mp (hknown e (List.mem_of_find?_eq_some hfirst))
      exact .inr ⟨_, .value hknown hfirst hkey⟩
  · push Not at hknown
    obtain ⟨e, he, hkey⟩ := hknown
    exact .inr ⟨_, .keys he hkey⟩

theorem ofMapping_eq_ok_iff (root : Path) (entries : List (Value × Value)) :
    ofMapping root entries = .ok c ↔
      (∀ e ∈ entries, Fits e) ∧ c = override { projectRoot := root } (.ofEntries entries) := by
  constructor
  · intro h
    rcases fits_or_misfits entries with hfits | ⟨fault, hmisfits⟩
    · rw [ofMapping_of_fits root hfits] at h
      exact ⟨hfits, (Except.ok.inj h).symm⟩
    · rw [ofMapping_of_misfits root hmisfits] at h
      cases h
  · rintro ⟨hfits, rfl⟩
    exact ofMapping_of_fits root hfits

theorem ofMapping_eq_error_iff (root : Path) (entries : List (Value × Value)) :
    ofMapping root entries = .error fault ↔ Misfits entries fault := by
  refine ⟨fun h => ?_, ofMapping_of_misfits root⟩
  rcases fits_or_misfits entries with hfits | ⟨fault', hmisfits⟩
  · rw [ofMapping_of_fits root hfits] at h
    cases h
  · rw [ofMapping_of_misfits root hmisfits] at h
    exact Except.error.inj h ▸ hmisfits

/-! ### Refusals -/

theorem isRefusal_refusal (s : Setting) (v : Value) : (s.refusal v).IsRefusal := by
  cases s <;> trivial

theorem isRefusal_of_iff (s : Setting) (v : Value) :
    (ConfigFault.of v (s.refusal v)).IsRefusal ↔ v.isTooLong = false := by
  rw [ConfigFault.of]
  split
  · next h => simp [ConfigFault.IsRefusal, h]
  · next h => simpa [isRefusal_refusal] using h

theorem slotKey?_of_isText {v : Value} (h : v.IsText) : v.slotKey? = none := by
  cases v with
  | text s => rfl
  | member m =>
    obtain ⟨enumeration, name, worth⟩ := m
    cases worth with
    | text s => rfl
    | number n => cases h
  | _ => cases h

/-- A text among the keys makes the set of the unknown ones list them as they came. -/
theorem isText_unknownKeys_iff : (∀ key ∈ unknownKeys entries, key.IsText) ↔
    ∀ e ∈ entries, Setting.ofKey? e.1 = none → e.1.IsText := by
  constructor
  · intro h e he hkey
    obtain ⟨text, htext⟩ := List.exists_mem_of_ne_nil _ (unknownKeys_ne_nil he hkey)
    have hnone := slotKey?_of_isText (h text htext)
    have hmem := Value.mem_of_mem_listed (Value.mem_of_mem_listed htext)
    have hlisted : unknownKeys entries =
        (entries.map (·.1)).filter fun key => (Setting.ofKey? key).isNone := by
      rw [unknownKeys, Value.listed_of_slotKey?_eq_none hmem hnone, Value.listed_of_slotKey?_eq_none hmem hnone]
    refine h e.1 ?_
    rw [hlisted]
    exact List.mem_filter.mpr ⟨List.mem_map_of_mem he, by simp [hkey]⟩
  · intro h key hkey
    obtain ⟨hnone, e, he, rfl⟩ := mem_of_mem_unknownKeys hkey
    exact h e he hnone

theorem isRefusal_unknownKeysFault_iff (keys : List Value) :
    (unknownKeysFault keys).IsRefusal ↔ ∀ key ∈ keys, key.IsText := by
  have htexts : (Value.list keys).texts?.isSome = true ↔ ∀ key ∈ keys, key.IsText := Value.mapM_isSome_iff
  rw [← htexts, unknownKeysFault]
  cases h : (Value.list keys).texts? with
  | some names => simp [ConfigFault.IsRefusal]
  | none =>
    dsimp only
    split <;> simp [ConfigFault.IsRefusal]

theorem Misfits.isRefusal_iff (h : Misfits entries fault) :
    fault.IsRefusal ↔ IsNameable (.mapping entries) := by
  cases h with
  | keys hmem hkey =>
    rw [isRefusal_unknownKeysFault_iff, isText_unknownKeys_iff, IsNameable]
    exact (and_iff_left fun hknown => absurd hkey (hknown _ hmem)).symm
  | value hknown hfirst hkey =>
    rw [isRefusal_of_iff, IsNameable, hfirst]
    constructor
    · intro h
      exact ⟨fun e he hnone => absurd hnone (hknown e he), fun _ e he => Option.some.inj he ▸ h⟩
    · rintro ⟨-, h⟩
      exact h hknown _ rfl

/-! ### Documents -/

theorem ofDocument_eq_ok_iff (root file : Path) (document : Value) :
    ofDocument root file document = .ok c ↔ Configures root document c := by
  unfold ofDocument Configures
  by_cases hblank : document.isBlank = true
  · rw [if_pos hblank, ofMapping_eq_ok_iff]
    constructor
    · rintro ⟨-, rfl⟩
      exact .inl ⟨hblank, rfl⟩
    · rintro (⟨-, rfl⟩ | ⟨entries, rfl, -, rfl⟩)
      · exact ⟨by simp, rfl⟩
      · obtain rfl : entries = [] := List.isEmpty_iff.mp hblank
        exact ⟨by simp, rfl⟩
  · rw [if_neg hblank]
    cases document with
    | mapping entries =>
      rw [ofMapping_eq_ok_iff]
      constructor
      · exact fun h => .inr ⟨entries, rfl, h⟩
      · rintro (⟨h, -⟩ | ⟨_, heq, h⟩)
        · exact absurd h hblank
        · exact Value.mapping.inj heq ▸ h
    | _ => simp [hblank]

theorem ofDocument_eq_error (h : ofDocument root file value = .error fault) :
    fault.IsRefusal ↔ IsNameable value := by
  unfold ofDocument at h
  by_cases hblank : value.isBlank = true
  · rw [if_pos hblank, ofMapping_of_fits root (by simp)] at h
    cases h
  · rw [if_neg hblank] at h
    cases value with
    | mapping entries => exact ((ofMapping_eq_error_iff root entries).mp h).isRefusal_iff
    | _ =>
      cases h
      simp [ConfigFault.IsRefusal, IsNameable]

end Config

/-- Whether a file holds a YAML document. -/
def FileSystem.HoldsDocument (fs : FileSystem) (file : Path) (document : Value) : Prop :=
  ∃ text cutOff, fs.readPiecewise file = .ok (text, cutOff) ∧
    Yaml.load text (cutOff.map .undecodable) = .ok document

namespace Config

variable {fs : FileSystem} {document : Value}

theorem ofFile_of_holdsDocument (root : Option Path) (h : fs.HoldsDocument file document) :
    ofFile fs root file = (ofDocument (root.getD file.parent) file document).mapError .refused := by
  obtain ⟨text, cutOff, hread, hload⟩ := h
  rw [ofFile, hread]
  dsimp only
  rw [hload]

/-- A file gives a configuration just if its document counts as empty or is a mapping whose entries all fit, and then
the one that the entries give, for the project that is asked for or else for the directory of the file. Otherwise it
is refused, unless what is wrong cannot be named. -/
theorem ofFile_configures (root : Option Path) (h : fs.HoldsDocument file document) :
    (∀ c, ofFile fs root file = .ok c ↔ Configures (root.getD file.parent) document c) ∧
      ∀ fault, ofFile fs root file = .error fault →
        ∃ reason, fault = .refused reason ∧ (reason.IsRefusal ↔ IsNameable document) := by
  rw [ofFile_of_holdsDocument root h]
  constructor
  · intro c
    rw [← ofDocument_eq_ok_iff (root.getD file.parent) file]
    cases ofDocument (root.getD file.parent) file document <;> simp [Except.mapError]
  · intro fault hfault
    cases hdocument : ofDocument (root.getD file.parent) file document with
    | ok c =>
      rw [hdocument] at hfault
      cases hfault
    | error reason =>
      rw [hdocument] at hfault
      cases hfault
      exact ⟨reason, rfl, ofDocument_eq_error hdocument⟩

/-- A project with a file of settings and two that are none. -/
def settingsFiles : FileSystem where
  entries :=
    [(⟨["settings.yaml"]⟩,
        .file (Text.Utf8.encode "\x7b\"out_dir\": \"x\", \"excluded_routes\": [\"y\"]\x7d".toList)),
      (⟨["list.yaml"]⟩, .file (Text.Utf8.encode "[]".toList)),
      (⟨["number.yaml"]⟩, .file (Text.Utf8.encode "1: []".toList))]
  workingDir := .root

theorem ofFile_configures_settings :
    let file : Path := ⟨.relative, ["settings.yaml"]⟩
    let document : Value := .mapping [(.text "out_dir", .text "x"), (.text "excluded_routes", .list [.text "y"])]
    settingsFiles.HoldsDocument file document ∧ ofFile settingsFiles (some ⟨.relative, []⟩) file =
      .ok { projectRoot := ⟨.relative, []⟩, outDir := ⟨.relative, ["x"]⟩, excludedRoutes := ["y"] } := by
  intro file document
  have hholds : settingsFiles.HoldsDocument file document :=
    ⟨"\x7b\"out_dir\": \"x\", \"excluded_routes\": [\"y\"]\x7d".toList, none, by cbv, by cbv⟩
  refine ⟨hholds, ((ofFile_configures (some ⟨.relative, []⟩) hholds).1 _).mpr (.inr ⟨_, rfl, by decide, ?_⟩)⟩
  rfl

/-- An empty list counts as an empty document, and a key that is a number makes the refusal fail. -/
theorem ofFile_list_number_ne :
    let root : Path := ⟨.relative, []⟩
    let list : Path := ⟨.relative, ["list.yaml"]⟩
    let number : Path := ⟨.relative, ["number.yaml"]⟩
    (settingsFiles.HoldsDocument list (.list []) ∧
        ofFile settingsFiles root list = .ok { projectRoot := root }) ∧
      (settingsFiles.HoldsDocument number (.mapping [(.int 1, .list [])]) ∧
        ofFile settingsFiles root number = .error (.refused (.unnamedKey "int"))) ∧
      ¬ (ConfigFault.unnamedKey "int").IsRefusal := by
  intro root list number
  have hlist : settingsFiles.HoldsDocument list (.list []) := ⟨"[]".toList, none, by cbv, by cbv⟩
  have hnumber : settingsFiles.HoldsDocument number (.mapping [(.int 1, .list [])]) :=
    ⟨"1: []".toList, none, by cbv, by cbv⟩
  refine ⟨⟨hlist, ?_⟩, ⟨hnumber, ?_⟩, id⟩
  · rw [ofFile_of_holdsDocument root hlist]
    rfl
  · rw [ofFile_of_holdsDocument root hnumber]
    rfl

end Config

end RouteInventory
