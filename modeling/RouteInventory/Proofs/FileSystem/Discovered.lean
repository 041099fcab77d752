import RouteInventory.FileSystem.Discovery
import RouteInventory.Proofs.FileSystem.Insert

/-!
# What is discovered

A search that passes over links finds what is in a directory name by name. So two file systems show the same
to it wherever they differ in nothing but new directories and files that it does not select
(`discoverFrom_eq`).
-/

namespace RouteInventory

theorem nodup_eraseDups {α : Type} [BEq α] [LawfulBEq α] (l : List α) : l.eraseDups.Nodup := by
  induction hn : l.length using Nat.strong_induction_on generalizing l with
  | _ n ih =>
    cases l with
    | nil => exact .nil
    | cons a rest =>
      rw [List.eraseDups_cons]
      refine List.nodup_cons.mpr ⟨?_, ih _ ?_ _ rfl⟩
      · simp
      · rw [← hn]
        exact Nat.lt_succ_of_le (List.length_filter_le _ _)

theorem flatMap_filter_eq {α β : Type} {p : α → Bool} {f g : α → List β} {l : List α}
    (hkeep : ∀ a ∈ l, p a = true → f a = g a) (hdrop : ∀ a ∈ l, p a = false → g a = []) :
    (l.filter p).flatMap f = l.flatMap g := by
  induction l with
  | nil => rfl
  | cons a rest ih =>
    have hrest := ih (fun b hb => hkeep b (List.mem_cons_of_mem _ hb))
      fun b hb => hdrop b (List.mem_cons_of_mem _ hb)
    cases hp : p a with
    | true => rw [List.filter_cons_of_pos hp, List.flatMap_cons, List.flatMap_cons, hrest,
        hkeep a List.mem_cons_self hp]
    | false => rw [List.filter_cons_of_neg (by simp [hp]), List.flatMap_cons, hrest,
        hdrop a List.mem_cons_self hp, List.nil_append]

namespace FileSystem

variable {fs fs' : FileSystem} {q : Query} {dir : Location} {name : String}

theorem entryAt?_child_eq_lookup (fs : FileSystem) (dir : Location) (name : String) :
    fs.entryAt? (dir.child name) = fs.entries.lookup (dir.child name) := by
  rw [entryAt?, if_neg]
  simp [Location.child, Location.root]

theorem lookup_ne_none_of_mem {α : Type} {entries : List (Location × α)} {l : Location}
    (h : l ∈ entries.map (·.1)) : entries.lookup l ≠ none := by
  obtain ⟨⟨k, e⟩, hmem, rfl⟩ := List.mem_map.mp h
  intro hnone
  simpa using List.lookup_eq_none_iff.mp hnone (k, e) hmem

theorem childName?_eq_some_iff {l : Location} : childName? dir l = some name ↔ dir.child name = l := by
  unfold childName?
  constructor
  · intro h
    split at h
    · split at h
      · next hl => rwa [← Option.some.inj h]
      · cases h
    · cases h
  · rintro rfl
    simp [Location.child]

theorem mem_childNames : name ∈ fs.childNames dir ↔ fs.entryAt? (dir.child name) ≠ none := by
  rw [childNames, List.mem_mergeSort, List.mem_eraseDups, List.mem_filterMap, entryAt?_child_eq_lookup]
  constructor
  · rintro ⟨⟨l, e⟩, hmem, hl⟩
    rw [childName?_eq_some_iff.mp hl]
    exact lookup_ne_none_of_mem (List.mem_map.mpr ⟨_, hmem, rfl⟩)
  · intro h
    obtain ⟨e, he⟩ := Option.ne_none_iff_exists'.mp h
    obtain ⟨⟨l, e'⟩, hmem, rfl⟩ := List.mem_map.mp (mem_keys_of_lookup he)
    exact ⟨_, hmem, childName?_eq_some_iff.mpr rfl⟩

theorem nodup_childNames (fs : FileSystem) (dir : Location) : (fs.childNames dir).Nodup :=
  (List.mergeSort_perm _ _).nodup_iff.mpr (nodup_eraseDups _)

theorem pairwise_childNames (fs : FileSystem) (dir : Location) :
    (fs.childNames dir).Pairwise (· ≤ ·) := by
  have htrans (a b c : String) (hab : decide (a ≤ b) = true) (hbc : decide (b ≤ c) = true) :
      decide (a ≤ c) = true :=
    decide_eq_true (String.le_trans (of_decide_eq_true hab) (of_decide_eq_true hbc))
  have htotal (a b : String) : (decide (a ≤ b) || decide (b ≤ a)) = true := by
    simpa using String.le_total a b
  exact (List.pairwise_mergeSort htrans htotal _).imp of_decide_eq_true

/-- Of the names in a directory that has some more, those that were there before are left. -/
theorem childNames_eq_filter (h : ∀ name, fs.entryAt? (dir.child name) ≠ none →
      fs'.entryAt? (dir.child name) ≠ none) :
    fs.childNames dir = (fs'.childNames dir).filter fun name => (fs.entryAt? (dir.child name)).isSome := by
  have hperm : (fs.childNames dir).Perm
      ((fs'.childNames dir).filter fun name => (fs.entryAt? (dir.child name)).isSome) := by
    refine (List.perm_ext_iff_of_nodup (nodup_childNames fs dir) ((nodup_childNames fs' dir).filter _)).mpr
      fun name => ?_
    rw [List.mem_filter, mem_childNames, mem_childNames, Option.isSome_iff_ne_none]
    exact ⟨fun hname => ⟨h name hname, hname⟩, fun hname => hname.2⟩
  exact hperm.eq_of_pairwise (fun a b _ _ => String.le_antisymm) (pairwise_childNames fs dir)
    ((pairwise_childNames fs' dir).filter _)

/-- What a search that passes over links finds by one name. -/
def discoveredBy (fs : FileSystem) (q : Query) (links : Nat) (dir : Location) (name : String) :
    List (List String) :=
  match fs.entryAt? (dir.child name) with
  | some .directory =>
    if q.ignoredDirectories.contains name then []
    else (fs.discoverFrom q links (dir.child name)).map (name :: ·)
  | some (.file _) => if q.selects name then [[name]] else []
  | _ => []

theorem discoverFrom_eq_flatMap (hq : q.followLinks = false) (links : Nat) (dir : Location) :
    fs.discoverFrom q links dir = (fs.childNames dir).flatMap (fs.discoveredBy q links dir) := by
  rw [discoverFrom]
  conv_rhs => rw [← List.attach_map_subtype_val (fs.childNames dir), List.flatMap_map]
  refine List.flatMap_congr fun ⟨name, hname⟩ _ => ?_
  unfold discoveredBy
  dsimp only
  split <;> simp_all

/-- A file is discovered by its name in the directory, or in a directory there that is not ignored. -/
theorem mem_discoverFrom_iff (hq : q.followLinks = false) {links : Nat} {names : List String} :
    names ∈ fs.discoverFrom q links dir ↔
      (∃ name content, fs.entryAt? (dir.child name) = some (.file content) ∧ q.selects name = true ∧
        names = [name]) ∨
      ∃ name rest, fs.entryAt? (dir.child name) = some .directory ∧
        q.ignoredDirectories.contains name = false ∧ rest ∈ fs.discoverFrom q links (dir.child name) ∧
        names = name :: rest := by
  rw [discoverFrom_eq_flatMap hq, List.mem_flatMap]
  constructor
  · rintro ⟨name, -, hnames⟩
    unfold discoveredBy at hnames
    split at hnames
    · next hdir =>
      split at hnames
      · exact absurd hnames List.not_mem_nil
      · next hignored =>
        obtain ⟨rest, hrest, rfl⟩ := List.mem_map.mp hnames
        exact .inr ⟨name, rest, hdir, by simpa using hignored, hrest, rfl⟩
    · next content hfile =>
      split at hnames
      · next hsel => exact .inl ⟨name, content, hfile, hsel, List.mem_singleton.mp hnames⟩
      · exact absurd hnames List.not_mem_nil
    · exact absurd hnames List.not_mem_nil
  · rintro (⟨name, content, hfile, hsel, rfl⟩ | ⟨name, rest, hdir, hignored, hrest, rfl⟩)
    · refine ⟨name, mem_childNames.mpr (by rw [hfile]; simp), ?_⟩
      rw [discoveredBy, hfile]
      simp [hsel]
    · refine ⟨name, mem_childNames.mpr (by rw [hdir]; simp), ?_⟩
      rw [discoveredBy, hdir]
      simp only [hignored, Bool.false_eq_true, if_false]
      exact List.mem_map_of_mem hrest

theorem mem_discoverFrom (hq : q.followLinks = false) {links : Nat} {names : List String}
    (h : names ∈ fs.discoverFrom q links dir) : ∃ front last content, names = front ++ [last] ∧
      q.selects last = true ∧ fs.entryAt? ⟨dir.names ++ names⟩ = some (.file content) := by
  induction names generalizing dir with
  | nil =>
    rcases (mem_discoverFrom_iff hq).mp h with ⟨_, _, _, _, heq⟩ | ⟨_, _, _, _, _, heq⟩
    · cases heq
    · cases heq
  | cons first rest ih =>
    rcases (mem_discoverFrom_iff hq).mp h with
      ⟨name, content, hfile, hsel, heq⟩ | ⟨name, below, hdir, -, hbelow, heq⟩
    · obtain ⟨rfl, rfl⟩ := List.cons.inj heq
      exact ⟨[], first, content, rfl, hsel, hfile⟩
    · obtain ⟨rfl, rfl⟩ := List.cons.inj heq
      obtain ⟨front, last, content, rfl, hsel, hfile⟩ := ih hbelow
      exact ⟨first :: front, last, content, rfl, hsel, by simpa [Location.child] using hfile⟩

/-- Whether two file systems show the same to a search by a name in a directory: they have the same there, or
the second has a directory where the first has nothing, or both have something that is not selected. -/
inductive ShowAlike (q : Query) (fs fs' : FileSystem) (dir : Location) (name : String) : Prop
  | same (h : fs'.entryAt? (dir.child name) = fs.entryAt? (dir.child name))
  | added (hnone : fs.entryAt? (dir.child name) = none)
      (hbelow : ∀ inner, fs.entryAt? ((dir.child name).child inner) = none)
      (hnew : fs'.entryAt? (dir.child name) = some .directory)
  | unselected (hname : q.selects name = false) (h : fs.entryAt? (dir.child name) ≠ some .directory)
      (h' : ∃ content, fs'.entryAt? (dir.child name) = some (.file content))

theorem discoverFrom_of_empty (hq : q.followLinks = false) (links : Nat)
    (h : ∀ name, fs.entryAt? (dir.child name) = none) : fs.discoverFrom q links dir = [] := by
  have hnames : fs.childNames dir = [] :=
    List.eq_nil_iff_forall_not_mem.mpr fun name hname => mem_childNames.mp hname (h name)
  rw [discoverFrom_eq_flatMap hq, hnames]
  rfl

/-- A search that passes over links finds the same in file systems that show the same to it. -/
theorem discoverFrom_eq (hq : q.followLinks = false) (h : ∀ dir name, ShowAlike q fs fs' dir name)
    (links links' : Nat) (dir : Location) :
    fs'.discoverFrom q links' dir = fs.discoverFrom q links dir := by
  -- on how deep the second file system still is, since that has all that the first has
  induction hn : fs'.depth - dir.names.length using Nat.strong_induction_on generalizing dir with
  | _ n ih =>
    have hsub (name : String) (hname : fs.entryAt? (dir.child name) ≠ none) :
        fs'.entryAt? (dir.child name) ≠ none := by
      cases h dir name with
      | same hsame => rwa [hsame]
      | added _ _ hnew => rw [hnew]; simp
      | unselected _ _ h' =>
        obtain ⟨content, hcontent⟩ := h'
        rw [hcontent]
        simp
    have hinner (name : String) (hname : name ∈ fs'.childNames dir) :
        fs'.discoverFrom q links' (dir.child name) = fs.discoverFrom q links (dir.child name) := by
      have hdepth := lt_depth_of_mem_childNames hname
      refine ih _ ?_ _ rfl
      rw [← hn]
      simp only [Location.child, List.length_append, List.length_singleton]
      omega
    rw [discoverFrom_eq_flatMap hq, discoverFrom_eq_flatMap hq, childNames_eq_filter hsub]
    symm
    refine flatMap_filter_eq (fun name hname hpresent => ?_) fun name hname habsent => ?_
    · unfold discoveredBy
      cases h dir name with
      | same hsame => rw [hsame, hinner name hname]
      | added hnone => simp [hnone] at hpresent
      | unselected hsel hdir h' =>
        obtain ⟨content, hcontent⟩ := h'
        rw [hcontent]
        dsimp only
        split <;> simp_all
    · unfold discoveredBy
      have hnone : fs.entryAt? (dir.child name) = none := by simpa using habsent
      cases h dir name with
      | same hsame => simp [hsame, hnone]
      | added _ hbelow hnew =>
        rw [hnew, hinner name hname, discoverFrom_of_empty hq links hbelow]
        simp
      | unselected hsel _ h' =>
        obtain ⟨content, hcontent⟩ := h'
        simp [hcontent, hsel]

end FileSystem

end RouteInventory
