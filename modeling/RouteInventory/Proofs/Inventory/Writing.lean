import RouteInventory.Proofs.FileSystem.Directory
import RouteInventory.Proofs.Inventory.Validity

/-!
# Artifacts in order

The artifacts are rendered before anything is changed, then their directory is made, and then they are
written one after another, each in its place. A failure leaves a first part of them new and the rest as
it was, but for the one it comes at: opening its file has emptied it, so if the medium fails after that
there is no more than a beginning of the new text in it (`Stored`). Nothing that has been written is
taken back.
-/

namespace RouteInventory

open Text

/-- The name and the bytes by which an artifact is stored. -/
def Artifact.file (a : Artifact) : String × Bytes := (a.name, Utf8.encode a.text.toList)

namespace FileSystem

variable {fs fs' after : FileSystem} {l : Location} {p q : Path} {medium : Medium}

/-! ### Files in order -/

variable {into : Path}

/-- What a path leads to once some files are stored in a directory in order: the last of them that is
where the path leads, or else what it led to before. -/
def atAfter? (fs : FileSystem) (into : Path) (stored : List (String × Bytes)) (q : Path) : Option Entry :=
  match stored.reverse.find? fun f => fs.location? (into.child f.1) == fs.location? q with
  | some f => some (.file f.2)
  | none => fs.at? q

theorem atAfter?_of_ne {stored : List (String × Bytes)}
    (h : ∀ f ∈ stored, fs.location? (into.child f.1) ≠ fs.location? q) :
    fs.atAfter? into stored q = fs.at? q := by
  rw [atAfter?, List.find?_eq_none.mpr fun f hf => by simpa using h f (List.mem_reverse.mp hf)]

theorem atAfter?_of_last {front back : List (String × Bytes)} {f : String × Bytes}
    (h : ∀ g ∈ back, fs.location? (into.child g.1) ≠ fs.location? (into.child f.1)) :
    fs.atAfter? into (front ++ f :: back) (into.child f.1) = some (.file f.2) := by
  rw [atAfter?, List.reverse_append, List.reverse_cons, List.append_assoc, List.find?_append,
    List.find?_eq_none.mpr fun g hg => by simpa using h g (List.mem_reverse.mp hg)]
  simp

/-- What is stored where some artifacts are written and some left: all that are written, and of the first
one left nothing if its file could not be opened, or else a beginning, where the medium failed. -/
inductive Stored (medium : Medium) (after : FileSystem) (into : Path) (written : List Artifact) :
    List Artifact → List (String × Bytes) → Prop
  | all : Stored medium after into written [] (written.map Artifact.file)
  | unopened {a : Artifact} (rest : List Artifact) (h : ¬ after.Opens medium (into.child a.name)) :
      Stored medium after into written (a :: rest) (written.map Artifact.file)
  | cut {a : Artifact} {kept : Nat} {message : String} (rest : List Artifact)
      (h : medium.cuts (into.child a.name) = some (kept, message)) :
      Stored medium after into written (a :: rest)
        (written.map Artifact.file ++ [(a.name, a.file.2.take kept)])

namespace Stored

variable {written left : List Artifact} {stored : List (String × Bytes)}

theorem cons (h : Stored medium after into written left stored) (a : Artifact) :
    Stored medium after into (a :: written) left (a.file :: stored) := by
  cases h with
  | all => exact .all
  | unopened rest hopens => exact .unopened rest hopens
  | cut rest hcut => exact .cut rest hcut

/-- What is stored goes by the names of a first part of the artifacts. -/
theorem names_prefix (h : Stored medium after into written left stored) :
    stored.map (·.1) <+: (written ++ left).map (·.name) := by
  have hwritten : (written.map Artifact.file).map (·.1) = written.map (·.name) := by
    rw [List.map_map]
    rfl
  cases h with
  | all | unopened => simp only [hwritten, List.map_append, List.prefix_append]
  | @cut a kept message rest =>
    refine ⟨rest.map (·.name), ?_⟩
    simp only [List.map_append, hwritten, List.map_cons, List.map_nil, List.append_assoc, List.cons_append,
      List.nil_append]

end Stored

/-- What storing files in a directory in order has come to. -/
structure InOrder (fs after : FileSystem) (into : Path) (stored : List (String × Bytes)) : Prop where
  located : ∀ f ∈ stored, ∃ l, fs.location? (into.child f.1) = some l
  at?_eq (q : Path) : after.at? q = fs.atAfter? into stored q

namespace InOrder

variable {stored : List (String × Bytes)}

theorem refl (fs : FileSystem) (into : Path) : InOrder fs fs into [] := ⟨nofun, fun _ => rfl⟩

/-- Files stored in order behind a first one, by what storing this one does to every path. -/
theorem cons {f : String × Bytes} (hloc : fs.location? (into.child f.1) = some l)
    (hstep : ∀ q, fs'.location? q = fs.location? q ∧
      fs'.at? q = if fs.location? q = some l then some (.file f.2) else fs.at? q)
    (h : InOrder fs' after into stored) : InOrder fs after into (f :: stored) := by
  refine ⟨List.forall_mem_cons.mpr ⟨⟨l, hloc⟩, fun g hg => ?_⟩, fun q => ?_⟩
  · rw [← (hstep _).1]
    exact h.located g hg
  · rw [h.at?_eq]
    simp only [atAfter?, List.reverse_cons, List.find?_append, (hstep _).1, (hstep _).2]
    cases stored.reverse.find? fun g => fs.location? (into.child g.1) == fs.location? q with
    | some g => rfl
    | none =>
      rw [Option.none_or, List.find?_singleton, hloc]
      by_cases hq : fs.location? q = some l
      · simp [hq]
      · simp [hq, Ne.symm hq]

end InOrder

theorem writeAll_of_error {a : Artifact} {rest : List Artifact} {fault : FileFault}
    (h : fs.write (into.child a.name) a.file.2 medium = (fs', .error fault)) :
    fs.writeAll into (a :: rest) medium = (fs', .error fault) := by
  unfold Artifact.file at h
  rw [writeAll, h]

theorem writeAll_of_ok {a : Artifact} {rest : List Artifact}
    (h : fs.write (into.child a.name) a.file.2 medium = (fs', .ok ())) :
    fs.writeAll into (a :: rest) medium =
      ((fs'.writeAll into rest medium).1,
        (fs'.writeAll into rest medium).2.map (into.child a.name :: ·)) := by
  unfold Artifact.file at h
  rw [writeAll, h]
  dsimp only
  split <;> rename_i heq <;> rw [heq] <;> rfl

/-- Files are written in order up to the first that cannot be. -/
theorem exists_inOrder (hrooted : fs.Rooted) (into : Path) (artifacts : List Artifact) (medium : Medium) :
    ∃ written left stored, artifacts = written ++ left ∧
      ((fs.writeAll into artifacts medium).2.isOk = true ↔ left = []) ∧
      Stored medium (fs.writeAll into artifacts medium).1 into written left stored ∧
      InOrder fs (fs.writeAll into artifacts medium).1 into stored := by
  induction artifacts generalizing fs with
  | nil => exact ⟨[], [], [], rfl, by simp [writeAll, Except.isOk, Except.toBool], .all, .refl fs into⟩
  | cons a rest ih =>
    have hwrites := writes_write fs (into.child a.name) a.file.2 medium
    generalize hwrite : fs.write (into.child a.name) a.file.2 medium = result at hwrites
    cases hwrites with
    | refused cause hopens =>
      rw [writeAll_of_error hwrite]
      exact ⟨[], a :: rest, [], rfl, by simp [Except.isOk, Except.toBool], .unopened rest hopens,
        .refl fs into⟩
    | cut hloc hfile hcut =>
      obtain ⟨-, l, hl, hstep⟩ := at?_insert_created hrooted hloc hfile _
      rw [writeAll_of_error hwrite]
      exact ⟨[], a :: rest, _, rfl, by simp [Except.isOk, Except.toBool], .cut rest hcut,
        .cons hl hstep (.refl _ into)⟩
    | stored hloc hfile =>
      obtain ⟨hrooted', l, hl, hstep⟩ := at?_insert_created hrooted hloc hfile a.file.2
      obtain ⟨written, left, stored, rfl, hok, hstored, horder⟩ := ih hrooted'
      rw [writeAll_of_ok hwrite]
      refine ⟨a :: written, left, _, rfl, ?_, hstored.cons a, .cons hl hstep horder⟩
      rw [← hok]
      cases (FileSystem.writeAll _ into (written ++ left) medium).2 <;> rfl

/-- Whether two paths do not lead to the same location. -/
def LeadApart (fs : FileSystem) (p q : Path) : Prop :=
  ∀ l, fs.location? p = some l → fs.location? q ≠ some l

theorem LeadApart.symm (h : fs.LeadApart p q) : fs.LeadApart q p := fun l hq hp => h l hp hq

/-- Where the paths by some names lead apart, the files that are stored by some of them are there, and
what is by the others is as before. -/
theorem InOrder.of_leadApart {stored : List (String × Bytes)} {names : List String}
    (h : InOrder fs after into stored) (hsub : stored.map (·.1) <+: names) (hnodup : names.Nodup)
    (hapart : names.Pairwise fun a b => fs.LeadApart (into.child a) (into.child b)) :
    (∀ f ∈ stored, after.at? (into.child f.1) = some (.file f.2)) ∧
      ∀ name ∈ names, name ∉ stored.map (·.1) → after.at? (into.child name) = fs.at? (into.child name) := by
  have hname {g : String × Bytes} (hg : g ∈ stored) : g.1 ∈ names :=
    hsub.subset (List.mem_map_of_mem hg)
  have hne {g : String × Bytes} {name : String} (hg : g ∈ stored) (hmem : name ∈ names)
      (hother : g.1 ≠ name) : fs.location? (into.child g.1) ≠ fs.location? (into.child name) := by
    have : Std.Symm fun a b => fs.LeadApart (into.child a) (into.child b) := ⟨fun _ _ h => h.symm⟩
    obtain ⟨l, hl⟩ := h.located g hg
    rw [hl]
    exact fun heq => hapart.forall (hname hg) hmem hother l hl heq.symm
  refine ⟨fun f hf => ?_, fun name hmem hnot => ?_⟩
  · have hdistinct : (stored.map (·.1)).Nodup := hnodup.sublist hsub.sublist
    obtain ⟨front, back, rfl⟩ := List.append_of_mem hf
    rw [List.map_append, List.map_cons] at hdistinct
    have hfresh := (List.nodup_cons.mp hdistinct.of_append_right).1
    rw [h.at?_eq]
    exact atAfter?_of_last fun g hg =>
      hne (List.mem_append_right _ (List.mem_cons_of_mem _ hg)) (hname hf)
        fun heq => hfresh (heq ▸ List.mem_map_of_mem hg)
  · rw [h.at?_eq]
    exact atAfter?_of_ne fun g hg => hne hg hmem fun heq => hnot (heq ▸ List.mem_map_of_mem hg)

theorem at?_child {name : String} {left : Nat} (hplain : IsPlain name) (hdir : fs.IsDirectoryAt p l left)
    (hlink : ∀ target, fs.entryAt? (l.child name) ≠ some (.symlink target)) :
    fs.at? (p.child name) = fs.entryAt? (l.child name) :=
  at?_of_locate (locate_child_eq hplain hdir hlink)

theorem leadApart_child {a b : String} {left : Nat} (hdir : fs.IsDirectoryAt p l left) (ha : IsPlain a)
    (hb : IsPlain b) (hla : ∀ target, fs.entryAt? (l.child a) ≠ some (.symlink target))
    (hlb : ∀ target, fs.entryAt? (l.child b) ≠ some (.symlink target)) (hne : a ≠ b) :
    fs.LeadApart (p.child a) (p.child b) := by
  intro k hka hkb
  rw [location?_of_locate (locate_child_eq ha hdir hla)] at hka
  rw [location?_of_locate (locate_child_eq hb hdir hlb)] at hkb
  exact hne (child_inj.mp (Option.some.inj (hka.trans hkb.symm)))

/-! ### Artifacts -/

variable {i : Inventory} {artifacts : List Artifact} {dir : Path} {made : FileSystem}

theorem names_of_artifacts (h : i.artifacts = .ok artifacts) :
    artifacts.map (·.name) = Artifact.names := by
  unfold Inventory.artifacts at h
  split at h
  · cases h
  · cases h
    rfl

theorem writeArtifacts_of_not_made {fault : FileFault} (h : i.artifacts = .ok artifacts)
    (hmake : fs.makeDirectories dir medium = (made, .error fault)) :
    fs.writeArtifacts i dir medium = (made, .error (.file fault)) := by
  rw [writeArtifacts, h]
  simp only [hmake]

theorem writeArtifacts_of_made (h : i.artifacts = .ok artifacts)
    (hmake : fs.makeDirectories dir medium = (made, .ok ())) :
    (fs.writeArtifacts i dir medium).1 = (made.writeAll dir artifacts medium).1 ∧
      (fs.writeArtifacts i dir medium).2.isOk = (made.writeAll dir artifacts medium).2.isOk := by
  rw [writeArtifacts, h]
  simp only [hmake]
  split <;> rename_i heq <;> rw [heq] <;> exact ⟨rfl, rfl⟩

/-- The artifact paths lead apart in the directory that is made, if they did before. -/
theorem leadApart_makeDirectories (hrooted : fs.Rooted)
    (hdir : fs.isDirectory dir = true ∨ ∀ name ∈ dir.names, IsPlain name)
    (hmake : (fs.makeDirectories dir medium).2.isOk = true)
    (hapart : Artifact.names.Pairwise fun a b => fs.LeadApart (dir.child a) (dir.child b)) :
    Artifact.names.Pairwise fun a b =>
      (fs.makeDirectories dir medium).1.LeadApart (dir.child a) (dir.child b) := by
  cases hbefore : fs.isDirectory dir with
  | true =>
    rw [makeDirectories_of_isDirectory hbefore]
    exact hapart
  | false =>
    have hplain := hdir.resolve_left (by rw [hbefore]; exact nofun)
    obtain ⟨l, left, hat, hempty⟩ :=
      (makes_makeDirectories fs dir medium).isEmptyDirectory hrooted hplain hbefore hmake
    have hlink (name target : String) :
        (fs.makeDirectories dir medium).1.entryAt? (l.child name) ≠ some (.symlink target) := by
      rw [hempty]
      exact nofun
    exact Artifact.nodup_names.imp_of_mem fun ha hb hne =>
      leadApart_child hat (Artifact.isPlain_of_mem_names ha) (Artifact.isPlain_of_mem_names hb)
        (hlink _) (hlink _) hne

/-- An inventory that is not valid changes nothing. Where the directory cannot be made, there is nothing
by the artifacts' names, before and after. Else the artifacts are written in order up to the first that
cannot be, all of them just if the call succeeds; of that one a beginning is stored if its file could be
opened. Each path then leads to the last file stored where it leads, or to what it led to before. Where
the artifacts' paths lead apart, and no double dot leads out of a directory still to be made, all that is
stored is there and whatever else is by the artifacts' names is as before the call. -/
theorem writeArtifacts_inOrder (hrooted : fs.Rooted) (i : Inventory) (dir : Path) (medium : Medium) :
    (∀ violation, i.artifacts = .error violation →
      fs.writeArtifacts i dir medium = (fs, .error (.invalid violation))) ∧
    ∀ artifacts, i.artifacts = .ok artifacts → artifacts.map (·.name) = Artifact.names ∧
      (∀ fault, (fs.makeDirectories dir medium).2 = .error fault →
        (fs.writeArtifacts i dir medium).2 = .error (.file fault) ∧
        ∀ name ∈ Artifact.names, fs.at? (dir.child name) = none ∧
          (fs.writeArtifacts i dir medium).1.at? (dir.child name) = none) ∧
      ((fs.makeDirectories dir medium).2 = .ok () → ∃ written left stored,
        artifacts = written ++ left ∧
        ((fs.writeArtifacts i dir medium).2.isOk = true ↔ left = []) ∧
        Stored medium (fs.writeArtifacts i dir medium).1 dir written left stored ∧
        (∀ q, (fs.writeArtifacts i dir medium).1.at? q =
          (fs.makeDirectories dir medium).1.atAfter? dir stored q) ∧
        ((fs.isDirectory dir = true ∨ ∀ name ∈ dir.names, IsPlain name) →
          (Artifact.names.Pairwise fun a b => fs.LeadApart (dir.child a) (dir.child b)) →
          (∀ f ∈ stored, (fs.writeArtifacts i dir medium).1.at? (dir.child f.1) = some (.file f.2)) ∧
          ∀ name ∈ Artifact.names, name ∉ stored.map (·.1) →
            (fs.writeArtifacts i dir medium).1.at? (dir.child name) = fs.at? (dir.child name))) := by
  constructor
  · intro violation h
    rw [writeArtifacts, h]
  intro artifacts h
  have hnames := names_of_artifacts h
  refine ⟨hnames, fun fault hfault => ?_, fun hok => ?_⟩
  · have hwrite := writeArtifacts_of_not_made h (Prod.ext rfl hfault)
    have hfailed : (fs.makeDirectories dir medium).2.isOk = false := by rw [hfault]; rfl
    have hmissing := not_isDirectory_of_makeDirectories hfailed
    rw [hwrite]
    exact ⟨rfl, fun name _ => ⟨at?_child_of_not_isDirectory hmissing.1 name,
      at?_child_of_not_isDirectory hmissing.2 name⟩⟩
  · have hmake : fs.makeDirectories dir medium = ((fs.makeDirectories dir medium).1, .ok ()) :=
      Prod.ext rfl hok
    have hrooted' := (makes_makeDirectories fs dir medium).rooted hrooted
    obtain ⟨written, left, stored, rfl, hall, hstored, horder⟩ :=
      exists_inOrder hrooted' dir artifacts medium
    obtain ⟨hafter, hisOk⟩ := writeArtifacts_of_made h hmake
    rw [hafter, hisOk]
    refine ⟨written, left, stored, rfl, hall, hstored, horder.at?_eq, fun hdir hapart => ?_⟩
    have hapart' := leadApart_makeDirectories hrooted hdir (by rw [hok]; rfl) hapart
    obtain ⟨hnew, hold⟩ :=
      horder.of_leadApart (hnames ▸ hstored.names_prefix) Artifact.nodup_names hapart'
    refine ⟨hnew, fun name hname hnot => ?_⟩
    rw [hold name hname hnot,
      (at?_makeDirectories hrooted hdir (Artifact.isPlain_of_mem_names hname) medium).1]

/-! ### Artifacts that stop halfway -/

/-- Whether a call writes all artifacts anew, or fails and leaves them as they were. -/
def AllOrNothing (fs : FileSystem) (i : Inventory) (dir : Path) (medium : Medium := .reliable) : Prop :=
  ((fs.writeArtifacts i dir medium).2.isOk = true ∧ ∃ artifacts, i.artifacts = .ok artifacts ∧
    ∀ a ∈ artifacts, (fs.writeArtifacts i dir medium).1.at? (dir.child a.name) =
      some (.file (Utf8.encode a.text.toList))) ∨
  ((fs.writeArtifacts i dir medium).2.isOk = false ∧
    ∀ name ∈ Artifact.names,
      (fs.writeArtifacts i dir medium).1.at? (dir.child name) = fs.at? (dir.child name))

/-- A call that fails and has changed what is by an artifact's name is neither. -/
theorem not_allOrNothing_of_changed {name : String}
    (hfailed : (fs.writeArtifacts i dir medium).2.isOk = false) (hname : name ∈ Artifact.names)
    (hchanged : (fs.writeArtifacts i dir medium).1.at? (dir.child name) ≠ fs.at? (dir.child name)) :
    ¬ AllOrNothing fs i dir medium := by
  rintro (⟨hok, -⟩ | ⟨-, hsame⟩)
  · exact Bool.false_ne_true (hfailed.symm.trans hok)
  · exact hchanged (hsame name hname)

/-- A directory by the second file's name stops the writing behind the first one. -/
theorem writeAll_of_blocked {left : Nat} {first second : Artifact} (rest : List Artifact)
    (hdir : fs.IsDirectoryAt dir l left) (hfirst : IsPlain first.name) (hsecond : IsPlain second.name)
    (hfree : fs.IsFree l first.name) (hblocked : fs.entryAt? (l.child second.name) = some .directory) :
    fs.writeAll dir (first :: second :: rest) =
      (fs.insert (l.child first.name) (.file (Utf8.encode first.text.toList)),
        .error ⟨.isADirectory, (dir.child second.name).text⟩) := by
  have hwrite := write_child hfirst hdir hfree.not_symlink hfree.not_directory
    (Utf8.encode first.text.toList)
  have hkeeps := keeps_write hwrite
  have hstop := write_child_of_directory hsecond (hkeeps.locate rfl hdir) (hkeeps.entry hblocked nofun)
    (Utf8.encode second.text.toList)
  rw [writeAll_of_ok hwrite, writeAll_of_error hstop]
  rfl

/-- A medium that fails while the second file is stored stops the writing with a beginning of it. -/
theorem writeAll_of_cut {left kept : Nat} {message : String} {first second : Artifact}
    (rest : List Artifact) (hdir : fs.IsDirectoryAt dir l left) (hfirst : IsPlain first.name)
    (hsecond : IsPlain second.name) (hfree : fs.IsFree l first.name) (hfree' : fs.IsFree l second.name)
    (hopens : ∀ p, medium.refuses p = none) (hwhole : medium.cuts (dir.child first.name) = none)
    (hcut : medium.cuts (dir.child second.name) = some (kept, message)) :
    (fs.writeAll dir (first :: second :: rest) medium).2.isOk = false ∧
      (fs.writeAll dir (first :: second :: rest) medium).1.at? (dir.child second.name) =
        some (.file (second.file.2.take kept)) := by
  have hwrite : fs.write (dir.child first.name) first.file.2 medium =
      (fs.insert (l.child first.name) (.file first.file.2), .ok ()) :=
    write_eq_stored (locate_child_eq hfirst hdir hfree.not_symlink) hfree.not_directory (hopens _) hwhole _
  have hdir' := (keeps_write hwrite).locate rfl hdir
  have hfree' := hfree'.insert first.name first.file.2
  have hvacant : FileSystem.IsVacant _ (l.child second.name) := hfree'
  have hstop := write_eq_cut (locate_child_eq hsecond hdir' hfree'.not_symlink) hfree'.not_directory
    (hopens _) hcut second.file.2
  have hfile (target : String) : Entry.file (second.file.2.take kept) ≠ .symlink target := nofun
  rw [writeAll_of_ok hwrite, writeAll_of_error hstop]
  exact ⟨rfl, at?_of_locate (hvacant.locateFrom_insert_self hfile
    (locate_child_eq hsecond hdir' hfree'.not_symlink) rfl hfree'.not_directory)⟩

theorem writeArtifacts_of_blocked {left : Nat} (hi : i.Consistent)
    (hmake : fs.makeDirectories dir = (made, .ok ())) (hdir : made.IsDirectoryAt dir l left)
    (hfree : made.IsFree l Artifact.routesName)
    (hblocked : made.entryAt? (l.child Artifact.urlsName) = some .directory) :
    (fs.writeArtifacts i dir).2.isOk = false ∧
      (fs.writeArtifacts i dir).1.IsDirectoryAt dir l left ∧
      ∀ k, (fs.writeArtifacts i dir).1.entryAt? k = if k = l.child Artifact.routesName then
        some (.file (Utf8.encode ((Json.strings i.routes).stableText (some 2)).toList))
        else made.entryAt? k := by
  obtain ⟨hafter, hok⟩ := writeArtifacts_of_made hi.artifacts_eq hmake
  have hroutes : IsPlain Artifact.routesName := by decide
  have hurls : IsPlain Artifact.urlsName := by decide
  have hvacant : made.IsVacant (l.child Artifact.routesName) := hfree
  rw [hafter, hok, writeAll_of_blocked _ hdir hroutes hurls hfree hblocked]
  exact ⟨rfl, (hvacant.keeps_insert _).locate rfl hdir, fun k => entryAt?_insert hvacant.ne_root⟩

/-- Where the first name is a link to the second, the first file ends up with the text of the second. -/
theorem writeAll_of_linked {left m : Nat} {first second third : Artifact} (hrooted : fs.Rooted)
    (hdir : fs.IsDirectoryAt dir l left) (hsecond : IsPlain second.name) (hthird : IsPlain third.name)
    (hne : second.name ≠ third.name)
    (hlink : fs.locate .created (dir.child first.name) = .ok ⟨l.child second.name, none, m⟩)
    (hfree : fs.IsFree l third.name) :
    (fs.writeAll dir [first, second, third]).2.isOk = true ∧
      (fs.writeAll dir [first, second, third]).1.at? (dir.child first.name) =
        some (.file (Utf8.encode second.text.toList)) := by
  have hnone : fs.entryAt? (l.child second.name) = none := entryAt?_of_locateFrom hlink (by simp)
  have hfreeSecond : fs.IsFree l second.name := fun e he => by
    rw [hnone] at he
    cases he
  have hwrite : fs.write (dir.child first.name) (Utf8.encode first.text.toList) =
      (fs.insert (l.child second.name) (.file (Utf8.encode first.text.toList)), .ok ()) :=
    write_eq_stored hlink (by simp) rfl rfl _
  obtain ⟨fs', done, hrest, -⟩ := exists_writeAll ((keeps_write hwrite).locate rfl hdir) [second, third]
    (List.forall_mem_cons.mpr ⟨hsecond, List.forall_mem_singleton.mpr hthird⟩)
    (List.forall_mem_cons.mpr ⟨hfreeSecond.insert _ _,
      List.forall_mem_singleton.mpr (hfree.insert _ _)⟩)
  have hok : (fs.writeAll dir [first, second, third]).2.isOk = true := by
    rw [writeAll_of_ok hwrite, hrest]
    rfl
  obtain ⟨written, rest, stored, hsplit, hall, hstored, horder⟩ :=
    exists_inOrder hrooted dir [first, second, third] .reliable
  obtain rfl := hall.mp hok
  rw [List.append_nil] at hsplit
  subst hsplit
  cases hstored
  have hfirst := location?_of_locate (locateFrom_followed hlink (by simp))
  have hlocSecond := location?_of_locate (locate_child_eq hsecond hdir hfreeSecond.not_symlink)
  have hlocThird := location?_of_locate (locate_child_eq hthird hdir hfree.not_symlink)
  refine ⟨hok, ?_⟩
  rw [horder.at?_eq, atAfter?, show fs.location? (dir.child first.name) = _ from hfirst]
  simp [Artifact.file, hlocSecond, hlocThird, child_inj, hne.symm]

theorem writeArtifacts_of_linked {left m : Nat} (hi : i.Consistent) (hrooted : made.Rooted)
    (hmake : fs.makeDirectories dir = (made, .ok ())) (hdir : made.IsDirectoryAt dir l left)
    (hlink : made.locate .created (dir.child Artifact.routesName) =
      .ok ⟨l.child Artifact.urlsName, none, m⟩)
    (hfree : made.IsFree l Artifact.recordName) :
    (fs.writeArtifacts i dir).2.isOk = true ∧
      (fs.writeArtifacts i dir).1.at? (dir.child Artifact.routesName) =
        some (.file (Utf8.encode ((Json.strings i.fullUrls).stableText (some 2)).toList)) := by
  obtain ⟨hafter, hok⟩ := writeArtifacts_of_made hi.artifacts_eq hmake
  have hurls : IsPlain Artifact.urlsName := by decide
  have hrecord : IsPlain Artifact.recordName := by decide
  have hne : Artifact.urlsName ≠ Artifact.recordName := by decide
  rw [hafter, hok]
  exact writeAll_of_linked hrooted hdir hurls hrecord hne hlink hfree

end FileSystem

namespace Inventory

/-- An inventory with one route. -/
def tiny : Inventory where
  routes := ["a"]
  urlPrefix := "/"
  statistics := { routingModules := 1, total := 1, unique := 1, routingFiles := 1 }
  generatedAt := fixedTime
  trace := []
  routingFiles := []

theorem consistent_tiny : tiny.Consistent where
  distinct := by decide
  ne_empty h := by
    obtain rfl := List.mem_singleton.mp h
    decide
  no_parameter h := by
    obtain rfl := List.mem_singleton.mp h
    decide
  no_wildcard h := by
    obtain rfl := List.mem_singleton.mp h
    decide
  mode := ⟨.html5, rfl⟩
  routingModules := by decide
  htmlFiles := by decide
  tsFiles := by decide
  total := rfl
  total_le := by decide
  generatedAt := Config.fixedTime_ne_empty

end Inventory

namespace FileSystem

/-- A directory stands where the addresses are to be written. -/
def blockedFiles : FileSystem where
  entries := [(⟨["routes-full-urls.json"]⟩, .directory)]
  workingDir := .root

/-- The routes' name is a link to the addresses. -/
def linkedFiles : FileSystem where
  entries := [(⟨["routes.json"]⟩, .symlink "routes-full-urls.json")]
  workingDir := .root

/-- A directory with an earlier record, and with a directory in the place of the addresses. -/
def earlierFiles : FileSystem where
  entries := [(⟨["x"]⟩, .directory), (⟨["x", "routes-full-urls.json"]⟩, .directory),
    (⟨["x", "routes-complete.json"]⟩, .file [])]
  workingDir := .root

def here : Path := ⟨.relative, []⟩

/-- A directory with an earlier inventory. -/
def writtenFiles : FileSystem where
  entries := [(⟨["routes.json"]⟩, .file []), (⟨["routes-full-urls.json"]⟩, .file []),
    (⟨["routes-complete.json"]⟩, .file [])]
  workingDir := .root

/-- A medium that is full when a byte of the addresses is stored. -/
def fullMedium : Medium where
  refuses _ := none
  cuts p := if p = here.child Artifact.urlsName then some (1, "No space left on device") else none

/-- The way to the directory `x` through one that is not there yet. -/
def detour : Path := ⟨.relative, ["x", "new", ".."]⟩

theorem isDirectoryAt_blockedFiles : blockedFiles.IsDirectoryAt here .root maxLinks :=
  locateFrom_of_locateWithin 1 rfl

theorem failed_blockedFiles : (blockedFiles.writeArtifacts .tiny here).2.isOk = false ∧
    (blockedFiles.writeArtifacts .tiny here).1.at? (here.child Artifact.routesName) ≠
      blockedFiles.at? (here.child Artifact.routesName) := by
  have hroutes : IsPlain Artifact.routesName := by decide
  have hmake : blockedFiles.makeDirectories here = (blockedFiles, .ok ()) :=
    makeDirectories_of_isDirectory (isDirectory_iff.mpr ⟨_, _, isDirectoryAt_blockedFiles⟩)
  obtain ⟨hfailed, hdir, hentry⟩ := writeArtifacts_of_blocked Inventory.consistent_tiny hmake
    isDirectoryAt_blockedFiles (fun _ he => nomatch he) rfl
  have hnew := hentry (Location.root.child Artifact.routesName)
  rw [if_pos rfl] at hnew
  refine ⟨hfailed, ?_⟩
  rw [at?_child hroutes hdir (by rw [hnew]; exact nofun), hnew,
    at?_child hroutes isDirectoryAt_blockedFiles nofun]
  exact nofun

theorem isDirectoryAt_writtenFiles : writtenFiles.IsDirectoryAt here .root maxLinks :=
  locateFrom_of_locateWithin 1 rfl

theorem rooted_writtenFiles : writtenFiles.Rooted := .of_entries rfl (by decide)

theorem leadApart_writtenFiles :
    Artifact.names.Pairwise fun a b => writtenFiles.LeadApart (here.child a) (here.child b) := by
  have hlink : ∀ name ∈ Artifact.names, ∀ target,
      writtenFiles.entryAt? (Location.root.child name) ≠ some (.symlink target) := by
    simp only [Artifact.names, List.forall_mem_cons, List.not_mem_nil, false_imp_iff, implies_true,
      and_true]
    exact ⟨nofun, nofun, nofun⟩
  exact Artifact.nodup_names.imp_of_mem fun ha hb hne => leadApart_child isDirectoryAt_writtenFiles
    (Artifact.isPlain_of_mem_names ha) (Artifact.isPlain_of_mem_names hb) (hlink _ ha) (hlink _ hb) hne

/-- The addresses of the inventory with one route. -/
def tinyUrls : Artifact := ⟨Artifact.urlsName, (Json.strings Inventory.tiny.fullUrls).stableText (some 2)⟩

theorem cut_writtenFiles : (writtenFiles.writeArtifacts .tiny here fullMedium).2.isOk = false ∧
    (writtenFiles.writeArtifacts .tiny here fullMedium).1.at? (here.child Artifact.urlsName) =
      some (.file (tinyUrls.file.2.take 1)) := by
  have hmake : writtenFiles.makeDirectories here fullMedium = (writtenFiles, .ok ()) :=
    makeDirectories_of_isDirectory (isDirectory_iff.mpr ⟨_, _, isDirectoryAt_writtenFiles⟩)
  obtain ⟨hafter, hok⟩ := writeArtifacts_of_made Inventory.consistent_tiny.artifacts_eq hmake
  have hfree {name : String} {content : Bytes}
      (h : writtenFiles.entryAt? (Location.root.child name) = some (.file content)) :
      writtenFiles.IsFree .root name := fun e he => ⟨content, Option.some.inj (he.symm.trans h)⟩
  have hfull : fullMedium.cuts (here.child tinyUrls.name) = some (1, "No space left on device") := by
    decide
  rw [hafter, hok]
  exact writeAll_of_cut _ isDirectoryAt_writtenFiles (by decide) (by decide) (hfree rfl) (hfree rfl)
    (fun _ => rfl) (by decide) hfull

theorem beginning_ne_writtenFiles : some (Entry.file (tinyUrls.file.2.take 1)) ≠
    writtenFiles.at? (here.child Artifact.urlsName) := by
  have hbefore : writtenFiles.locate .followed (here.child Artifact.urlsName) =
      .ok ⟨⟨["routes-full-urls.json"]⟩, some (.file []), maxLinks⟩ := locateFrom_of_locateWithin 2 rfl
  rw [at?_of_locate hbefore]
  exact fun heq => absurd (Entry.file.inj (Option.some.inj heq)) (by decide +kernel)

/-- With a medium that is full when a byte of the addresses is stored, this byte is all that is left of
them. -/
theorem writeArtifacts_writtenFiles : writtenFiles.Rooted ∧ ∃ written left stored,
    Inventory.tiny.artifacts = .ok (written ++ left) ∧ left ≠ [] ∧
      Stored fullMedium (writtenFiles.writeArtifacts .tiny here fullMedium).1 here written left stored ∧
      (Artifact.urlsName, tinyUrls.file.2.take 1) ∈ stored ∧
      (∀ f ∈ stored, (writtenFiles.writeArtifacts .tiny here fullMedium).1.at? (here.child f.1) =
        some (.file f.2)) ∧
      ∀ name ∈ Artifact.names, name ∉ stored.map (·.1) →
        (writtenFiles.writeArtifacts .tiny here fullMedium).1.at? (here.child name) =
          writtenFiles.at? (here.child name) := by
  obtain ⟨hfailed, hbeginning⟩ := cut_writtenFiles
  have hdir := isDirectory_iff.mpr ⟨_, _, isDirectoryAt_writtenFiles⟩
  have hmake : (writtenFiles.makeDirectories here fullMedium).2 = .ok () :=
    congrArg Prod.snd (makeDirectories_of_isDirectory hdir)
  have hartifacts := Inventory.consistent_tiny.artifacts_eq
  obtain ⟨-, -, hordered⟩ :=
    (writeArtifacts_inOrder rooted_writtenFiles .tiny here fullMedium).2 _ hartifacts
  obtain ⟨written, left, stored, hsplit, hall, hstored, -, hboth⟩ := hordered hmake
  obtain ⟨hnew, hold⟩ := hboth (.inl hdir) leadApart_writtenFiles
  refine ⟨rooted_writtenFiles, written, left, stored, hsplit ▸ hartifacts, ?_, hstored, ?_, hnew, hold⟩
  · rintro rfl
    exact Bool.false_ne_true (hfailed.symm.trans (hall.mpr rfl))
  · have hmem : Artifact.urlsName ∈ stored.map (·.1) := by
      by_contra hnot
      exact beginning_ne_writtenFiles (hbeginning.symm.trans (hold _ (by decide) hnot))
    obtain ⟨⟨name, content⟩, hf, rfl⟩ := List.mem_map.mp hmem
    obtain rfl := Entry.file.inj (Option.some.inj (hbeginning.symm.trans (hnew _ hf)))
    exact hf

theorem isDirectoryAt_earlierFiles :
    (earlierFiles.insert ⟨["x", "new"]⟩ .directory).IsDirectoryAt detour ⟨["x"]⟩ maxLinks :=
  locateFrom_of_locateWithin 4 rfl

theorem makeDirectories_earlierFiles : earlierFiles.makeDirectories detour =
    (earlierFiles.insert ⟨["x", "new"]⟩ .directory, .ok ()) := by
  have hmissing : earlierFiles.locate .kept detour = .error .notFound := locateFrom_of_locateWithin 3 rfl
  have habove : earlierFiles.locate .kept detour.parent = .ok ⟨⟨["x", "new"]⟩, none, maxLinks⟩ :=
    locateFrom_of_locateWithin 3 rfl
  exact makeDirectories_of_parent (by decide) hmissing habove
    (isDirectory_iff.mpr ⟨_, _, isDirectoryAt_earlierFiles⟩)

theorem failed_earlierFiles : (earlierFiles.writeArtifacts .tiny detour).2.isOk = false ∧
    (earlierFiles.writeArtifacts .tiny detour).1.at? (detour.child Artifact.recordName) ≠
      earlierFiles.at? (detour.child Artifact.recordName) := by
  have hrecord : IsPlain Artifact.recordName := by decide
  obtain ⟨hfailed, hdir, hentry⟩ := writeArtifacts_of_blocked Inventory.consistent_tiny
    makeDirectories_earlierFiles isDirectoryAt_earlierFiles (fun _ he => by cases he) rfl
  have hearlier : (earlierFiles.insert ⟨["x", "new"]⟩ .directory).entryAt?
      (Location.child ⟨["x"]⟩ Artifact.recordName) = some (.file []) := rfl
  have hold := hentry (Location.child ⟨["x"]⟩ Artifact.recordName)
  rw [if_neg (by decide), hearlier] at hold
  have hbefore : earlierFiles.locate .followed (detour.child Artifact.recordName) = .error .notFound :=
    locateFrom_of_locateWithin 4 rfl
  refine ⟨hfailed, ?_⟩
  rw [at?_child hrecord hdir (by simp [hold]), hold, at?, hbefore]
  simp

theorem rooted_linkedFiles : linkedFiles.Rooted := .of_entries rfl (by decide)

theorem isDirectoryAt_linkedFiles : linkedFiles.IsDirectoryAt here .root maxLinks :=
  locateFrom_of_locateWithin 1 rfl

theorem makeDirectories_linkedFiles : linkedFiles.makeDirectories here = (linkedFiles, .ok ()) :=
  makeDirectories_of_isDirectory (isDirectory_iff.mpr ⟨_, _, isDirectoryAt_linkedFiles⟩)

theorem ok_linkedFiles : (linkedFiles.writeArtifacts .tiny here).2.isOk = true ∧
    (linkedFiles.writeArtifacts .tiny here).1.at? (here.child Artifact.routesName) =
      some (.file (Utf8.encode ((Json.strings ["/a"]).stableText (some 2)).toList)) :=
  writeArtifacts_of_linked Inventory.consistent_tiny rooted_linkedFiles makeDirectories_linkedFiles
    isDirectoryAt_linkedFiles (locateFrom_of_locateWithin 4 rfl) (fun _ he => nomatch he)

/-- An earlier file is not kept when a later one cannot be written, files that are links to one place
overwrite each other, a directory that is made for the way there can bring an old file to light, and a
file whose writing fails once it is open is lost. -/
theorem exists_not_allOrNothing : ¬ AllOrNothing blockedFiles .tiny here ∧
    ¬ AllOrNothing linkedFiles .tiny here ∧ ¬ AllOrNothing earlierFiles .tiny detour ∧
    ¬ AllOrNothing writtenFiles .tiny here fullMedium := by
  refine ⟨?_, ?_, ?_, ?_⟩
  · obtain ⟨hfailed, hchanged⟩ := failed_blockedFiles
    exact not_allOrNothing_of_changed hfailed (by decide) hchanged
  · obtain ⟨hok, hroutes⟩ := ok_linkedFiles
    rintro (⟨-, artifacts, hartifacts, hnew⟩ | ⟨hfailed, -⟩)
    · rw [Inventory.consistent_tiny.artifacts_eq] at hartifacts
      obtain rfl := Except.ok.inj hartifacts
      have hfirst := hroutes.symm.trans (hnew _ (List.mem_cons_self ..))
      exact absurd (Entry.file.inj (Option.some.inj hfirst)) (by decide +kernel)
    · exact Bool.false_ne_true (hfailed.symm.trans hok)
  · obtain ⟨hfailed, hchanged⟩ := failed_earlierFiles
    exact not_allOrNothing_of_changed hfailed (by decide) hchanged
  · obtain ⟨hfailed, hbeginning⟩ := cut_writtenFiles
    have hurls : Artifact.urlsName ∈ Artifact.names := by decide
    refine not_allOrNothing_of_changed hfailed hurls fun hsame => ?_
    exact beginning_ne_writtenFiles (hbeginning.symm.trans hsame)

end FileSystem

end RouteInventory
