import RouteInventory.Proofs.FileSystem.Straight

/-!
# The bound on links

A way is followed from place to place, and what is left of the bound on links goes with it
(`locateFrom_behind`). The bound does nothing but cut ways off: two bounds lead to the same place unless one
of them is too small (`spot_eq`). A way that is not cut off passes no link that leads back to itself, so its
place is the canonical one (`canonicalFrom_of_locateFrom`).
-/

namespace RouteInventory.FileSystem

variable {fs : FileSystem} {last : Last} {links : Nat} {dir : Location} {names front back : List String}

/-! ### One way after another -/

/-- What is behind a directory is found from there. -/
theorem locateFrom_behind {inner : Location} {left : Nat}
    (h : fs.locateFrom .followed links dir front = .ok ⟨inner, some .directory, left⟩)
    (back : List String) :
    fs.locateFrom .followed links dir (front ++ back) = fs.locateFrom .followed left inner back := by
  induction back using List.reverseRecOn with
  | nil => rw [List.append_nil, h, locateFrom]
  | append_singleton back name ih =>
    rw [← List.append_assoc, locateFrom_append (.inr (by simp)), ih, ← locateFrom_append (.inr (by simp))]

theorem exists_of_locateFrom_append {place : Place} (hback : back ≠ [])
    (h : fs.locateFrom .followed links dir (front ++ back) = .ok place) : ∃ inner left,
      fs.locateFrom .followed links dir front = .ok ⟨inner, some .directory, left⟩ ∧
        fs.locateFrom .followed left inner back = .ok place := by
  have hfront : ∃ inner left,
      fs.locateFrom .followed links dir front = .ok ⟨inner, some .directory, left⟩ := by
    induction back using List.reverseRecOn generalizing place with
    | nil => exact absurd rfl hback
    | append_singleton back name ih =>
      rw [← List.append_assoc, locateFrom_append (.inr (by simp))] at h
      cases hmid : fs.locateFrom .followed links dir (front ++ back) with
      | error cause =>
        rw [hmid] at h
        cases h
      | ok mid =>
        by_cases hnil : back = []
        · rw [hmid] at h
          rw [hnil, List.append_nil] at hmid
          obtain ⟨l, entry, left⟩ := mid
          rcases entry with _ | _ | _ | _
          · cases h
          · cases h
          · cases h
          · exact ⟨l, left, hmid⟩
        · exact ih hnil hmid
  obtain ⟨inner, left, hinner⟩ := hfront
  exact ⟨inner, left, hinner, by rw [← locateFrom_behind hinner, h]⟩

/-- The names at the end of a link's target say only that there is a directory. -/
theorem locateFrom_targetEnd {place : Place} {target : String}
    (h : fs.locateFrom .followed links dir (targetNames target) = .ok place) : ∃ entry,
      fs.locateFrom .followed links dir (Path.ofString target).names =
        .ok ⟨place.location, entry, place.linksLeft⟩ := by
  have hdot (name : String) (hname : name = "." ∨ name = "") (left : Nat) (inner : Location) :
      fs.locateFrom .followed left inner [name] = .ok ⟨inner, some .directory, left⟩ := by
    have hup : name ≠ ".." := by
      rcases hname with rfl | rfl
      · decide
      · decide
    rw [locateFrom, if_neg hup, if_pos hname, locateFrom]
  have hend : targetEnd target = [] ∨ targetEnd target = ["."] ∨ targetEnd target = [""] := by
    unfold targetEnd
    split
    · split
      · exact .inr (.inl rfl)
      · exact .inr (.inr rfl)
    · exact .inr (.inl rfl)
    · exact .inl rfl
  by_cases hnil : targetEnd target = []
  · rw [targetNames, hnil, List.append_nil] at h
    exact ⟨place.entry, h⟩
  obtain ⟨inner, left, hinner, hrest⟩ := exists_of_locateFrom_append hnil h
  rcases hend.resolve_left hnil with hend | hend
  · rw [hend, hdot _ (.inl rfl)] at hrest
    cases hrest
    exact ⟨_, hinner⟩
  · rw [hend, hdot _ (.inr rfl)] at hrest
    cases hrest
    exact ⟨_, hinner⟩

/-- What a link stands for is found first, and then what is behind the link. -/
theorem exists_of_locateFrom_target {place : Place} {target : String} {rest : List String}
    (h : fs.locateFrom .followed links dir (targetNames target ++ rest) = .ok place) : ∃ mid,
      fs.locateFrom .followed links dir (targetNames target) = .ok mid ∧
        (rest = [] ∧ mid = place ∨
          fs.locateFrom .followed mid.linksLeft mid.location rest = .ok place) := by
  by_cases hrest : rest = []
  · rw [hrest, List.append_nil] at h
    exact ⟨place, h, .inl ⟨hrest, rfl⟩⟩
  · obtain ⟨inner, left, hinner, hbehind⟩ := exists_of_locateFrom_append hrest h
    exact ⟨_, hinner, .inr hbehind⟩

/-! ### More links -/

/-- A greater bound changes nothing but what is left of it. -/
theorem locateFrom_add (h : fs.locateFrom last links dir names ≠ .error .tooManyLinks) (more : Nat) :
    fs.locateFrom last (links + more) dir names =
      (fs.locateFrom last links dir names).map fun p => { p with linksLeft := p.linksLeft + more } := by
  fun_induction locateFrom fs last links dir names with
  | case1 => rw [locateFrom]; rfl
  | case2 links dir rest ih => rw [locateFrom, if_pos rfl, ih h]
  | case3 links dir name rest hup hskip ih => rw [locateFrom, if_neg hup, if_pos hskip, ih h]
  | case4 links dir name rest hup hskip hcreated =>
    rw [locateFrom, if_neg hup, if_neg hskip, if_pos hcreated]
    rfl
  | case5 links dir name hup hskip _ he hcreated =>
    rw [locateFrom_plain ⟨hup, not_or.mp hskip⟩ hcreated]
    simp only [show fs.entryAt? (dir.child name) = none from he, if_pos]
    rfl
  | case6 links dir name rest hup hskip hcreated _ he hrest =>
    rw [locateFrom_plain ⟨hup, not_or.mp hskip⟩ hcreated]
    simp only [show fs.entryAt? (dir.child name) = none from he, if_neg hrest]
    rfl
  | case7 links dir name rest hup hskip hcreated _ he ih =>
    rw [locateFrom_plain ⟨hup, not_or.mp hskip⟩ hcreated]
    simp only [show fs.entryAt? (dir.child name) = some .directory from he]
    exact ih h
  | case8 links dir name hup hskip _ content he hcreated =>
    rw [locateFrom_plain ⟨hup, not_or.mp hskip⟩ hcreated]
    simp only [show fs.entryAt? (dir.child name) = some (.file content) from he, if_pos]
    rfl
  | case9 links dir name rest hup hskip hcreated _ content he hrest =>
    rw [locateFrom_plain ⟨hup, not_or.mp hskip⟩ hcreated]
    simp only [show fs.entryAt? (dir.child name) = some (.file content) from he, if_neg hrest]
    rfl
  | case10 links dir name rest hup hskip hcreated _ target he hkept =>
    rw [locateFrom_plain ⟨hup, not_or.mp hskip⟩ hcreated]
    simp only [show fs.entryAt? (dir.child name) = some (.symlink target) from he, if_pos hkept]
    rfl
  | case11 => exact absurd rfl h
  | case12 dir name rest hup hskip hcreated _ target he hkept left _ ih =>
    rw [locateFrom_plain ⟨hup, not_or.mp hskip⟩ hcreated]
    simp only [show fs.entryAt? (dir.child name) = some (.symlink target) from he, if_neg hkept]
    rw [Nat.succ_add]
    exact ih h

theorem linksLeft_le {place : Place} (h : fs.locateFrom last links dir names = .ok place) :
    place.linksLeft ≤ links := by
  rw [locateFrom_eq_ok_iff] at h
  induction h with
  | here | arrive => exact Nat.le_refl _
  | up _ ih | skip _ _ ih | enter _ _ _ _ ih => exact ih
  | follow _ _ _ _ _ ih => exact Nat.le_succ_of_le ih

/-- How many links a way passes does not depend on the bound. -/
theorem links_sub_linksLeft {bound bound' : Nat} {place place' : Place}
    (h : fs.locateFrom last bound dir names = .ok place)
    (h' : fs.locateFrom last bound' dir names = .ok place') :
    bound - place.linksLeft = bound' - place'.linksLeft := by
  have hle := linksLeft_le h
  have hle' := linksLeft_le h'
  have hadd := locateFrom_add (by rw [h]; simp) bound'
  have hadd' := locateFrom_add (by rw [h']; simp) bound
  rw [h] at hadd
  rw [h', Nat.add_comm, hadd] at hadd'
  have hleft : place.linksLeft + bound' = place'.linksLeft + bound :=
    congrArg Place.linksLeft (Except.ok.inj hadd')
  omega

/-- Where a way leads and what is there. -/
def spot (r : Except FileCause Place) : Except FileCause (Location × Option Entry) :=
  r.map fun p => (p.location, p.entry)

/-- Whether two bounds both cut a way off or both do not. -/
def CutAlike (fs : FileSystem) (dir : Location) (bound bound' : Nat) (names : List String) : Prop :=
  fs.locateFrom .followed bound dir names = .error .tooManyLinks ↔
    fs.locateFrom .followed bound' dir names = .error .tooManyLinks

/-- Bounds that do not cut a way off lead to the same place. -/
theorem spot_eq {bound bound' : Nat} (h : fs.CutAlike dir bound bound' names) :
    spot (fs.locateFrom .followed bound dir names) = spot (fs.locateFrom .followed bound' dir names) := by
  by_cases hcut : fs.locateFrom .followed bound dir names = .error .tooManyLinks
  · rw [hcut, h.mp hcut]
  have hcut' := fun hc => hcut (h.mpr hc)
  have hadd := locateFrom_add hcut bound'
  have hadd' := locateFrom_add hcut' bound
  rw [Nat.add_comm, hadd] at hadd'
  have hspot (r : Except FileCause Place) (more : Nat) :
      spot (r.map fun p => { p with linksLeft := p.linksLeft + more }) = spot r := by
    cases r with
    | error cause => rfl
    | ok place => rfl
  rw [← hspot _ bound', hadd', hspot]

theorem CutAlike.of_not_symlink (bound bound' : Nat) (hnames : ".." ∉ names)
    (h : ∀ back target, fs.entryAt? ⟨dir.names ++ back⟩ ≠ some (.symlink target)) :
    fs.CutAlike dir bound bound' names := by
  have hcut (bound : Nat) : fs.locateFrom .followed bound dir names ≠ .error .tooManyLinks := by
    induction names generalizing dir with
    | nil =>
      rw [locateFrom]
      simp
    | cons name rest ih =>
      rw [List.mem_cons, not_or] at hnames
      by_cases hskip : name = "." ∨ name = ""
      · rw [locateFrom, if_neg (Ne.symm hnames.1), if_pos hskip]
        exact ih hnames.2 h
      have hbelow : ∀ back target,
          fs.entryAt? ⟨(dir.child name).names ++ back⟩ ≠ some (.symlink target) := by
        intro back target
        simpa [Location.child] using h (name :: back) target
      rw [locateFrom_plain ⟨Ne.symm hnames.1, not_or.mp hskip⟩ (by simp)]
      cases he : fs.entryAt? (dir.child name) with
      | none =>
        by_cases hrest : rest = []
        · simp [hrest]
        · simp [hrest]
      | some e =>
        cases e with
        | file content =>
          by_cases hrest : rest = []
          · simp [hrest]
          · simp [hrest]
        | directory => exact ih hnames.2 hbelow
        | symlink target => exact absurd he (h [name] target)
  exact iff_of_false (hcut bound) (hcut bound')

/-! ### Canonical places -/

/-- Whether each of some links takes so many links to be followed, itself not counted. -/
def TakeLinks (fs : FileSystem) (replacing : List Location) (count : Nat) : Prop :=
  ∀ (dir : Location) (name target : String), dir.child name ∈ replacing →
    fs.entryAt? (dir.child name) = some (.symlink target) → ∀ (bound : Nat) (place : Place),
      fs.locateFrom .followed bound (if (Path.ofString target).isAbsolute then .root else dir)
        (targetNames target) = .ok place → count ≤ bound - place.linksLeft

theorem TakeLinks.mono {replacing : List Location} {count count' : Nat} (h : fs.TakeLinks replacing count)
    (hle : count' ≤ count) : fs.TakeLinks replacing count' :=
  fun dir name target hmem he bound place hplace =>
    Nat.le_trans hle (h dir name target hmem he bound place hplace)

theorem TakeLinks.cons {replacing : List Location} {name target : String} {bound : Nat} {place : Place}
    (h : fs.TakeLinks replacing (bound - place.linksLeft))
    (he : fs.entryAt? (dir.child name) = some (.symlink target))
    (hplace : fs.locateFrom .followed bound (if (Path.ofString target).isAbsolute then .root else dir)
      (targetNames target) = .ok place) :
    fs.TakeLinks (dir.child name :: replacing) (bound - place.linksLeft) := by
  intro dir' name' target' hmem he' bound' place' hplace'
  rcases List.mem_cons.mp hmem with heq | hmem
  · obtain ⟨rfl, rfl⟩ : dir' = dir ∧ name' = name := by
      obtain ⟨inside⟩ := dir
      obtain ⟨inside'⟩ := dir'
      simpa [Location.child] using heq
    obtain rfl : target = target' := by
      rw [he] at he'
      simpa using he'
    exact (links_sub_linksLeft hplace hplace').le
  · exact h dir' name' target' hmem he' bound' place' hplace'

theorem canonicalFrom_link {replacing : List Location} {name target : String} {reached : Location}
    (hname : name ≠ "..") (he : fs.entryAt? (dir.child name) = some (.symlink target))
    (hnew : dir.child name ∉ replacing)
    (h : fs.canonicalFrom (dir.child name :: replacing)
      (if (Path.ofString target).isAbsolute then .root else dir) (Path.ofString target).names = .ok reached)
    (rest : List String) :
    fs.canonicalFrom replacing dir (name :: rest) = fs.canonicalFrom replacing reached rest := by
  rw [canonicalFrom, if_neg hname]
  dsimp only
  split
  · next target' htarget =>
    obtain rfl : target = target' := by
      rw [he] at htarget
      simpa using htarget
    rw [dif_neg hnew, h]
  · next hlink => exact absurd he (hlink target)

/-- A way that is not cut off leads to the canonical place: it could not pass a link inside of what that link
stands for. -/
theorem canonicalFrom_of_locateFrom {replacing : List Location} {place : Place}
    (hnames : ∀ name ∈ names, IsName name) (h : fs.locateFrom .followed links dir names = .ok place)
    (hlinks : fs.TakeLinks replacing (links - place.linksLeft)) :
    fs.canonicalFrom replacing dir names = .ok place.location := by
  -- on the bound, which goes down with every link, and on the way between links
  induction links using Nat.strong_induction_on generalizing dir names place replacing with
  | _ links ihLinks =>
    rw [locateFrom_eq_ok_iff] at h
    induction h with
    | here => rw [canonicalFrom]
    | up _ ih =>
      rw [canonicalFrom, if_pos rfl]
      exact ih ihLinks (List.forall_mem_cons.mp hnames).2 hlinks
    | skip hskip =>
      have hname := (List.forall_mem_cons.mp hnames).1
      rcases hskip with hdot | hnil
      · exact absurd hdot hname.2.1
      · exact absurd hnil hname.1
    | arrive hname he hend =>
      rw [canonicalFrom_name replacing hname.1 (he ▸ hend.not_symlink (by simp)), canonicalFrom]
    | enter hname _ he _ ih =>
      rw [canonicalFrom_name replacing hname.1 (by simp [he])]
      exact ih ihLinks (List.forall_mem_cons.mp hnames).2 hlinks
    | @follow left dir name target rest place hname _ he _ hway =>
      obtain ⟨mid, hmid, hbehind⟩ := exists_of_locateFrom_target hway.locateFrom
      have hle := linksLeft_le hmid
      have hle' : place.linksLeft ≤ mid.linksLeft := by
        rcases hbehind with ⟨-, rfl⟩ | hbehind
        · exact Nat.le_refl _
        · exact linksLeft_le hbehind
      -- a link met inside of what it stands for would take more links than that
      have hnew : dir.child name ∉ replacing := by
        intro hmem
        have hcount := hlinks dir name target hmem he left mid hmid
        omega
      obtain ⟨entry, htarget⟩ := locateFrom_targetEnd hmid
      have hinner : fs.TakeLinks (dir.child name :: replacing) (left - mid.linksLeft) :=
        (hlinks.mono (by omega)).cons he hmid
      have hreached := ihLinks left (Nat.lt_succ_self left) (Path.isSpelled_ofString target) htarget hinner
      rw [canonicalFrom_link hname.1 he hnew hreached]
      rcases hbehind with ⟨rfl, rfl⟩ | hbehind
      · rw [canonicalFrom]
      · exact ihLinks mid.linksLeft (by omega) (List.forall_mem_cons.mp hnames).2 hbehind
          (hlinks.mono (by omega))

namespace Sound

theorem canonicalFrom_below (h : fs.Sound) (replacing : List Location) {e : Entry}
    (he : fs.entryAt? ⟨front ++ back⟩ = some e) (hlink : ∀ target, e ≠ .symlink target) :
    fs.canonicalFrom replacing ⟨front⟩ back = .ok ⟨front ++ back⟩ := by
  by_cases hback : back = []
  · rw [hback, canonicalFrom, List.append_nil]
  have hproper := h.isProper (by rw [he]; simp)
  refine canonicalFrom_of_locateFrom (fun name hname => (hproper name (List.mem_append_right _ hname)).1)
    (h.locateFrom_below 0 hback he hlink) ?_
  -- the way passes no link at all
  intro dir name target _ _ bound place _
  exact Nat.zero_le _

theorem canonical_path (h : fs.Sound) {e : Entry} (he : fs.entryAt? l = some e)
    (hlink : ∀ target, e ≠ .symlink target) : fs.canonical l.path = .ok l := by
  have hroot : fs.canonicalFrom [] .root l.names = .ok l := h.canonicalFrom_below [] he hlink
  have habs : l.path.isAbsolute = true := rfl
  rw [canonical, if_pos habs, Location.path, hroot]

end Sound

end RouteInventory.FileSystem
