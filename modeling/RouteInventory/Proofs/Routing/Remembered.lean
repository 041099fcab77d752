import RouteInventory.Proofs.FileSystem.Straight
import RouteInventory.Routing.Cache

/-!
# What a module cache remembers

A cache is asked for one path after another while the files change between the calls. `Serves` says once
what asking for a location can do. From it, a cache that began empty has of each location what the first call returned
that was answered for it, and it has read one file for each entry and each module that was unbalanced
(`Recorded`, kept by every call). So the answers depend on the log of the calls alone
(`keeps_first_answer`).
-/

namespace RouteInventory.Routing

/-- A call of a cache: the files at the time, the path asked for and what came back. -/
structure Get where
  files : FileSystem
  path : Path
  answer : Except LoadFault (Location × Loaded)

namespace Get

/-- The routes that came back, if the path denoted the given location. -/
def routesAt? (l : Location) (g : Get) : Option (List Declaration) :=
  match g.answer with
  | .ok (m, loaded) => if m = l then some loaded.routes else none
  | .error _ => none

def isUnbalanced (g : Get) : Bool :=
  match g.answer with
  | .error (.unbalanced _ _) => true
  | _ => false

theorem routesAt?_eq_some_iff {l : Location} {g : Get} {routes : List Declaration} :
    g.routesAt? l = some routes ↔ ∃ loaded, g.answer = .ok (l, loaded) ∧ loaded.routes = routes := by
  unfold routesAt?
  rcases g.answer with fault | ⟨m, loaded⟩
  · simp
  · by_cases hm : m = l
    · subst hm
      simp
    · simp [hm]

theorem routesAt?_eq_none_iff {l : Location} {g : Get} :
    g.routesAt? l = none ↔ ∀ loaded, g.answer ≠ .ok (l, loaded) := by
  rw [Option.eq_none_iff_forall_not_mem]
  constructor
  · intro h loaded hanswer
    exact h loaded.routes (routesAt?_eq_some_iff.mpr ⟨loaded, hanswer, rfl⟩)
  · intro h routes hroutes
    obtain ⟨loaded, hanswer, -⟩ := routesAt?_eq_some_iff.mp hroutes
    exact h loaded hanswer

end Get

namespace ModuleCache

/-- What asking for a location can do: the cache afterwards, and what comes back. -/
inductive Serves (cache : ModuleCache) (l : Location) : ModuleCache → Except LoadFault Loaded → Prop
  | known {routes : List Declaration} (hl : cache.entries.lookup l = some routes) :
      Serves cache l cache (.ok ⟨routes, none⟩)
  | unreadable {fault : ReadFault} (hl : cache.entries.lookup l = none) :
      Serves cache l cache (.error (.unreadable fault))
  | unbalanced {fault : Script.BracketFault} (hl : cache.entries.lookup l = none) :
      Serves cache l ⟨cache.entries, cache.reads + 1⟩ (.error (.unbalanced l.path fault))
  | parsed {routes : List Declaration} {dynamic : List String} (hl : cache.entries.lookup l = none) :
      Serves cache l ⟨cache.entries ++ [(l, routes)], cache.reads + 1⟩ (.ok ⟨routes, some dynamic⟩)

variable {cache : ModuleCache} {log : List Get}

theorem serves_loadAt (cache : ModuleCache) (fs : FileSystem) (l : Location) :
    cache.Serves l (cache.loadAt fs l).1 (cache.loadAt fs l).2 := by
  unfold loadAt
  cases hl : cache.entries.lookup l with
  | some routes => exact .known hl
  | none =>
    dsimp only
    cases fs.readText l.path with
    | error fault => exact .unreadable hl
    | ok text =>
      dsimp only
      cases parseModule text with
      | error fault => exact .unbalanced hl
      | ok routes => exact .parsed hl

/-- A call finds that its path denotes nothing, or asks for the location that the path denotes. -/
theorem load_cases {fs : FileSystem} {p : Path} {next : ModuleCache}
    {answer : Except LoadFault (Location × Loaded)} (h : cache.load fs p = (next, answer)) :
    (∃ place, next = cache ∧ answer = .error (.linkLoop place)) ∨
      ∃ l result, fs.canonical p = .ok l ∧ cache.Serves l next result ∧ answer = result.map (l, ·) := by
  unfold load at h
  cases hp : fs.canonical p with
  | error place =>
    rw [hp] at h
    obtain ⟨rfl, rfl⟩ := Prod.mk.inj h
    exact .inl ⟨place, rfl, rfl⟩
  | ok l =>
    rw [hp] at h
    obtain ⟨rfl, rfl⟩ := Prod.mk.inj h
    exact .inr ⟨l, _, rfl, serves_loadAt cache fs l, rfl⟩

/-- Asks for one path after another, each with the files as they are then. -/
def record : ModuleCache → List (FileSystem × Path) → List Get × ModuleCache
  | cache, [] => ([], cache)
  | cache, (fs, p) :: calls =>
    let (next, answer) := cache.load fs p
    let (log, last) := record next calls
    (⟨fs, p, answer⟩ :: log, last)

theorem map_record (cache : ModuleCache) (calls : List (FileSystem × Path)) :
    (cache.record calls).1.map (fun g => (g.files, g.path)) = calls := by
  induction calls generalizing cache with
  | nil => rfl
  | cons call calls ih =>
    obtain ⟨fs, p⟩ := call
    exact congrArg ((fs, p) :: ·) (ih _)

/-- Whether a cache is what the calls in a log leave of an empty one. -/
structure Recorded (log : List Get) (cache : ModuleCache) : Prop where
  lookup (l : Location) : cache.entries.lookup l = log.findSome? (·.routesAt? l)
  located : ∀ g ∈ log, ∀ l loaded, g.answer = .ok (l, loaded) → g.files.canonical g.path = .ok l
  reads : cache.reads = cache.size + log.countP (·.isUnbalanced)

namespace Recorded

theorem nil : Recorded [] {} := ⟨fun _ => rfl, by simp, rfl⟩

/-- A call that adds nothing to what is known, and reads at most a file that is unbalanced. -/
theorem append_of_same (h : Recorded log cache) {g : Get}
    (hsame : ∀ l routes, g.routesAt? l = some routes → cache.entries.lookup l = some routes)
    (hlocated : ∀ l loaded, g.answer = .ok (l, loaded) → g.files.canonical g.path = .ok l) :
    Recorded (log ++ [g]) ⟨cache.entries, cache.reads + if g.isUnbalanced then 1 else 0⟩ := by
  refine ⟨fun l => ?_, ?_, ?_⟩
  · show cache.entries.lookup l = _
    rw [List.findSome?_append, ← h.lookup l]
    cases hg : g.routesAt? l with
    | none => simp [hg]
    | some routes => simp [hsame l routes hg]
  · intro g' hg'
    rcases List.mem_append.mp hg' with hg' | hg'
    · exact h.located g' hg'
    · rw [List.mem_singleton.mp hg']
      exact hlocated
  · show cache.reads + _ = cache.entries.length + _
    have hreads : cache.reads = cache.entries.length + _ := h.reads
    rw [List.countP_append, List.countP_singleton]
    omega

theorem append_of_new (h : Recorded log cache) {fs : FileSystem} {p : Path} {l : Location}
    {routes : List Declaration} {parsed : Option (List String)} (hp : fs.canonical p = .ok l)
    (hl : cache.entries.lookup l = none) :
    Recorded (log ++ [⟨fs, p, .ok (l, ⟨routes, parsed⟩)⟩])
      ⟨cache.entries ++ [(l, routes)], cache.reads + 1⟩ := by
  refine ⟨fun m => ?_, ?_, ?_⟩
  · show (cache.entries ++ [(l, routes)]).lookup m = _
    rw [List.lookup_append, List.findSome?_append, ← h.lookup m]
    by_cases hm : m = l
    · subst hm
      simp [hl, Get.routesAt?]
    · have hkey : (m == l) = false := beq_eq_false_iff_ne.mpr hm
      simp [List.lookup_cons, hkey, Get.routesAt?, Ne.symm hm]
  · intro g hg m loaded hanswer
    rcases List.mem_append.mp hg with hg | hg
    · exact h.located g hg m loaded hanswer
    · rw [List.mem_singleton.mp hg] at hanswer ⊢
      obtain ⟨rfl, -⟩ := Prod.mk.inj (Except.ok.inj hanswer)
      exact hp
  · have hreads := h.reads
    simp only [size, List.length_append, List.length_singleton, List.countP_append] at hreads ⊢
    rw [hreads]
    simp [Get.isUnbalanced]
    omega

/-- A call is recorded, whatever has become of the files. -/
theorem load (h : Recorded log cache) (fs : FileSystem) (p : Path) :
    Recorded (log ++ [⟨fs, p, (cache.load fs p).2⟩]) (cache.load fs p).1 := by
  rcases hload : cache.load fs p with ⟨next, answer⟩
  rcases load_cases hload with ⟨place, rfl, rfl⟩ | ⟨l, result, hp, hserves, rfl⟩
  · exact h.append_of_same (by simp [Get.routesAt?]) (by simp)
  cases hserves with
  | known hl =>
    refine h.append_of_same (fun m found hfound => ?_) fun m loaded hanswer => ?_
    · obtain ⟨loaded, hanswer, rfl⟩ := Get.routesAt?_eq_some_iff.mp hfound
      obtain ⟨rfl, rfl⟩ := Prod.mk.inj (Except.ok.inj hanswer)
      exact hl
    · obtain ⟨rfl, -⟩ := Prod.mk.inj (Except.ok.inj hanswer)
      exact hp
  | unreadable => exact h.append_of_same (by simp [Get.routesAt?, Except.map]) (by simp [Except.map])
  | unbalanced => exact h.append_of_same (by simp [Get.routesAt?, Except.map]) (by simp [Except.map])
  | parsed hl => exact h.append_of_new hp hl

theorem record (h : Recorded log cache) (calls : List (FileSystem × Path)) :
    Recorded (log ++ (cache.record calls).1) (cache.record calls).2 := by
  induction calls generalizing log cache with
  | nil => rwa [ModuleCache.record, List.append_nil]
  | cons call calls ih =>
    obtain ⟨fs, p⟩ := call
    have hrest := ih (h.load fs p)
    rwa [List.append_assoc, List.singleton_append] at hrest

/-- What is known of a location is what the first call returned that was answered for it. -/
theorem lookup_eq_some_iff (h : Recorded log cache) {l : Location} {routes : List Declaration} :
    cache.entries.lookup l = some routes ↔
      ∃ earlier g later, log = earlier ++ g :: later ∧
        (∃ loaded, g.answer = .ok (l, loaded) ∧ loaded.routes = routes) ∧
        ∀ g' ∈ earlier, ∀ loaded, g'.answer ≠ .ok (l, loaded) := by
  rw [h.lookup, List.findSome?_eq_some_iff]
  simp only [Get.routesAt?_eq_some_iff, Get.routesAt?_eq_none_iff]

theorem contains_iff (h : Recorded log cache) {l : Location} :
    cache.contains l = true ↔ ∃ g ∈ log, ∃ loaded, g.answer = .ok (l, loaded) := by
  rw [contains, h.lookup, List.findSome?_isSome_iff]
  refine exists_congr fun g => and_congr_right fun _ => ?_
  rw [Option.isSome_iff_exists]
  simp only [Get.routesAt?_eq_some_iff]
  constructor
  · rintro ⟨routes, loaded, hanswer, -⟩
    exact ⟨loaded, hanswer⟩
  · rintro ⟨loaded, hanswer⟩
    exact ⟨loaded.routes, loaded, hanswer, rfl⟩

end Recorded

theorem containsPath_iff {fs : FileSystem} {p : Path} :
    cache.containsPath fs p = .ok true ↔ ∃ l, fs.canonical p = .ok l ∧ cache.contains l = true := by
  unfold containsPath
  cases fs.canonical p with
  | error place => simp
  | ok l => simp

theorem load_of_contains {fs : FileSystem} {p : Path} {l : Location} (hp : fs.canonical p = .ok l)
    (h : cache.contains l = true) : ∃ routes, cache.entries.lookup l = some routes ∧
      cache.load fs p = (cache, .ok (l, ⟨routes, none⟩)) := by
  obtain ⟨routes, hl⟩ := Option.isSome_iff_exists.mp h
  refine ⟨routes, hl, ?_⟩
  unfold load loadAt
  rw [hp]
  dsimp only
  rw [hl]
  rfl

theorem entries_load_of_error {fs : FileSystem} {p : Path} {fault : LoadFault}
    (h : (cache.load fs p).2 = .error fault) : (cache.load fs p).1.entries = cache.entries := by
  rcases hload : cache.load fs p with ⟨next, answer⟩
  rw [hload] at h
  rcases load_cases hload with ⟨place, rfl, -⟩ | ⟨l, result, -, hserves, rfl⟩
  · rfl
  cases hserves with
  | known => rfl
  | unreadable => rfl
  | unbalanced => rfl
  | parsed => cases h

/-- The law of the cache over changing files, after any calls: a path is contained just if an earlier call
for the same location returned; a call for such a path returns what the first of these did, whatever has
become of the file, and leaves the cache as it is; a call that fails leaves the entries as they are; and as
many files have been read as there are entries and calls that met an unbalanced module. -/
theorem keeps_first_answer (calls : List (FileSystem × Path)) :
    let log := (record {} calls).1
    let cache := (record {} calls).2
    log.map (fun g => (g.files, g.path)) = calls ∧
      (∀ fs p, cache.containsPath fs p = .ok true ↔ ∃ l, fs.canonical p = .ok l ∧
        ∃ g ∈ log, g.files.canonical g.path = .ok l ∧ ∃ loaded, g.answer = .ok (l, loaded)) ∧
      (∀ fs p, cache.containsPath fs p = .ok true → ∃ l earlier g later loaded,
        fs.canonical p = .ok l ∧ log = earlier ++ g :: later ∧ g.answer = .ok (l, loaded) ∧
        (∀ g' ∈ earlier, ∀ loaded', g'.answer ≠ .ok (l, loaded')) ∧
        cache.load fs p = (cache, .ok (l, ⟨loaded.routes, none⟩))) ∧
      (∀ fs p fault, (cache.load fs p).2 = .error fault →
        (cache.load fs p).1.entries = cache.entries) ∧
      cache.reads = cache.size + log.countP (·.isUnbalanced) := by
  intro log cache
  have hrecorded : Recorded log cache := Recorded.nil.record calls
  refine ⟨map_record {} calls, fun fs p => ?_, fun fs p h => ?_,
    fun fs p fault => entries_load_of_error, hrecorded.reads⟩
  · rw [containsPath_iff]
    refine exists_congr fun l => and_congr_right fun _ => ?_
    rw [hrecorded.contains_iff]
    constructor
    · rintro ⟨g, hg, loaded, hanswer⟩
      exact ⟨g, hg, hrecorded.located g hg l loaded hanswer, loaded, hanswer⟩
    · rintro ⟨g, hg, -, hanswer⟩
      exact ⟨g, hg, hanswer⟩
  · obtain ⟨l, hp, hcontains⟩ := containsPath_iff.mp h
    obtain ⟨routes, hl, hload⟩ := load_of_contains hp hcontains
    obtain ⟨earlier, g, later, hlog, ⟨loaded, hanswer, rfl⟩, hfirst⟩ := hrecorded.lookup_eq_some_iff.mp hl
    exact ⟨l, earlier, g, later, loaded, hp, hlog, hanswer, hfirst, hload⟩

/-! ### A module that changes -/

/-- A project with one module of the given text. -/
def oneModule (text : String) : FileSystem where
  entries := [(⟨["m.ts"]⟩, .file (Text.Utf8.encode text.toList))]
  workingDir := .root

theorem canonical_oneModule (text : String) :
    (oneModule text).canonical ⟨.slash, ["m.ts"]⟩ = .ok ⟨["m.ts"]⟩ := by
  simp [FileSystem.canonical, FileSystem.canonicalFrom, FileSystem.entryAt?, oneModule,
    Location.root, Location.child, Path.isAbsolute]

theorem sound_oneModule (text : String) : (oneModule text).Sound := by
  have hname : ∀ name ∈ ["m.ts"], IsName name ∧ name ≠ ".." := by decide
  exact .of_entries rfl (List.forall_mem_singleton.mpr rfl) (List.forall_mem_singleton.mpr hname)

theorem load_oneModule (text : String) {routes : List Declaration} (htext : '\r' ∉ text.toList)
    (hparse : parseModule text.toList = .ok routes) :
    load {} (oneModule text) ⟨.slash, ["m.ts"]⟩ =
      (⟨[(⟨["m.ts"]⟩, routes)], 1⟩, .ok (⟨["m.ts"]⟩, ⟨routes, some (dynamicLoads text.toList)⟩)) := by
  have hread : (oneModule text).readText (Location.path ⟨["m.ts"]⟩) = .ok text.toList :=
    (sound_oneModule text).readText_path rfl htext
  rw [load, canonical_oneModule]
  simp only [loadAt, List.lookup_nil, hread, hparse]
  rfl

/-- A module is served as it was read first, though its file has been changed since. -/
theorem load_changedModule :
    let path : Path := ⟨.slash, ["m.ts"]⟩
    let cache := (record {} [(oneModule "[\x7bpath:'x'\x7d]", path)]).2
    (load {} (oneModule "[]") path).2 = .ok (⟨["m.ts"]⟩, ⟨[], some []⟩) ∧
      cache.containsPath (oneModule "[]") path = .ok true ∧ cache.reads = cache.size ∧
      cache.load (oneModule "[]") path = (cache, .ok (⟨["m.ts"]⟩, ⟨[⟨"x", none, 1, []⟩], none⟩)) := by
  intro path cache
  have hparse : parseModule "[\x7bpath:'x'\x7d]".toList = .ok [⟨"x", none, 1, []⟩] := by cbv
  have hparse' : parseModule "[]".toList = .ok [] := by cbv
  have hfirst : load {} (oneModule "[\x7bpath:'x'\x7d]") path = _ :=
    load_oneModule _ (by decide) hparse
  have hlog : (record {} [(oneModule "[\x7bpath:'x'\x7d]", path)]).1 =
      [⟨oneModule "[\x7bpath:'x'\x7d]", path,
        .ok (⟨["m.ts"]⟩, ⟨[⟨"x", none, 1, []⟩], some (dynamicLoads "[\x7bpath:'x'\x7d]".toList)⟩)⟩] := by
    simp only [record, hfirst]
  obtain ⟨-, hcontains, hserves, -, hreads⟩ := keeps_first_answer [(oneModule "[\x7bpath:'x'\x7d]", path)]
  rw [hlog] at hcontains hreads
  have hthere : cache.containsPath (oneModule "[]") path = .ok true :=
    (hcontains _ _).mpr ⟨_, canonical_oneModule _, _, List.mem_singleton_self _, canonical_oneModule _, _, rfl⟩
  obtain ⟨l, earlier, g, later, loaded, -, hsplit, hanswer, -, hload⟩ := hserves _ _ hthere
  have hg : g ∈ (record {} [(oneModule "[\x7bpath:'x'\x7d]", path)]).1 := by simp [hsplit]
  rw [hlog, List.mem_singleton] at hg
  subst hg
  obtain ⟨rfl, rfl⟩ := Prod.mk.inj (Except.ok.inj hanswer)
  refine ⟨?_, hthere, hreads, hload⟩
  have hdynamic : dynamicLoads "[]".toList = [] := by cbv
  rw [load_oneModule "[]" (by decide) hparse', hdynamic]

end ModuleCache

end RouteInventory.Routing
