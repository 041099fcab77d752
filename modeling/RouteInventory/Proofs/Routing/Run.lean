import RouteInventory.Proofs.Routing.Visit

/-!
# The walk step by step

`Guide.Next` is one step of a builder at work: it has an agenda of things still to do, innermost first, and
a stack of the modules that it is inside of, which grows when a module is entered and shrinks when it is
left. After a fault the agenda is run down with nothing done but leaving the modules entered. Whatever the
builder has on its agenda, it comes to what the walk comes to, and finds its stack as it was
(`run_visit`, `run_enter`); so a call ends with an empty stack and the outcome of the walk (`run_start`).
-/

namespace RouteInventory.Routing

open Relation

/-- Something to do in a walk. -/
inductive Duty
  | enter (module : Location) (parent : String) (depth : Nat)
  | visit (source : Location) (parent : String) (depth : Nat) (decls : List Declaration)
  /-- Let a path stand for the module just walked, if no route was added to those found before it. -/
  | standIn (full : String) (found : Nat)
  | leave

namespace Duty

def isLeave : Duty → Bool
  | leave => true
  | _ => false

end Duty

/-- A builder at work: the walk so far, the modules that it is inside of and what it still has to do, both
innermost first. -/
structure Progress where
  walk : Walk
  active : List Location
  agenda : List Duty

namespace Walk

def add (w : Walk) (steps : List Step) (routes : List String) : Walk :=
  { w with steps := w.steps ++ steps, routes := w.routes ++ routes }

/-- What a walk comes to: the tree, or the fault that stopped it. -/
def outcome (w : Walk) : Except WalkFault RouteTree :=
  match w.fault with
  | some fault => .error fault
  | none => .ok w.tree

end Walk

/-- The beginning of a call for a root module: nothing is active. -/
def Progress.start (fs : FileSystem) (p : Path) (cache : ModuleCache) : Progress :=
  match fs.canonical p with
  | .error place => ⟨⟨[], [], cache, some (.load (.linkLoop place))⟩, [], []⟩
  | .ok root => ⟨.rest cache, [], [.enter root "" 0]⟩

namespace Guide

variable (guide : Guide) (fs : FileSystem)

/-- Does one thing. -/
def perform (s : Progress) : Duty → Progress
  | .leave => { s with active := s.active.tail }
  | .standIn full found =>
    if s.walk.routes.length = found ∧ full ≠ "" then { s with walk := s.walk.add [] [full] } else s
  | .enter module parent depth =>
    if module ∈ s.active then
      { s with walk := { s.walk with fault := some (.cycle (cycleOf s.active module)) } }
    else
      match guide.enter fs module depth s.walk.cache with
      | (steps, cache, .error fault) =>
        { walk := { s.walk.add steps [] with cache, fault := some (.load fault) }
          active := module :: s.active
          agenda := .leave :: s.agenda }
      | (steps, cache, .ok decls) =>
        { walk := { s.walk.add steps [] with cache }
          active := module :: s.active
          agenda := .visit module parent depth decls :: .leave :: s.agenda }
  | .visit _ _ _ [] => s
  | .visit source parent depth (d :: others) =>
    let full := extend parent d.path
    let walk := s.walk.add [.declare depth d.path full] []
    let itself := if full = "" then [] else [full]
    let later := .visit source full (depth + 1) d.children :: .visit source parent depth others :: s.agenda
    match d.loadChildren with
    | none => { s with walk := walk.add [] itself, agenda := later }
    | some reference =>
      match guide.resolve fs reference source.path with
      | .empty => { s with walk := walk.add [] itself, agenda := later }
      | .missing name => { s with walk := walk.add [.unresolved name source] itself, agenda := later }
      | .found name path file _ =>
        { s with
          walk := walk.add [.resolve name path, .load depth] []
          agenda := .enter file full (depth + 1) :: .standIn full walk.routes.length :: later }

/-- One step of a builder at work. -/
inductive Next : Progress → Progress → Prop
  | perform {w : Walk} {active : List Location} {duty : Duty} {rest : List Duty} (h : w.fault = none) :
      Next ⟨w, active, duty :: rest⟩ (guide.perform fs ⟨w, active, rest⟩ duty)
  | unwind {w : Walk} {active : List Location} {duty : Duty} {rest : List Duty} (h : w.fault ≠ none) :
      Next ⟨w, active, duty :: rest⟩ ⟨w, if duty.isLeave then active.tail else active, rest⟩

/-- Steps of a builder at work, none or more. -/
def Run : Progress → Progress → Prop := ReflTransGen (guide.Next fs)

variable {guide fs}

theorem Next.unique {s t t' : Progress} (h : guide.Next fs s t) (h' : guide.Next fs s t') : t = t' := by
  cases h with
  | perform h =>
    cases h' with
    | perform => rfl
    | unwind h' => exact absurd h h'
  | unwind h =>
    cases h' with
    | perform h' => exact absurd h' h
    | unwind => rfl

theorem not_next_of_done {s t : Progress} (h : s.agenda = []) : ¬guide.Next fs s t := by
  rintro (_ | _) <;> cases h

/-- Where a run has come to the end, every other run gets to the same end. -/
theorem run_of_done {s t u : Progress} (ht : guide.Run fs s t) (hdone : t.agenda = [])
    (hu : guide.Run fs s u) : guide.Run fs u t := by
  induction hu with
  | refl => exact ht
  | tail _ hstep ih =>
    rcases ReflTransGen.cases_head ih with rfl | ⟨next, hnext, hrest⟩
    · exact absurd hstep (not_next_of_done hdone)
    · rwa [hstep.unique hnext]

theorem eq_of_done {s t t' : Progress} (ht : guide.Run fs s t) (hdone : t.agenda = [])
    (ht' : guide.Run fs s t') (hdone' : t'.agenda = []) : t' = t := by
  rcases ReflTransGen.cases_head (run_of_done ht hdone ht') with h | ⟨next, hnext, -⟩
  · exact h
  · exact absurd hnext (not_next_of_done hdone')

/-- A run that has come to an end shows that there is no endless one. -/
theorem acc_of_run {s t : Progress} (h : guide.Run fs s t) (hdone : t.agenda = []) :
    Acc (fun after before => guide.Next fs before after) s := by
  induction h using ReflTransGen.head_induction_on with
  | refl => exact ⟨_, fun after hafter => absurd hafter (not_next_of_done hdone)⟩
  | head hstep _ ih => exact ⟨_, fun after hafter => hafter.unique hstep ▸ ih⟩

/-! ### Runs and walks -/

section Walk

variable {w : Walk} {next next' : ModuleCache → Walk}

theorem andThen_rest (w : Walk) : w.andThen .rest = w := by
  unfold Walk.andThen Walk.rest
  cases hf : w.fault with
  | some fault => rfl
  | none => simp [← hf]

theorem andThen_andThen (w : Walk) : (w.andThen next).andThen next' =
    w.andThen fun cache => (next cache).andThen next' := by
  by_cases h : w.fault = none
  · by_cases h' : (next w.cache).fault = none
    · simp [Walk.andThen, h, h']
    · rw [Walk.andThen_of_fault (by rwa [Walk.fault_andThen_of_none h])]
      simp only [Walk.andThen, h]
      split
      · rfl
      · rename_i hnone
        exact absurd hnone h'
  · rw [Walk.andThen_of_fault h, Walk.andThen_of_fault h, Walk.andThen_of_fault h]

theorem andThen_of_none (h : w.fault = none) :
    w.andThen next = { next w.cache with
      steps := w.steps ++ (next w.cache).steps, routes := w.routes ++ (next w.cache).routes } := by
  simp only [Walk.andThen, h]

end Walk

/-- Whether some duties come to a stretch of a walk and leave the stack as it was. -/
def Does (guide : Guide) (fs : FileSystem) (active : List Location) (duties : List Duty)
    (stretch : ModuleCache → Walk) : Prop :=
  ∀ w rest, guide.Run fs ⟨w, active, duties ++ rest⟩ ⟨w.andThen stretch, active, rest⟩

variable {active : List Location} {duties duties' : List Duty} {stretch stretch' : ModuleCache → Walk}

theorem Does.append (h : guide.Does fs active duties stretch)
    (h' : guide.Does fs active duties' stretch') :
    guide.Does fs active (duties ++ duties') fun cache => (stretch cache).andThen stretch' := by
  intro w rest
  rw [List.append_assoc, ← andThen_andThen]
  exact (h w (duties' ++ rest)).trans (h' _ rest)

theorem run_of_fault {w : Walk} (hf : w.fault ≠ none) (hduties : ∀ duty ∈ duties, duty.isLeave = false)
    (rest : List Duty) : guide.Run fs ⟨w, active, duties ++ rest⟩ ⟨w, active, rest⟩ := by
  induction duties with
  | nil => exact .refl
  | cons duty duties ih =>
    obtain ⟨hduty, hrest⟩ := List.forall_mem_cons.mp hduties
    have hstep : guide.Next fs ⟨w, active, duty :: (duties ++ rest)⟩ _ := .unwind hf
    rw [hduty] at hstep
    exact .head hstep (ih hrest)

theorem Does.of_none (hduties : ∀ duty ∈ duties, duty.isLeave = false)
    (h : ∀ w rest, w.fault = none →
      guide.Run fs ⟨w, active, duties ++ rest⟩ ⟨w.andThen stretch, active, rest⟩) :
    guide.Does fs active duties stretch := by
  intro w rest
  by_cases hf : w.fault = none
  · exact h w rest hf
  · rw [Walk.andThen_of_fault hf]
    exact run_of_fault hf hduties rest

theorem run_leave (w : Walk) (module : Location) (active : List Location) (rest : List Duty) :
    guide.Run fs ⟨w, module :: active, .leave :: rest⟩ ⟨w, active, rest⟩ := by
  by_cases hf : w.fault = none
  · exact .single (.perform hf)
  · exact .single (.unwind hf)

section Module

variable {module : Location} {parent full : String} {depth : Nat}

/-- Entering a module comes to the walk over it, if visiting its routes does. -/
theorem does_enter_of (hvisit : module ∉ active → ∀ decls,
      guide.Does fs (module :: active) [.visit module parent depth decls]
        (guide.visit fs (module :: active) module parent depth decls)) :
    guide.Does fs active [.enter module parent depth]
      (guide.walkModule fs active module parent depth) := by
  refine .of_none (by simp [Duty.isLeave]) fun w rest hf => ?_
  have hstep : guide.Next fs ⟨w, active, .enter module parent depth :: rest⟩ _ := .perform hf
  refine .head hstep ?_
  rw [andThen_of_none hf]
  unfold perform walkModule
  by_cases ha : module ∈ active
  · simp only [if_pos ha, List.append_nil]
    exact .refl
  simp only [if_neg ha]
  rcases guide.enter fs module depth w.cache with ⟨steps, cache, fault | decls⟩
  · exact run_leave _ module active rest
  · have hrun := hvisit ha decls { w.add steps [] with cache } (.leave :: rest)
    have hwalk : Walk.andThen { w.add steps [] with cache } (guide.visit fs (module :: active) module
        parent depth decls) = w.andThen fun _ => Walk.andThen ⟨steps, [], cache, none⟩
          (guide.visit fs (module :: active) module parent depth decls) := by
      simp [Walk.andThen, Walk.add, hf]
    rw [hwalk, andThen_of_none hf] at hrun
    exact hrun.trans (run_leave _ module active rest)

/-- Entering a module with a path to stand in for it comes to the walk over it or to that path. -/
theorem run_enter_standIn {file : Location}
    (henter : guide.Does fs active [.enter file full depth] (guide.walkModule fs active file full depth))
    (w : Walk) (hf : w.fault = none) (rest : List Duty) :
    guide.Run fs ⟨w, active, .enter file full depth :: .standIn full w.routes.length :: rest⟩
      ⟨w.andThen fun cache => (guide.walkModule fs active file full depth cache).orItself full,
        active, rest⟩ := by
  refine (henter w (.standIn full w.routes.length :: rest)).trans ?_
  by_cases hmodule : (guide.walkModule fs active file full depth w.cache).fault = none
  · have hnone : (w.andThen (guide.walkModule fs active file full depth)).fault = none := by
      rwa [Walk.fault_andThen_of_none hf]
    refine .head (.perform hnone) ?_
    rw [andThen_of_none hf, andThen_of_none hf, perform, Walk.orItself]
    -- a path stands in just if the module has added nothing to the routes found before it
    by_cases hempty : (guide.walkModule fs active file full depth w.cache).routes = [] ∧ full ≠ ""
    · rw [if_pos (by simpa using hempty), if_pos (by simpa [hmodule] using hempty)]
      simp only [Walk.add, hempty.1, List.append_nil]
      exact .refl
    · rw [if_neg (by simpa using hempty), if_neg (by simpa [hmodule] using hempty)]
  · have hsome : (w.andThen (guide.walkModule fs active file full depth)).fault ≠ none := by
      rwa [Walk.fault_andThen_of_none hf]
    have hsame : (w.andThen fun cache =>
        (guide.walkModule fs active file full depth cache).orItself full) =
          w.andThen (guide.walkModule fs active file full depth) := by
      rw [andThen_of_none hf, andThen_of_none hf, Walk.orItself, if_neg]
      rintro ⟨hnone, -⟩
      exact hmodule (by simpa using hnone)
    have hdrop : guide.Run fs ⟨_, active, [.standIn full w.routes.length] ++ rest⟩ ⟨_, active, rest⟩ :=
      run_of_fault hsome (by simp [Duty.isLeave]) rest
    rwa [hsame]

end Module

/-- The first route of a visit comes to its contribution, with its inline children and the later routes
still to do. -/
theorem run_declaration (source : Location) (d : Declaration)
    (henter : ∀ file full depth, guide.loaded? fs source d = some file →
      guide.Does fs active [.enter file full depth] (guide.walkModule fs active file full depth))
    (parent : String) (depth : Nat) (others : List Declaration) {w : Walk} (hf : w.fault = none)
    (rest : List Duty) :
    guide.Run fs ⟨w, active, .visit source parent depth (d :: others) :: rest⟩
      ⟨w.andThen fun cache =>
          (guide.below fs active source (extend parent d.path) depth d cache).after
            (.declare depth d.path (extend parent d.path)),
        active, .visit source (extend parent d.path) (depth + 1) d.children ::
          .visit source parent depth others :: rest⟩ := by
  refine .head (.perform hf) ?_
  rw [andThen_of_none hf]
  cases hd : d.loadChildren with
  | none =>
    simp only [perform, below, hd, Walk.after, Walk.add, hf, List.append_nil]
    exact .refl
  | some reference =>
    cases hr : guide.resolve fs reference source.path with
    | empty =>
      simp only [perform, below, hd, hr, Walk.after, Walk.add, hf, List.append_nil]
      exact .refl
    | missing name =>
      simp only [perform, below, hd, hr, Walk.after, Walk.add, hf, List.append_assoc, List.append_nil,
        List.singleton_append]
      exact .refl
    | found name path file hfile =>
      have hl : guide.loaded? fs source d = some file := by
        rw [loaded?, hd, Option.bind_some, hr]
        rfl
      let begun := (w.add [.declare depth d.path (extend parent d.path)] []).add
        [.resolve name path, .load depth] []
      have hbegun : begun.fault = none := hf
      have hrun := run_enter_standIn (henter file (extend parent d.path) (depth + 1) hl) begun hbegun
        (.visit source (extend parent d.path) (depth + 1) d.children ::
          .visit source parent depth others :: rest)
      rw [andThen_of_none hbegun] at hrun
      simpa [Run, perform, below, hd, hr, begun, Walk.add, Walk.after] using hrun

/-- Visiting routes comes to the visit of the walk. -/
theorem does_visit (active : List Location) (source : Location) (decls : List Declaration) :
    ∀ (parent : String) (depth : Nat), guide.Does fs active [.visit source parent depth decls]
      (guide.visit fs active source parent depth decls) := by
  induction active, source, decls using visit_induction guide fs with
  | nil active source =>
    intro parent depth
    refine .of_none (by simp [Duty.isLeave]) fun w rest hf => .head (.perform hf) ?_
    have hrest : (guide.visit fs active source parent depth []) = .rest :=
      funext fun cache => visit_nil active source parent depth cache
    rw [hrest, andThen_rest]
    exact .refl
  | cons active source d others ihLoad ihInner ihOthers =>
    intro parent depth
    refine .of_none (by simp [Duty.isLeave]) fun w rest hf => ?_
    have hfirst := run_declaration source d (fun file full depth hl => does_enter_of fun ha decls =>
      ihLoad file decls (mem_files_of_loaded? hl) ha full depth) parent depth others hf rest
    have hlater := (ihInner (extend parent d.path) (depth + 1)).append (ihOthers parent depth)
    have hrun := hfirst.trans (hlater _ rest)
    rw [andThen_andThen] at hrun
    have hvisit : guide.visit fs active source parent depth (d :: others) = fun cache =>
        (((guide.below fs active source (extend parent d.path) depth d cache).after
          (.declare depth d.path (extend parent d.path))).andThen
          fun cache => (guide.visit fs active source (extend parent d.path) (depth + 1) d.children
            cache).andThen (guide.visit fs active source parent depth others)) :=
      funext fun cache => by rw [visit_cons, andThen_andThen]
    rw [hvisit]
    exact hrun

theorem does_enter (active : List Location) (module : Location) (parent : String) (depth : Nat) :
    guide.Does fs active [.enter module parent depth]
      (guide.walkModule fs active module parent depth) :=
  does_enter_of fun _ decls => does_visit (module :: active) module decls parent depth

/-- A call comes to the walk that it is for, and leaves the stack empty. -/
theorem run_start (guide : Guide) (fs : FileSystem) (p : Path) (cache : ModuleCache) :
    guide.Run fs (.start fs p cache) ⟨guide.build fs p cache, [], []⟩ := by
  unfold Progress.start build
  cases fs.canonical p with
  | error place => exact .refl
  | ok root =>
    have hrun : guide.Run fs ⟨.rest cache, [], [.enter root "" 0]⟩ _ := does_enter [] root "" 0 _ []
    have hwalk : (Walk.rest cache).andThen (guide.walkModule fs [] root "" 0) =
        guide.walk fs root cache := by
      rw [andThen_of_none rfl, walk_eq_walkModule]
      rfl
    rwa [hwalk] at hrun

end Guide

end RouteInventory.Routing
