import RouteInventory.Proofs.FileSystem.Budget
import RouteInventory.Proofs.Routing.Candidates
import RouteInventory.Proofs.Routing.Run

/-!
# How deep modules nest

A builder at work only ever enters files that references were found to stand for, each of them once while it
is active. So its stack is never higher than there are files, and since the walk that it comes to is a total
function, there is no endless run (`build_ends`).
-/

namespace RouteInventory.Routing

open Relation

/-- Whether a location is that of an existing file to which some path leads, links followed. -/
def IsFound (fs : FileSystem) (module : Location) : Prop := ∃ path, fs.regularFile? path = some module

namespace IsFound

variable {fs : FileSystem} {module : Location}

theorem mem_files (h : IsFound fs module) : module ∈ fs.files :=
  h.elim fun _ hpath => FileSystem.mem_files_of_regularFile? hpath

theorem canonical_path (h : IsFound fs module) (hfs : fs.Sound) :
    fs.canonical module.path = .ok module := by
  obtain ⟨path, hpath⟩ := h
  obtain ⟨content, hcontent⟩ := FileSystem.entry_of_regularFile? hpath
  exact hfs.canonical_path hcontent (by simp)

end IsFound

/-- What holds of a builder at work once it has entered the root module: no module is active twice, those
inside the outermost one have been found, and so have those that are still to be entered. -/
structure Progress.Nested (fs : FileSystem) (p : Path) (s : Progress) : Prop where
  distinct : s.active.Nodup
  inner : ∀ m ∈ s.active.dropLast, IsFound fs m
  all : ∀ m ∈ s.active, fs.canonical p = .ok m ∨ IsFound fs m
  entering : ∀ m parent depth, Duty.enter m parent depth ∈ s.agenda → IsFound fs m

/-- What a step does to the stack: it leaves it, takes the innermost module from it, or puts a new one on. -/
inductive StackStep (allowed : Location → Prop) (active : List Location) : List Location → Prop
  | keep : StackStep allowed active active
  | pop : StackStep allowed active active.tail
  | push {m : Location} (hnew : m ∉ active) (h : allowed m) : StackStep allowed active (m :: active)

theorem StackStep.mono {allowed allowed' : Location → Prop} {active active' : List Location}
    (h : StackStep allowed active active') (hle : ∀ m, allowed m → allowed' m) :
    StackStep allowed' active active' := by
  cases h with
  | keep => exact .keep
  | pop => exact .pop
  | push hnew h => exact .push hnew (hle _ h)

namespace Guide

variable {guide : Guide} {fs : FileSystem} {p : Path} {s t : Progress}

/-- Entering is the only duty by which the stack grows. -/
theorem stackStep_perform (guide : Guide) (fs : FileSystem) (s : Progress) (duty : Duty) :
    StackStep (fun m => ∃ parent depth, duty = .enter m parent depth) s.active
      (guide.perform fs s duty).active := by
  cases duty with
  | leave => exact .pop
  | standIn full found =>
    rw [perform]
    split <;> exact .keep
  | enter module parent depth =>
    rw [perform]
    split
    · exact .keep
    · next hnew => split <;> exact .push hnew ⟨parent, depth, rfl⟩
  | visit source parent depth decls =>
    cases decls with
    | nil => exact .keep
    | cons d others =>
      rw [perform]
      split
      · exact .keep
      · split <;> exact .keep

theorem isFound_of_mem_perform {duty : Duty} {m : Location} {parent : String} {depth : Nat}
    (h : .enter m parent depth ∈ (guide.perform fs s duty).agenda) :
    .enter m parent depth ∈ s.agenda ∨ IsFound fs m := by
  cases duty with
  | leave => exact .inl h
  | standIn full found =>
    rw [perform] at h
    split at h <;> exact .inl h
  | enter module parent' depth' =>
    rw [perform] at h
    split at h
    · exact .inl h
    · split at h <;> exact .inl (by simpa using h)
  | visit source parent' depth' decls =>
    cases decls with
    | nil => exact .inl h
    | cons d others =>
      rw [perform] at h
      split at h
      · exact .inl (by simpa using h)
      · next reference hd =>
        split at h
        · exact .inl (by simpa using h)
        · exact .inl (by simpa using h)
        · next name path file hfile hr =>
          have hl : guide.loaded? fs source d = some file := by
            rw [loaded?, hd, Option.bind_some, hr]
            rfl
          obtain ⟨-, -, -, candidate, -, hcandidate⟩ := exists_of_loaded? hl
          simp only [List.mem_cons, reduceCtorEq, false_or, Duty.enter.injEq] at h
          rcases h with ⟨rfl, -⟩ | h
          · exact .inr ⟨candidate, hcandidate⟩
          · exact .inl h

theorem Next.stackStep (h : guide.Next fs s t) :
    StackStep (fun m => ∃ parent depth, Duty.enter m parent depth ∈ s.agenda) s.active t.active := by
  cases h with
  | @perform w active duty rest hf =>
    refine (stackStep_perform guide fs ⟨w, active, rest⟩ duty).mono ?_
    rintro m ⟨parent, depth, rfl⟩
    exact ⟨parent, depth, List.mem_cons_self⟩
  | @unwind w active duty rest hf =>
    dsimp only
    split
    · exact .pop
    · exact .keep

theorem Next.isFound (h : guide.Next fs s t) {m : Location} {parent : String} {depth : Nat}
    (hm : .enter m parent depth ∈ t.agenda) :
    .enter m parent depth ∈ s.agenda.tail ∨ IsFound fs m := by
  cases h with
  | perform => exact isFound_of_mem_perform hm
  | unwind => exact .inl hm

/-- A step keeps the modules nested. -/
theorem Next.nested (h : guide.Next fs s t) (hs : s.Nested fs p) : t.Nested fs p := by
  have hstack : StackStep (IsFound fs) s.active t.active :=
    h.stackStep.mono fun m ⟨parent, depth, hm⟩ => hs.entering m parent depth hm
  have hentering : ∀ m parent depth, Duty.enter m parent depth ∈ t.agenda → IsFound fs m := by
    intro m parent depth hm
    rcases h.isFound hm with hm | hm
    · exact hs.entering m parent depth (List.mem_of_mem_tail hm)
    · exact hm
  obtain ⟨w, active, agenda⟩ := t
  dsimp only at hstack
  cases hstack with
  | keep => exact ⟨hs.distinct, hs.inner, hs.all, hentering⟩
  | pop =>
    refine ⟨hs.distinct.tail, fun m hm => hs.inner m ?_, fun m hm => hs.all m (List.mem_of_mem_tail hm),
      hentering⟩
    rw [← List.tail_dropLast] at hm
    exact List.mem_of_mem_tail hm
  | @push m hnew hfound =>
    refine ⟨List.nodup_cons.mpr ⟨hnew, hs.distinct⟩, fun m' hm' => ?_, fun m' hm' => ?_, hentering⟩
    · by_cases hactive : s.active = []
      · rw [hactive] at hm'
        exact absurd hm' List.not_mem_nil
      · rw [List.dropLast_cons_of_ne_nil hactive] at hm'
        rcases List.mem_cons.mp hm' with rfl | hm'
        exacts [hfound, hs.inner m' hm']
    · rcases List.mem_cons.mp hm' with rfl | hm'
      exacts [.inr hfound, hs.all m' hm']

theorem nested_of_next_start {cache : ModuleCache} (h : guide.Next fs (.start fs p cache) t) :
    t.Nested fs p ∧ StackStep (fun m => fs.canonical p = .ok m) (Progress.start fs p cache).active
      t.active := by
  cases hroot : fs.canonical p with
  | error place =>
    have hstart : (Progress.start fs p cache).agenda = [] := by rw [Progress.start, hroot]
    exact absurd h (not_next_of_done hstart)
  | ok root =>
    have hstart : Progress.start fs p cache = ⟨.rest cache, [], [.enter root "" 0]⟩ := by
      rw [Progress.start, hroot]
    rw [hstart] at h ⊢
    have hstack := h.stackStep
    have hentering : ∀ m parent depth, Duty.enter m parent depth ∈ t.agenda → IsFound fs m :=
      fun m parent depth hm => (h.isFound hm).resolve_left List.not_mem_nil
    obtain ⟨w, active, agenda⟩ := t
    dsimp only at hstack ⊢
    cases hstack with
    | keep => exact ⟨⟨.nil, by simp, by simp, hentering⟩, .keep⟩
    | pop => exact ⟨⟨.nil, by simp, by simp, hentering⟩, .keep⟩
    | @push m hnew hentered =>
      obtain ⟨parent, depth, hm⟩ := hentered
      obtain ⟨rfl, -⟩ : m = root ∧ _ := by simpa using hm
      exact ⟨⟨List.nodup_singleton m, by simp, fun m' hm' => .inl (List.mem_singleton.mp hm' ▸ hroot),
        hentering⟩, .push hnew rfl⟩

theorem nested_of_run {cache : ModuleCache} (h : guide.Run fs (.start fs p cache) s) :
    s = .start fs p cache ∨ s.Nested fs p := by
  rcases ReflTransGen.cases_head h with rfl | ⟨first, hfirst, hrest⟩
  · exact .inl rfl
  · refine .inr ?_
    have hnested := (nested_of_next_start hfirst).1
    induction hrest with
    | refl => exact hnested
    | tail _ hstep ih => exact hstep.nested (ih (.head hfirst ‹_›))

theorem active_start (fs : FileSystem) (p : Path) (cache : ModuleCache) :
    (Progress.start fs p cache).active = [] := by
  unfold Progress.start
  split <;> rfl

/-- A call always ends, with the outcome of the walk: there is no endless run of it. On the way to the end the
stack holds different files that were found, the root module outermost, so it is never higher than there are
files, and no step puts anything else on it. -/
theorem build_ends (guide : Guide) (fs : FileSystem) (p : Path) (cache : ModuleCache) :
    Acc (fun after before => guide.Next fs before after) (.start fs p cache) ∧
      guide.Run fs (.start fs p cache) ⟨guide.build fs p cache, [], []⟩ ∧
      ∀ s, guide.Run fs (.start fs p cache) s →
        s.active.Nodup ∧ s.active.dropLast.length ≤ fs.files.toFinset.card ∧
        ((∀ root, fs.canonical p = .ok root → root ∈ fs.files) →
          s.active.length ≤ fs.files.toFinset.card) ∧
        ∀ t, guide.Next fs s t → StackStep (fun m => (s.active = [] ∧ fs.canonical p = .ok m) ∨
          (IsFound fs m ∧ (fs.Sound → fs.canonical m.path = .ok m))) s.active t.active := by
  have hend := run_start guide fs p cache
  have hfound {m : Location} (h : IsFound fs m) : IsFound fs m ∧
      (fs.Sound → fs.canonical m.path = .ok m) := ⟨h, h.canonical_path⟩
  refine ⟨acc_of_run hend rfl, hend, fun s hs => ?_⟩
  have hcard {active : List Location} (hnodup : active.Nodup) (hfiles : ∀ m ∈ active, m ∈ fs.files) :
      active.length ≤ fs.files.toFinset.card := by
    rw [← List.toFinset_card_of_nodup hnodup]
    exact Finset.card_le_card fun m hm => List.mem_toFinset.mpr (hfiles m (List.mem_toFinset.mp hm))
  rcases nested_of_run hs with rfl | hnested
  · rw [active_start]
    refine ⟨.nil, Nat.zero_le _, fun _ => Nat.zero_le _, fun t ht => ?_⟩
    have hstep := (nested_of_next_start ht).2
    rw [active_start] at hstep
    exact hstep.mono fun m hm => .inl ⟨rfl, hm⟩
  · refine ⟨hnested.distinct, hcard (hnested.distinct.sublist (List.dropLast_sublist _))
      fun m hm => (hnested.inner m hm).mem_files, fun hroot => hcard hnested.distinct fun m hm =>
        (hnested.all m hm).elim (hroot m) IsFound.mem_files, fun t ht => ?_⟩
    exact ht.stackStep.mono fun m ⟨parent, depth, hm⟩ => .inr (hfound (hnested.entering m parent depth hm))

end Guide

end RouteInventory.Routing
