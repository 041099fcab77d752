import RouteInventory.Proofs.Routing.Agreement
import RouteInventory.Proofs.Routing.Cycle
import RouteInventory.Proofs.Routing.Run

/-!
# Calls on one builder

A builder keeps its cache from one call to the next, also from a call that ended in a fault. Since the cache
stays faithful to the files and a call leaves the stack empty, no call can tell the calls before it: its
outcome is that of a call on a fresh builder (`call_iff_of_history`).
-/

namespace RouteInventory.Routing

open Relation

/-- What a builder keeps from one call to the next. -/
structure Builder where
  cache : ModuleCache := {}
  active : List Location := []

theorem Walk.outcome_of_fault {w : Walk} {fault : WalkFault} (h : w.fault = some fault) :
    w.outcome = .error fault := by
  rw [outcome, h]

theorem Walk.Agrees.outcome_eq {w w' : Walk} {name : Location → String} (h : w.Agrees w')
    (hw : w.NamedBy name) (hw' : w'.NamedBy name) : w.outcome = w'.outcome := by
  rw [Walk.outcome, Walk.outcome, h.fault, h.tree_eq hw hw']

namespace Guide

variable (guide : Guide) (fs : FileSystem)

/-- A call on a builder for a root module: it empties the stack, runs to its end, and leaves the cache and
the stack it then has. -/
def Call (b : Builder) (p : Path) (after : Builder) (outcome : Except WalkFault RouteTree) : Prop :=
  ∃ s, guide.Run fs (.start fs p b.cache) s ∧ s.agenda = [] ∧ after = ⟨s.walk.cache, s.active⟩ ∧
    outcome = s.walk.outcome

/-- The builders that calls lead to from a fresh one. -/
inductive History : Builder → Prop
  | fresh : History {}
  | call {b after : Builder} {p : Path} {outcome : Except WalkFault RouteTree} (h : History b)
    (hcall : guide.Call fs b p after outcome) : History after

variable {guide fs} {b after : Builder} {p : Path} {outcome : Except WalkFault RouteTree}

theorem call_iff : guide.Call fs b p after outcome ↔
    after = ⟨(guide.build fs p b.cache).cache, []⟩ ∧
      outcome = (guide.build fs p b.cache).outcome := by
  constructor
  · rintro ⟨s, hrun, hdone, rfl, rfl⟩
    obtain rfl := eq_of_done (run_start guide fs p b.cache) rfl hrun hdone
    exact ⟨rfl, rfl⟩
  · rintro ⟨rfl, rfl⟩
    exact ⟨_, run_start guide fs p b.cache, rfl, rfl, rfl⟩

/-- With a faithful cache a call comes to what it comes to without any. -/
theorem outcome_build (guide : Guide) {cache : ModuleCache} (h : cache.Faithful fs) (p : Path) :
    (guide.build fs p cache).outcome = (guide.build fs p {}).outcome := by
  have hagrees : (guide.build fs p cache).Agrees (guide.build fs p {}) :=
    agrees_build (.refl guide fs) rfl (fun _ _ => trivial) h ModuleCache.faithful_empty
  exact hagrees.outcome_eq (namedBy_build guide fs p cache) (namedBy_build guide fs p {})

theorem History.faithful (h : guide.History fs b) : b.cache.Faithful fs := by
  induction h with
  | fresh => exact ModuleCache.faithful_empty
  | call _ hcall ih =>
    obtain ⟨rfl, -⟩ := call_iff.mp hcall
    exact faithful_build guide ih _

/-- Calls do not interfere: whatever calls were made on a builder, successful or not, the next one ends, with
an empty stack and with the outcome that it has on a fresh builder. -/
theorem call_iff_of_history (h : guide.History fs b) (p : Path) :
    (∃ b', b'.active = [] ∧ ∀ after outcome, guide.Call fs b p after outcome ↔
        after = b' ∧ outcome = (guide.build fs p {}).outcome) ∧
      ∀ outcome, (∃ after, guide.Call fs {} p after outcome) ↔
        outcome = (guide.build fs p {}).outcome := by
  refine ⟨⟨⟨(guide.build fs p b.cache).cache, []⟩, rfl, fun after outcome => ?_⟩, fun outcome => ?_⟩
  · rw [call_iff, outcome_build guide h.faithful p]
  · constructor
    · rintro ⟨after, hcall⟩
      exact (call_iff.mp hcall).2
    · rintro rfl
      exact ⟨_, call_iff.mpr ⟨rfl, rfl⟩⟩

/-- After a call that was stopped by a cycle the builder answers as before. -/
theorem call_mutualFiles :
    ∃ b fault, rootGuide.Call mutualFiles {} ⟨.slash, ["a-routing.module.ts"]⟩ b (.error fault) ∧
      rootGuide.History mutualFiles b ∧
      (∃ b', b'.active = [] ∧ ∀ after outcome,
        rootGuide.Call mutualFiles b ⟨.slash, ["b-routing.module.ts"]⟩ after outcome ↔
          after = b' ∧ outcome =
            (rootGuide.build mutualFiles ⟨.slash, ["b-routing.module.ts"]⟩ {}).outcome) ∧
      ∀ outcome, (∃ after, rootGuide.Call mutualFiles {} ⟨.slash, ["b-routing.module.ts"]⟩ after
          outcome) ↔
        outcome = (rootGuide.build mutualFiles ⟨.slash, ["b-routing.module.ts"]⟩ {}).outcome := by
  let first := rootGuide.build mutualFiles ⟨.slash, ["a-routing.module.ts"]⟩ {}
  have hroot : mutualFiles.canonical ⟨.slash, ["a-routing.module.ts"]⟩ =
      .ok ⟨["a-routing.module.ts"]⟩ := by
    simp [FileSystem.canonical, FileSystem.canonicalFrom, FileSystem.entryAt?, mutualFiles,
      Location.root, Location.child, Path.isAbsolute]
  have hfault : first.fault ≠ none := by
    intro hnone
    have hfree := free_of_walk ModuleCache.faithful_empty
      (by rwa [← build_eq_walk hroot] : (rootGuide.walk mutualFiles _ {}).fault = none)
    exact (hfree _ .refl).2 (.tail (.single ((loads_mutualFiles _).1.mpr rfl))
      ((loads_mutualFiles _).2.mpr rfl))
  obtain ⟨fault, hfault⟩ := Option.ne_none_iff_exists'.mp hfault
  have hcall : rootGuide.Call mutualFiles {} ⟨.slash, ["a-routing.module.ts"]⟩ ⟨first.cache, []⟩
      (.error fault) := call_iff.mpr ⟨rfl, (Walk.outcome_of_fault hfault).symm⟩
  have hhistory := History.fresh.call hcall
  exact ⟨_, fault, hcall, hhistory, call_iff_of_history hhistory _⟩

end Guide

end RouteInventory.Routing
