/-
This file develops renamings of names: permutations of the type of names, which
may move the names one computation drew onto those another one drew. Two lists
of distinct names of one length are carried onto each other by a renaming that
leaves in place every name the lists avoid.
-/

import Mathlib.Logic.Equiv.Basic
import Mathlib.Data.List.Nodup

namespace Renaming

variable {Name : Type} [DecidableEq Name]

/-- Moving one more name: what is moved already stays where it went, and so does every name that
neither the new name nor its image is. -/
theorem exists_extended (rename : Equiv.Perm Name) (source target : Name) :
    ∃ extended : Equiv.Perm Name, extended source = target ∧
      ∀ name, name ≠ source → rename name ≠ target → extended name = rename name := by
  refine ⟨rename.trans (Equiv.swap (rename source) target), Equiv.swap_apply_left _ _,
    fun name other elsewhere => ?_⟩
  exact Equiv.swap_apply_of_ne_of_ne (fun same => other (rename.injective same)) elsewhere

/-- Distinct names can be renamed to as many distinct names, away from the names both avoid. -/
theorem exists_perm (kept : Name → Prop) {sources targets : List Name}
    (sameLength : sources.length = targets.length)
    (sourcesDistinct : sources.Nodup) (targetsDistinct : targets.Nodup)
    (sourcesNew : ∀ name ∈ sources, ¬kept name) (targetsNew : ∀ name ∈ targets, ¬kept name) :
    ∃ rename : Equiv.Perm Name, sources.map rename = targets ∧
      ∀ name, kept name → rename name = name := by
  induction sources generalizing targets with
  | nil =>
    rw [List.eq_nil_of_length_eq_zero sameLength.symm]
    exact ⟨Equiv.refl Name, rfl, fun _ _ => rfl⟩
  | cons source sources inductionHypothesis =>
    obtain ⟨target, targets, rfl⟩ := List.exists_cons_of_length_eq_add_one sameLength.symm
    obtain ⟨sourceAbsent, sourcesDistinct⟩ := List.nodup_cons.mp sourcesDistinct
    obtain ⟨targetAbsent, targetsDistinct⟩ := List.nodup_cons.mp targetsDistinct
    obtain ⟨sourceNew, sourcesNew⟩ := List.forall_mem_cons.mp sourcesNew
    obtain ⟨targetNew, targetsNew⟩ := List.forall_mem_cons.mp targetsNew
    obtain ⟨rename, moved, fixes⟩ := inductionHypothesis (Nat.succ.inj sameLength)
      sourcesDistinct targetsDistinct sourcesNew targetsNew
    obtain ⟨extended, atSource, elsewhere⟩ := exists_extended rename source target
    refine ⟨extended, ?_, fun name keeps => ?_⟩
    · rw [List.map_cons, atSource, ← moved]
      refine congrArg _ (List.map_congr_left fun name member => elsewhere name ?_ ?_)
      · rintro rfl
        exact sourceAbsent member
      · rintro rfl
        exact targetAbsent (moved ▸ List.mem_map_of_mem member)
    · rw [elsewhere name, fixes name keeps]
      · rintro rfl
        exact sourceNew keeps
      · rw [fixes name keeps]
        rintro rfl
        exact targetNew keeps

end Renaming
