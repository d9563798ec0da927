import Mathlib.Data.List.Perm.Subperm

namespace Lib

universe u v w
variable {α : Type u} {β : Type v} {ι : Type w}

/-- Fewer elements have fewer images. -/
theorem subperm_map (f : α → β) {xs ys : List α} (fewer : xs.Subperm ys) : (xs.map f).Subperm (ys.map f) := by
  obtain ⟨zs, same, inside⟩ := fewer
  exact ⟨zs.map f, same.map f, inside.map f⟩

/-- What each party has is a part of what it is due. -/
theorem subperm_flatMap {parties : List ι} {has due : ι → List α} (each : ∀ i ∈ parties, (has i).Subperm (due i)) :
    (parties.flatMap has).Subperm (parties.flatMap due) := by
  induction parties with
  | nil => exact .refl _
  | cons i rest ih =>
    rw [List.flatMap_cons, List.flatMap_cons]
    exact (each i List.mem_cons_self).append (ih fun j member => each j (List.mem_cons_of_mem i member))

/-- The shares of distinct parties make up all that is theirs. -/
theorem shares_perm [DecidableEq ι] (owner : α → ι) {parties : List ι} (distinct : parties.Nodup) (all : List α) :
    (parties.flatMap fun i => all.filter fun a => owner a = i).Perm (all.filter fun a => owner a ∈ parties) := by
  induction parties with
  | nil => simp
  | cons i rest ih =>
    obtain ⟨absent, distinct⟩ := List.nodup_cons.mp distinct
    have split := List.filter_append_perm (fun a => decide (owner a = i)) (all.filter fun a => owner a ∈ i :: rest)
    have here : (all.filter fun a => owner a ∈ i :: rest).filter (fun a => owner a = i) =
        all.filter fun a => owner a = i := by
      rw [List.filter_filter]
      refine List.filter_congr fun a _ => ?_
      by_cases same : owner a = i
      · simp [same]
      · simp [same]
    have others : (all.filter fun a => owner a ∈ i :: rest).filter (fun a => !decide (owner a = i)) =
        all.filter fun a => owner a ∈ rest := by
      rw [List.filter_filter]
      refine List.filter_congr fun a _ => ?_
      by_cases same : owner a = i
      · simp [same, absent]
      · simp [same]
    rw [here, others] at split
    rw [List.flatMap_cons]
    exact ((ih distinct).append_left _).trans split

/-- The shares of distinct parties are parts of the whole. -/
theorem shares_subperm [DecidableEq ι] (owner : α → ι) {parties : List ι} (distinct : parties.Nodup) (all : List α) :
    (parties.flatMap fun i => all.filter fun a => owner a = i).Subperm all :=
  (shares_perm owner distinct all).subperm.trans List.filter_sublist.subperm

/-- What the parties have, by their positions. -/
theorem flatMap_eq_range {parties : List ι} {has : ι → List α} {due : Nat → List α}
    (same : ∀ i party, parties[i]? = some party → has party = due i) :
    parties.flatMap has = (List.range parties.length).flatMap due := by
  have images : parties.map has = (List.range parties.length).map due := by
    refine List.ext_getElem (by simp) fun i inside _ => ?_
    rw [List.length_map] at inside
    rw [List.getElem_map, List.getElem_map, List.getElem_range]
    exact same i _ (List.getElem?_eq_getElem inside)
  rw [List.flatMap_def, List.flatMap_def, images]

/-- The entries at distinct positions of a list are part of it. -/
theorem entries_subperm {positions : List Nat} (distinct : positions.Nodup) {all : List α}
    (inside : ∀ i ∈ positions, i < all.length) (default : α) :
    (positions.map fun i => all.getD i default).Subperm all := by
  have positions_subperm : positions.Subperm (List.range all.length) :=
    List.subperm_of_subset distinct fun i member => List.mem_range.mpr (inside i member)
  have whole : (List.range all.length).map (fun i => all.getD i default) = all := by
    refine List.ext_getElem (by simp) fun i _ below => ?_
    simp [List.getElem?_eq_getElem below]
  have images := subperm_map (fun i => all.getD i default) positions_subperm
  rwa [whole] at images

/-- One party gets one more element. -/
theorem flatMap_set_perm {all : List ι} {i : Nat} {a b : ι} (here : all[i]? = some a) {has : ι → List α} {x : α}
    (more : has b = has a ++ [x]) : ((all.set i b).flatMap has).Perm (all.flatMap has ++ [x]) := by
  induction all generalizing i with
  | nil => cases here
  | cons first rest ih =>
    cases i with
    | zero =>
      cases here
      rw [List.set_cons_zero, List.flatMap_cons, List.flatMap_cons, more, List.append_assoc, List.append_assoc]
      exact List.perm_append_comm.append_left _
    | succ i =>
      rw [List.set_cons_succ, List.flatMap_cons, List.flatMap_cons, List.append_assoc]
      exact (ih here).append_left _

/-- A party's update that leaves what it has. -/
theorem flatMap_set_same {all : List ι} {i : Nat} {a b : ι} (here : all[i]? = some a) {has : ι → List α}
    (same : has b = has a) : (all.set i b).flatMap has = all.flatMap has := by
  obtain ⟨inside, rfl⟩ := List.getElem?_eq_some_iff.mp here
  have images : (all.set i b).map has = all.map has := by
    rw [List.map_set, same, ← List.getElem_map has (h := by simpa using inside), List.set_getElem_self]
  rw [List.flatMap_def, List.flatMap_def, images]

end Lib
