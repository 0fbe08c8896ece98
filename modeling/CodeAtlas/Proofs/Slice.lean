import CodeAtlas.Slice
import Mathlib.Tactic.Common

/-!
# Cutting a list into groups

Groups of some size, put together again, are the list they were cut from, and every group is the
start of what was left when it was cut.

## Main results

`Slice.flatten_groups` and `Slice.take_of_mem_groups`.
-/

namespace CodeAtlas.Slice

variable {α β : Type} {size : Nat}

private theorem flatten_go (positive : 0 < size) : ∀ (fuel : Nat) (items : List α),
    items.length ≤ fuel → (groups.go size fuel items).flatten = items
  | 0, items, enough => by
    rw [List.length_eq_zero_iff.mp (Nat.le_zero.mp enough)]
    rfl
  | fuel + 1, items, enough => by
    cases items with
    | nil => rfl
    | cons x rest =>
      -- A group takes at least one item, so the fuel for the others is enough.
      have shorter : ((x :: rest).drop size).length ≤ fuel := by
        rw [List.length_drop]
        omega
      rw [groups.go, List.isEmpty_cons, if_neg Bool.false_ne_true, List.flatten_cons,
        flatten_go positive fuel _ shorter, List.take_append_drop]

theorem flatten_groups (positive : 0 < size) (items : List α) :
    (groups size items).flatten = items :=
  flatten_go positive items.length items (Nat.le_refl _)

theorem groups_map (size : Nat) (f : α → β) (items : List α) :
    groups size (items.map f) = (groups size items).map (·.map f) := by
  have within : ∀ (fuel : Nat) (items : List α),
      groups.go size fuel (items.map f) = (groups.go size fuel items).map (·.map f) := by
    intro fuel
    induction fuel with
    | zero => exact fun _ => rfl
    | succ fuel ih =>
      intro items
      rw [groups.go, groups.go, List.isEmpty_map, ← List.map_take, ← List.map_drop, ih]
      split <;> rfl
  rw [groups, groups, List.length_map, within]

theorem take_of_mem_groups {items group : List α} (member : group ∈ groups size items) :
    ∃ left, left <:+ items ∧ left ≠ [] ∧ group = left.take size := by
  have within : ∀ (fuel : Nat) (items : List α), group ∈ groups.go size fuel items →
      ∃ left, left <:+ items ∧ left ≠ [] ∧ group = left.take size := by
    intro fuel
    induction fuel with
    | zero => exact fun _ member => absurd member List.not_mem_nil
    | succ fuel ih =>
      intro items member
      rw [groups.go] at member
      split at member
      · exact absurd member List.not_mem_nil
      next some_ =>
        rcases List.mem_cons.mp member with rfl | later
        · exact ⟨items, List.suffix_rfl, fun none_ => some_ (List.isEmpty_iff.mpr none_), rfl⟩
        · obtain ⟨left, suffix, rest⟩ := ih _ later
          exact ⟨left, suffix.trans (List.drop_suffix size items), rest⟩
  exact within _ _ member

theorem ne_nil_of_mem_groups (positive : 0 < size) {items group : List α}
    (member : group ∈ groups size items) : group ≠ [] := by
  obtain ⟨left, -, some_, rfl⟩ := take_of_mem_groups member
  intro none_
  exact (List.take_eq_nil_iff.mp none_).elim (Nat.ne_of_gt positive) some_

theorem mem_groups {items : List α} {x : α} (member : x ∈ (groups size items).flatten) :
    x ∈ items := by
  obtain ⟨group, among, inside⟩ := List.mem_flatten.mp member
  obtain ⟨left, suffix, -, rfl⟩ := take_of_mem_groups among
  exact suffix.subset (List.mem_of_mem_take inside)

end CodeAtlas.Slice
