import CodeAtlas.Outline.Basic
import Mathlib.Data.List.Induction
import Mathlib.Data.List.Nodup

/-!
# Names, each once

What is left of some names when each is kept where it occurs first: the same names, in the order of
their first occurrences.

## Main results

`firstOccurrences_distinct`: that is what `distinct` keeps.
-/

namespace CodeAtlas

variable {names : List String}

/-- The names that occur among `all`, in the order of their first occurrences. -/
structure FirstOccurrences (all kept : List String) : Prop where
  mem : ∀ name, name ∈ kept ↔ name ∈ all
  ordered : kept.Pairwise fun a b => all.idxOf a < all.idxOf b

theorem FirstOccurrences.nodup {all kept : List String} (first : FirstOccurrences all kept) :
    kept.Nodup := by
  refine first.ordered.imp fun less same => ?_
  rw [same] at less
  exact Nat.lt_irrefl _ less

theorem distinct_concat (names : List String) (name : String) :
    distinct (names ++ [name]) =
      if name ∈ distinct names then distinct names else distinct names ++ [name] := by
  simp [distinct, List.foldl_append]

/-- One more name at the end is kept only if it is new, and stands behind all others then. -/
theorem firstOccurrences_distinct (names : List String) :
    FirstOccurrences names (distinct names) := by
  induction names using List.reverseRecOn with
  | nil => exact ⟨fun _ => Iff.rfl, .nil⟩
  | append_singleton names name ih =>
    -- The first occurrences among the names before stay where they are.
    have before : (distinct names).Pairwise fun a b =>
        (names ++ [name]).idxOf a < (names ++ [name]).idxOf b :=
      ih.ordered.imp_of_mem fun {a b} mem mem' less => by
        rwa [List.idxOf_append_of_mem ((ih.mem a).mp mem),
          List.idxOf_append_of_mem ((ih.mem b).mp mem')]
    rw [distinct_concat]
    split
    next known =>
      refine ⟨fun other => ?_, before⟩
      rw [List.mem_append, List.mem_singleton, ih.mem]
      exact ⟨.inl, fun mem => mem.elim id fun same => same ▸ (ih.mem name).mp known⟩
    next unknown =>
      refine ⟨fun other => ?_, List.pairwise_append.mpr ⟨before, List.pairwise_singleton _ _, ?_⟩⟩
      · rw [List.mem_append, List.mem_append, ih.mem]
      · intro a mem b new
        obtain rfl := List.mem_singleton.mp new
        have mem := (ih.mem a).mp mem
        rw [List.idxOf_append_of_mem mem, List.idxOf_append_of_notMem (mt (ih.mem b).mpr unknown)]
        exact Nat.lt_of_lt_of_le (List.idxOf_lt_length_of_mem mem) (Nat.le_add_right _ _)

theorem nodup_distinct (names : List String) : (distinct names).Nodup :=
  (firstOccurrences_distinct names).nodup

@[simp] theorem mem_distinct {name : String} : name ∈ distinct names ↔ name ∈ names :=
  (firstOccurrences_distinct names).mem name

end CodeAtlas
