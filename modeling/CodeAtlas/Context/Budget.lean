import CodeAtlas.Context.Format
import CodeAtlas.Tokens

/-!
Pruning a context to a budget of tokens. Entries go one at a time, the last first: similar code,
then related files, then dependencies. The current file and the project always stay.
-/

namespace CodeAtlas.Bundle

/-- The number of entries that can go. -/
def entryCount (b : Bundle κ) : Nat :=
  b.similarCode.length + b.relatedFiles.length + b.dependencies.length

/-- Without the entry that goes first; `none` when nothing can go. -/
def shrink? (b : Bundle κ) : Option (Bundle κ) :=
  if !b.similarCode.isEmpty then some { b with similarCode := b.similarCode.dropLast }
  else if !b.relatedFiles.isEmpty then some { b with relatedFiles := b.relatedFiles.dropLast }
  else if !b.dependencies.isEmpty then some { b with dependencies := b.dependencies.dropLast }
  else none

/-- One entry goes at a time. -/
theorem entryCount_of_shrink? {b smaller : Bundle κ} (h : b.shrink? = some smaller) :
    smaller.entryCount + 1 = b.entryCount := by
  have shorter {α : Type} {l : List α} (h : ¬ (!l.isEmpty) = false) :
      l.dropLast.length + 1 = l.length := by
    cases l <;> simp_all
  unfold shrink? at h
  split at h
  · cases h
    have := shorter (l := b.similarCode) (by simp_all)
    simp only [entryCount]
    omega
  · split at h
    · cases h
      have := shorter (l := b.relatedFiles) (by simp_all)
      simp only [entryCount]
      omega
    · split at h
      · cases h
        have := shorter (l := b.dependencies) (by simp_all)
        simp only [entryCount]
        omega
      · cases h

/-- The estimate for the text of a context. -/
def tokens (charsPerToken : Number.Scalar) (b : Bundle Float) : Except Tokens.RatioFault Nat :=
  Tokens.estimate b.format charsPerToken

/-- The context with as few entries gone as the budget allows, and the estimate for it. -/
def pruned (maxTokens charsPerToken : Number.Scalar) (b : Bundle Float) :
    Except Tokens.RatioFault (Bundle Float) :=
  match b.tokens charsPerToken with
  | .error fault => .error fault
  | .ok n =>
    if !decide (maxTokens < .whole n) then .ok { b with totalTokens := n }
    else
      match h : b.shrink? with
      | none => .ok { b with totalTokens := n }
      | some smaller =>
        have := entryCount_of_shrink? h
        pruned maxTokens charsPerToken smaller
termination_by b.entryCount

end CodeAtlas.Bundle
