import CodeAtlas.Context.Budget
import CodeAtlas.Proofs.Number.Order
import Mathlib.Algebra.Order.Floor.Ring
import Mathlib.Data.List.TakeDrop
import Mathlib.Data.Rat.Floor
import Mathlib.Tactic.FieldSimp
import Mathlib.Tactic.Linarith

/-!
# Pruning a context to its budget

What is left of a context is a prefix of each section. Its estimate is that of its own text, and it
is within the budget unless nothing that can go is left.

The entries of a context go in one fixed order, so that a context is told by how many of them are
gone. Each that goes makes the text shorter, headings and separators counted. Pruning stops at the
first context within the budget.

## Main results

`Bundle.pruned_ok` and `Tokens.ofLength_eq_ceil`.
`Bundle.pruned_least`: which context a budget leaves, that pruning it again changes nothing, and
that a larger budget leaves at least as much of every section.

## Proof strategy

`without_succ` lets `shrink?` and the count of what is gone follow each other, and one induction on
the rounds finds the count. Lengths are compared through `extent`, the length with a separator
behind every block: it adds up over the blocks, and so only the block of one section matters.
-/

namespace CodeAtlas

/-! ### Estimates -/

namespace Tokens

theorem estimate_whole (text : String) {charsPerToken : ℕ} (positive : 0 < charsPerToken) :
    estimate text (.whole charsPerToken) = .ok (ofLength text.length charsPerToken) := by
  simp only [estimate]
  split
  next nothing =>
    have none_ : text.length = 0 := by simpa using nothing
    simp [none_, ofLength]
  · split
    next low =>
      have low : (charsPerToken : ℤ) ≤ 0 := Number.Scalar.whole_le_whole.mp low
      omega
    · rfl

/-- The estimate is the quotient rounded up, unless the ratio is so large that the quotient is zero
as a floating-point number. -/
theorem ofLength_eq_ceil {length charsPerToken : ℕ} (positive : 0 < charsPerToken)
    (small : charsPerToken < Number.twoPow 1075 * length) :
    (ofLength length charsPerToken : ℤ) = ⌈(length / charsPerToken : ℚ)⌉ := by
  rw [ofLength, if_neg (by omega), eq_comm, Int.ceil_eq_iff]
  -- The quotient is the least whole number whose multiple reaches the length.
  have divided := Nat.div_add_mod (length + charsPerToken - 1) charsPerToken
  have rest := Nat.mod_lt (length + charsPerToken - 1) positive
  generalize (length + charsPerToken - 1) / charsPerToken = q at divided ⊢
  have reached : length ≤ charsPerToken * q := by omega
  have least : charsPerToken * q < length + charsPerToken := by omega
  have positive : (0 : ℚ) < charsPerToken := by exact_mod_cast positive
  have reached : (length : ℚ) ≤ charsPerToken * q := by exact_mod_cast reached
  have least : (charsPerToken * q : ℚ) < length + charsPerToken := by exact_mod_cast least
  constructor
  · rw [lt_div_iff₀ positive]
    push_cast
    linarith
  · rw [div_le_iff₀ positive]
    push_cast
    linarith

end Tokens

/-! ### Entries that go -/

namespace Bundle

/-- A context with entries taken from the ends of its sections. -/
structure Trimmed {κ : Type} (b smaller : Bundle κ) : Prop where
  currentFile : smaller.currentFile = b.currentFile
  project : smaller.project = b.project
  degraded : smaller.degraded = b.degraded
  similarCode : smaller.similarCode <+: b.similarCode
  relatedFiles : smaller.relatedFiles <+: b.relatedFiles
  dependencies : smaller.dependencies <+: b.dependencies

theorem Trimmed.refl {κ : Type} (b : Bundle κ) (n : ℤ) : Trimmed b { b with totalTokens := n } where
  currentFile := rfl
  project := rfl
  degraded := rfl
  similarCode := List.prefix_rfl
  relatedFiles := List.prefix_rfl
  dependencies := List.prefix_rfl

theorem Trimmed.trans {κ : Type} {b smaller smallest : Bundle κ} (first : Trimmed b smaller)
    (second : Trimmed smaller smallest) : Trimmed b smallest where
  currentFile := second.currentFile.trans first.currentFile
  project := second.project.trans first.project
  degraded := second.degraded.trans first.degraded
  similarCode := second.similarCode.trans first.similarCode
  relatedFiles := second.relatedFiles.trans first.relatedFiles
  dependencies := second.dependencies.trans first.dependencies

/-- Taking the entry that goes first trims a context. -/
theorem trimmed_shrink {κ : Type} {b smaller : Bundle κ} (went : b.shrink? = some smaller) :
    Trimmed b smaller := by
  simp only [shrink?] at went
  split at went
  · cases went
    exact { Trimmed.refl b b.totalTokens with similarCode := List.dropLast_prefix _ }
  · split at went
    · cases went
      exact { Trimmed.refl b b.totalTokens with relatedFiles := List.dropLast_prefix _ }
    · split at went
      · cases went
        exact { Trimmed.refl b b.totalTokens with dependencies := List.dropLast_prefix _ }
      · cases went

theorem empty_of_shrink {κ : Type} {b : Bundle κ} (stuck : b.shrink? = none) :
    b.similarCode = [] ∧ b.relatedFiles = [] ∧ b.dependencies = [] := by
  simp only [shrink?] at stuck
  split at stuck
  · cases stuck
  next similar =>
    split at stuck
    · cases stuck
    next related =>
      split at stuck
      · cases stuck
      next dependencies =>
        simp only [Bool.not_eq_true', Bool.not_eq_false, List.isEmpty_iff]
          at similar related dependencies
        exact ⟨similar, related, dependencies⟩

/-- The text does not tell the estimate. -/
theorem format_estimated (b : Bundle Float) (n : ℤ) :
    { b with totalTokens := n }.format = b.format :=
  rfl

/-- Pruning always comes to an end: with the estimate of what is left, which is within the budget
unless nothing that can go is left. -/
theorem pruned_ok (budget : ℕ) {charsPerToken : ℕ} (positive : 0 < charsPerToken)
    (b : Bundle Float) : ∃ out, b.pruned (.whole budget) (.whole charsPerToken) = .ok out ∧
      Trimmed b out ∧
      out.totalTokens = Tokens.ofLength out.format.length charsPerToken ∧
      (out.totalTokens ≤ budget ∨
        out.similarCode = [] ∧ out.relatedFiles = [] ∧ out.dependencies = []) := by
  have estimate (b : Bundle Float) : b.tokens (.whole charsPerToken) =
      .ok (Tokens.ofLength b.format.length charsPerToken) := Tokens.estimate_whole _ positive
  -- A round ends with what is there, or goes on with one entry less.
  fun_induction Bundle.pruned (.whole budget) (.whole charsPerToken) b with
  | case1 b fault failed =>
    rw [estimate] at failed
    cases failed
  | case2 b n estimated fits =>
    rw [estimate, Except.ok.injEq] at estimated
    refine ⟨_, rfl, .refl b n, ?_, .inl ?_⟩
    · rw [format_estimated, estimated]
    · rw [Bool.not_eq_true', decide_eq_false_iff_not, Number.Scalar.whole_lt_whole] at fits
      exact Int.not_lt.mp fits
  | case3 b n estimated fits stuck =>
    rw [estimate, Except.ok.injEq] at estimated
    have nothing := empty_of_shrink stuck
    refine ⟨_, rfl, .refl b n, ?_, .inr nothing⟩
    rw [format_estimated, estimated]
  | case4 b n estimated exceeds smaller went less ih =>
    obtain ⟨out, done, trimmed, rest⟩ := ih
    exact ⟨out, done, (trimmed_shrink went).trans trimmed, rest⟩

end Bundle

/-! ## The least pruning -/

namespace Bundle

/-! ### Lengths -/

/-- The length of blocks with a separator behind each. -/
def extent (blocks : List String) : ℕ :=
  (blocks.map fun block => block.length + 2).sum

theorem extent_append (blocks blocks' : List String) :
    extent (blocks ++ blocks') = extent blocks + extent blocks' := by
  simp [extent]

/-- Lines put together with something between them. -/
theorem length_intercalate (between : String) (line : String) (lines : List String) :
    (between.intercalate (line :: lines)).length =
      line.length + (lines.map fun l => between.length + l.length).sum := by
  -- A separator is counted with the line behind it, so the induction is on the lines but the first.
  induction lines generalizing line with
  | nil => simp
  | cons next rest ih =>
    rw [String.intercalate_cons_cons, String.length_append, String.length_append, ih]
    simp only [List.map_cons, List.sum_cons]
    omega

/-- The last separator is not in the text. -/
theorem length_format (b : Bundle Float) : b.format.length = extent b.blocks - 2 := by
  rw [format]
  cases b.blocks with
  | nil => rfl
  | cons first rest =>
    have flipped : (fun l : String => "\n\n".length + l.length) = fun l => l.length + 2 :=
      funext fun l => Nat.add_comm _ _
    rw [length_intercalate, flipped, extent, List.map_cons, List.sum_cons]
    omega

theorem extent_block (label : String) {lines : List String} (some_ : lines ≠ []) :
    extent (block label lines) = label.length + (lines.map fun l => 1 + l.length).sum + 2 := by
  have filled : lines.isEmpty = false := by simpa using some_
  rw [block, filled, if_neg Bool.false_ne_true, joinLines, extent, List.map_singleton,
    List.sum_singleton, length_intercalate]
  rfl

/-- Lines more make a block longer, and it is not an empty one. -/
theorem extent_block_append (label : String) (kept : List String) {more : List String}
    (some_ : more ≠ []) : extent (block label kept) < extent (block label (kept ++ more)) ∧
      2 < extent (block label (kept ++ more)) := by
  have gone : 0 < (more.map fun l => 1 + l.length).sum := by
    obtain ⟨line, rest, rfl⟩ := List.exists_cons_of_ne_nil some_
    rw [List.map_cons, List.sum_cons]
    omega
  rw [extent_block label (List.append_ne_nil_of_right_ne_nil kept some_), List.map_append,
    List.sum_append_nat]
  by_cases empty : kept = []
  · -- The heading comes with the first line.
    have nothing : extent (block label kept) = 0 := by rw [empty]; rfl
    omega
  · rw [extent_block label empty]
    omega

/-- So does one item more, each having lines. -/
theorem extent_block_dropLast {α : Type} (label : String) (lines : α → List String)
    (some_ : ∀ item, lines item ≠ []) {items : List α} (filled : items ≠ []) :
    extent (block label (items.dropLast.flatMap lines)) <
        extent (block label (items.flatMap lines)) ∧
      2 < extent (block label (items.flatMap lines)) := by
  have whole : items.flatMap lines =
      items.dropLast.flatMap lines ++ lines (items.getLast filled) := by
    rw [← List.flatMap_singleton lines, ← List.flatMap_append, List.dropLast_append_getLast]
  rw [whole]
  exact extent_block_append label _ (some_ _)

/-! ### What goes, one entry after another -/

variable {κ : Type}

/-- The last entry of the first section that has any goes. -/
inductive Sheds : Bundle κ → Bundle κ → Prop
  | similarCode {b : Bundle κ} (some_ : b.similarCode ≠ []) :
      Sheds b { b with similarCode := b.similarCode.dropLast }
  | relatedFiles {b : Bundle κ} (none_ : b.similarCode = []) (some_ : b.relatedFiles ≠ []) :
      Sheds b { b with relatedFiles := b.relatedFiles.dropLast }
  | dependencies {b : Bundle κ} (none_ : b.similarCode = []) (none_' : b.relatedFiles = [])
      (some_ : b.dependencies ≠ []) : Sheds b { b with dependencies := b.dependencies.dropLast }

/-- With `n` entries gone: from the end of similar code, then of related files, then of
dependencies. -/
def without (b : Bundle κ) (n : ℕ) : Bundle κ :=
  let fromRelated := n - b.similarCode.length
  let fromDependencies := fromRelated - b.relatedFiles.length
  { b with
    similarCode := b.similarCode.take (b.similarCode.length - n)
    relatedFiles := b.relatedFiles.take (b.relatedFiles.length - fromRelated)
    dependencies := b.dependencies.take (b.dependencies.length - fromDependencies) }

theorem sheds_of_shrink {b smaller : Bundle κ} (went : b.shrink? = some smaller) :
    Sheds b smaller := by
  simp only [shrink?] at went
  split at went
  next some_ =>
    cases went
    exact .similarCode (by simpa using some_)
  next none_ =>
    have none_ : b.similarCode = [] := by simpa using none_
    split at went
    next some_ =>
      cases went
      exact .relatedFiles none_ (by simpa using some_)
    next none_' =>
      have none_' : b.relatedFiles = [] := by simpa using none_'
      split at went
      next some_ =>
        cases went
        exact .dependencies none_ none_' (by simpa using some_)
      next => cases went

@[simp]
theorem without_zero (b : Bundle κ) : b.without 0 = b := by
  simp [without]

theorem take_dropLast {α : Type} (items : List α) (n : ℕ) :
    items.dropLast.take (items.dropLast.length - n) = items.take (items.length - (n + 1)) := by
  rw [List.dropLast_eq_take, List.take_take, List.length_take]
  congr 1
  omega

/-- What the next entry leaves is what is left with one entry more gone. -/
theorem without_succ {b smaller : Bundle κ} (went : Sheds b smaller) (n : ℕ) :
    smaller.without n = b.without (n + 1) := by
  -- The section that sheds is one shorter, and what is gone beyond it is counted from there.
  cases went with
  | similarCode some_ =>
    have positive := List.length_pos_iff.mpr some_
    have rest : n - b.similarCode.dropLast.length = n + 1 - b.similarCode.length := by
      rw [List.length_dropLast]
      omega
    simp only [without, take_dropLast, rest]
  | relatedFiles none_ some_ =>
    have positive := List.length_pos_iff.mpr some_
    have rest : n - b.relatedFiles.dropLast.length = n + 1 - b.relatedFiles.length := by
      rw [List.length_dropLast]
      omega
    simp only [without, none_, List.length_nil, Nat.sub_zero, take_dropLast, rest, List.take_nil]
  | dependencies none_ none_' some_ =>
    simp only [without, none_, none_', List.length_nil, Nat.sub_zero, take_dropLast,
      List.take_nil]

theorem exists_shrink {b : Bundle κ} (some_ : 0 < b.entryCount) :
    ∃ smaller, b.shrink? = some smaller := by
  rw [← Option.ne_none_iff_exists']
  intro stuck
  obtain ⟨similar, related, dependencies⟩ := empty_of_shrink stuck
  simp [entryCount, similar, related, dependencies] at some_

/-- As long as there are entries, one goes. -/
theorem sheds_without {b : Bundle κ} {n : ℕ} (less : n < b.entryCount) :
    Sheds (b.without n) (b.without (n + 1)) := by
  obtain ⟨smaller, went⟩ := exists_shrink (Nat.zero_lt_of_lt less)
  have first := sheds_of_shrink went
  -- The step is taken on what the first entry leaves, where one less is gone.
  induction n generalizing b smaller with
  | zero =>
    rw [← without_succ first, without_zero, without_zero]
    exact first
  | succ n ih =>
    have count := entryCount_of_shrink? went
    obtain ⟨smallest, went'⟩ := exists_shrink (b := smaller) (by omega)
    rw [← without_succ first, ← without_succ first]
    exact ih (by omega) smallest went' (sheds_of_shrink went')

/-- In the end nothing is left that can go. -/
theorem without_entryCount (b : Bundle κ) :
    (b.without b.entryCount).similarCode = [] ∧ (b.without b.entryCount).relatedFiles = [] ∧
      (b.without b.entryCount).dependencies = [] := by
  simp only [without, entryCount, List.take_eq_nil_iff]
  omega

/-- What more gone leaves begins what less gone leaves. -/
theorem trimmed_without (b : Bundle κ) {m n : ℕ} (le : m ≤ n) :
    Trimmed (b.without m) (b.without n) where
  currentFile := rfl
  project := rfl
  degraded := rfl
  similarCode := List.take_prefix_take_left (by omega)
  relatedFiles := List.take_prefix_take_left (by omega)
  dependencies := List.take_prefix_take_left (by omega)

/-- Every entry that goes takes some of the text with it. -/
theorem length_format_of_sheds {b smaller : Bundle Float} (went : Sheds b smaller) :
    smaller.format.length < b.format.length := by
  have less : extent smaller.blocks < extent b.blocks ∧ 2 < extent b.blocks := by
    -- Of the blocks only that of one section is another.
    cases went with
    | similarCode some_ =>
      have shorter := extent_block_dropLast "[Similar Code]:" similarLines
        (fun _ => List.cons_ne_nil _ _) some_
      simp only [blocks, extent_append]
      omega
    | relatedFiles none_ some_ =>
      have shorter := extent_block_dropLast "[Related Files]:" ([relatedLine ·])
        (fun _ => List.cons_ne_nil _ _) some_
      simp only [← List.map_eq_flatMap] at shorter
      simp only [blocks, extent_append]
      omega
    | dependencies none_ none_' some_ =>
      have shorter := extent_block_dropLast "[Dependencies]:" ([dependencyLine ·])
        (fun _ => List.cons_ne_nil _ _) some_
      simp only [← List.map_eq_flatMap] at shorter
      simp only [blocks, extent_append]
      omega
  rw [length_format, length_format]
  omega

/-! ### The first context within the budget -/

/-- The text of a context is within a budget. -/
def Fits (budget : ℤ) (charsPerToken : ℕ) (b : Bundle Float) : Prop :=
  ∃ n : ℕ, b.tokens (.whole charsPerToken) = .ok n ∧ (n : ℤ) ≤ budget

/-- What a budget leaves of a context: `gone` entries are gone, and no fewer would have done. -/
structure LeastPruning (budget : ℤ) (charsPerToken : ℕ) (b out : Bundle Float) (gone : ℕ) :
    Prop where
  le : gone ≤ b.entryCount
  left : out = { b.without gone with totalTokens := out.totalTokens }
  estimated : ∃ n : ℕ, out.tokens (.whole charsPerToken) = .ok n ∧ out.totalTokens = n
  exceeds : ∀ i < gone, ¬ Fits budget charsPerToken (b.without i)
  fits : Fits budget charsPerToken (b.without gone) ∨ gone = b.entryCount

section Budget

variable {budget : ℤ} {charsPerToken : ℕ}

theorem fits_iff {b : Bundle Float} {n : ℕ} (estimated : b.tokens (.whole charsPerToken) = .ok n) :
    Fits budget charsPerToken b ↔ (n : ℤ) ≤ budget := by
  simp [Fits, estimated]

theorem LeastPruning.stop {b : Bundle Float} {n : ℕ}
    (estimated : b.tokens (.whole charsPerToken) = .ok n)
    (fits : Fits budget charsPerToken b ∨ b.entryCount = 0) :
    LeastPruning budget charsPerToken b { b with totalTokens := n } 0 where
  le := Nat.zero_le _
  left := by rw [without_zero]
  estimated := ⟨n, estimated, rfl⟩
  exceeds _ less := absurd less (Nat.not_lt_zero _)
  fits := by rwa [without_zero, eq_comm (a := 0)]

theorem LeastPruning.next {b smaller out : Bundle Float} {gone : ℕ}
    (exceeds : ¬ Fits budget charsPerToken b) (went : b.shrink? = some smaller)
    (pruning : LeastPruning budget charsPerToken smaller out gone) :
    LeastPruning budget charsPerToken b out (gone + 1) where
  le := by
    have count := entryCount_of_shrink? went
    have le := pruning.le
    omega
  left := by rw [← without_succ (sheds_of_shrink went)]; exact pruning.left
  estimated := pruning.estimated
  exceeds i less := by
    cases i with
    | zero => rwa [without_zero]
    | succ i =>
      rw [← without_succ (sheds_of_shrink went)]
      exact pruning.exceeds i (Nat.lt_of_succ_lt_succ less)
  fits := by
    rw [← without_succ (sheds_of_shrink went), ← entryCount_of_shrink? went,
      Nat.add_right_cancel_iff]
    exact pruning.fits

/-- Pruning ends, and leaves the first context of the row within the budget. -/
theorem exists_leastPruning (budget : ℤ) (positive : 1 ≤ charsPerToken) (b : Bundle Float) :
    ∃ out gone, b.pruned (.whole budget) (.whole charsPerToken) = .ok out ∧
      LeastPruning budget charsPerToken b out gone := by
  have estimate (b : Bundle Float) : b.tokens (.whole charsPerToken) =
      .ok (Tokens.ofLength b.format.length charsPerToken) := Tokens.estimate_whole _ positive
  fun_induction Bundle.pruned (.whole budget) (.whole charsPerToken) b with
  | case1 b fault failed =>
    -- There always is an estimate.
    rw [estimate] at failed
    cases failed
  | case2 b n estimated fits =>
    rw [Bool.not_eq_true', decide_eq_false_iff_not, Number.Scalar.whole_lt_whole, Int.not_lt,
      ← fits_iff estimated] at fits
    exact ⟨_, 0, rfl, .stop estimated (.inl fits)⟩
  | case3 b n estimated exceeds stuck =>
    obtain ⟨similar, related, dependencies⟩ := empty_of_shrink stuck
    refine ⟨_, 0, rfl, .stop estimated (.inr ?_)⟩
    simp [entryCount, similar, related, dependencies]
  | case4 b n estimated exceeds smaller went less ih =>
    rw [Bool.not_eq_true', decide_eq_false_iff_not, Number.Scalar.whole_lt_whole, Int.not_lt,
      ← fits_iff estimated] at exceeds
    obtain ⟨out, gone, done, pruning⟩ := ih
    exact ⟨out, gone + 1, done, pruning.next exceeds went⟩

/-- What a budget has left is left as it is. -/
theorem LeastPruning.pruned (positive : 1 ≤ charsPerToken) {b out : Bundle Float} {gone : ℕ}
    (pruning : LeastPruning budget charsPerToken b out gone) :
    out.pruned (.whole budget) (.whole charsPerToken) = .ok out := by
  obtain ⟨again, gone', done, pruning'⟩ := exists_leastPruning budget positive out
  -- It is within the budget already, or nothing is left that could go.
  have still : gone' = 0 := by
    rcases pruning.fits with fits | drained
    · by_contra more
      refine pruning'.exceeds 0 (Nat.pos_of_ne_zero more) ?_
      rw [without_zero, pruning.left]
      exact fits
    · obtain ⟨similar, related, dependencies⟩ := without_entryCount b
      have nothing : (b.without b.entryCount).entryCount = 0 := by
        rw [entryCount, similar, related, dependencies]
        rfl
      have le := pruning'.le
      rw [pruning.left, drained] at le
      exact Nat.le_zero.mp (le.trans nothing.le)
  have same : again = { out with totalTokens := again.totalTokens } := by
    have left := pruning'.left
    rwa [still, without_zero] at left
  obtain ⟨n, estimated, total⟩ := pruning.estimated
  obtain ⟨n', estimated', total'⟩ := pruning'.estimated
  have alike : again.tokens (.whole charsPerToken) = out.tokens (.whole charsPerToken) := by
    rw [same]
    rfl
  rw [estimated, estimated', Except.ok.injEq] at alike
  rw [done, same, total', alike, ← total]

theorem LeastPruning.le_of_le {high : ℤ} (le : budget ≤ high) {b out out' : Bundle Float}
    {gone gone' : ℕ} (pruning : LeastPruning budget charsPerToken b out gone)
    (pruning' : LeastPruning high charsPerToken b out' gone') : gone' ≤ gone := by
  by_contra more
  rcases pruning.fits with ⟨n, estimated, fits⟩ | drained
  · exact pruning'.exceeds gone (Nat.lt_of_not_le more) ⟨n, estimated, fits.trans le⟩
  · exact more (drained ▸ pruning'.le)

end Budget

theorem LeastPruning.trimmed {budget : ℤ} {charsPerToken : ℕ} {b out : Bundle Float} {gone : ℕ}
    (pruning : LeastPruning budget charsPerToken b out gone) : Trimmed b out := by
  rw [pruning.left]
  exact (without_zero b ▸ trimmed_without b (Nat.zero_le gone)).trans (.refl _ _)

/-- Which context a budget leaves. Of the contexts with more and more entries gone, each with a
shorter text than the one before, it is the first within the budget, or the last of them. With the
same budget it stays as it is; a larger budget leaves what it leaves and perhaps more. -/
theorem pruned_least (b : Bundle Float) {charsPerToken : ℕ} (positive : 1 ≤ charsPerToken) :
    b.without 0 = b ∧
    (∀ i < b.entryCount, Sheds (b.without i) (b.without (i + 1)) ∧
      (b.without (i + 1)).format.length < (b.without i).format.length) ∧
    ((b.without b.entryCount).similarCode = [] ∧ (b.without b.entryCount).relatedFiles = [] ∧
      (b.without b.entryCount).dependencies = []) ∧
    ∀ budget : ℤ, ∃ out gone, b.pruned (.whole budget) (.whole charsPerToken) = .ok out ∧
      LeastPruning budget charsPerToken b out gone ∧ Trimmed b out ∧
      out.pruned (.whole budget) (.whole charsPerToken) = .ok out ∧
      ∀ high ≥ budget, ∃ out', b.pruned (.whole high) (.whole charsPerToken) = .ok out' ∧
        Trimmed out' out := by
  refine ⟨without_zero b, fun i less => ?_, without_entryCount b, fun budget => ?_⟩
  · have went := sheds_without less
    exact ⟨went, length_format_of_sheds went⟩
  · obtain ⟨out, gone, done, pruning⟩ := exists_leastPruning budget positive b
    refine ⟨out, gone, done, pruning, pruning.trimmed, pruning.pruned positive, ?_⟩
    intro high le
    obtain ⟨out', gone', done', pruning'⟩ := exists_leastPruning high positive b
    refine ⟨out', done', ?_⟩
    have fewer := pruning.le_of_le le pruning'
    rw [pruning.left, pruning'.left]
    exact (Trimmed.refl _ _).trans ((trimmed_without b fewer).trans (.refl _ _))

/-- Of two related files a budget of twelve tokens leaves the first. -/
theorem pruned_least_first :
    let file (path : String) : RelatedFile :=
      { path := "/w/" ++ path, relativePath := path, direction := .importsFrom, symbols := ["f"] }
    let b : Bundle Float := { relatedFiles := [file "a.py", file "b.py"] }
    1 ≤ 4 ∧ ∃ out, b.pruned (.whole 12) (.whole 4) = .ok out ∧ out.relatedFiles = [file "a.py"] ∧
      out.totalTokens = 11 := by
  intro file b
  have estimate (b : Bundle Float) : b.tokens (.whole 4) =
      .ok (Tokens.ofLength b.format.length 4) := Tokens.estimate_whole _ (by decide)
  have two : b.tokens (.whole 4) = .ok 18 := by
    rw [estimate]
    exact congrArg Except.ok (by decide +kernel)
  have one : (b.without 1).tokens (.whole 4) = .ok 11 := by
    rw [estimate]
    exact congrArg Except.ok (by decide +kernel)
  obtain ⟨-, -, -, budgets⟩ := pruned_least b (show 1 ≤ 4 by decide)
  obtain ⟨out, gone, done, pruning, -⟩ := budgets 12
  have le : gone ≤ 2 := pruning.le
  interval_cases gone
  · -- The two are not within the budget.
    rcases pruning.fits with fits | drained
    · rw [without_zero, fits_iff two] at fits
      exact absurd fits (by decide)
    · cases drained
  · refine ⟨by decide, out, done, by rw [pruning.left]; rfl, ?_⟩
    obtain ⟨n, estimated, total⟩ := pruning.estimated
    rw [pruning.left] at estimated
    cases one.symm.trans estimated
    exact total
  · -- The first alone is.
    exact absurd ((fits_iff one).mpr (by decide)) (pruning.exceeds 1 (by decide))

end Bundle

end CodeAtlas
