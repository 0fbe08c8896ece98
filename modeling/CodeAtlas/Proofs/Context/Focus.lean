import CodeAtlas.Context.Focus
import CodeAtlas.Proofs.Number.Order
import Mathlib.Algebra.Order.Ring.Defs
import Mathlib.Algebra.Order.Ring.Rat
import Mathlib.Data.Bool.Basic
import Mathlib.Data.List.Basic
import Mathlib.Data.List.FinRange

/-!
# A context seen through a focus

Looking at a context with a focus weighs similar code anew and orders it, and leaves test files out
unless they are asked for. All that is left was there before.

Similar code is ordered by relevance, test files may come first, and test files may be left out. An
order is said by the positions at which the entries stood before: each position that is shown is
there once, the higher score first, and equal scores stay as they stood. The scores are numbers that
are computed with exactly.

## Main results

`Bundle.pairwise_byRelevance` and `Bundle.seen_focused`.
`exists_ranking`: a stable sort, said by positions. `Bundle.focused_ranks`: what a focus makes of a
context, and that looking a second time changes nothing.
-/

namespace CodeAtlas

/-! ## What is seen -/

open Number (IsNumber)

/-! ### Weights -/

theorem SimilarEntry.isNumber_weighed {focus : FocusArea} {boost : Float} (boosts : 1 ≤ boost)
    {e : SimilarEntry Float} (number : IsNumber e.similarity) :
    IsNumber (e.weighed focus boost).relevance := by
  have positive : 0 < boost := by
    have one : IsNumber 1 := Number.isNumber_of_isFinite rfl
    have zero : IsNumber 0 := Number.isNumber_of_isFinite rfl
    obtain ⟨_, number'⟩ := Number.isNumber_of_le boosts
    rw [one.le_iff number'] at boosts
    rw [zero.lt_iff number']
    exact lt_of_lt_of_le (by decide) boosts
  simp only [weighed]
  split
  · simp only [boosted]
    split
    next above => exact Number.isNumber_mul_of_pos above positive
    · exact number
  · exact number

namespace Bundle

/-- Entries whose relevances are numbers stand in the order of relevance. -/
theorem pairwise_byRelevance {entries : List (SimilarEntry Float)}
    (numbers : ∀ e ∈ entries, IsNumber e.relevance) :
    (byRelevance entries).Pairwise fun a b => b.relevance ≤ a.relevance := by
  have comparable : entries.all (fun e => decide (e.relevance ≤ e.relevance)) = true :=
    List.all_eq_true.mpr fun e member => decide_eq_true (numbers e member).le_refl
  rw [byRelevance, if_pos comparable]
  -- Only on numbers is the comparison one of a total order.
  let before (a b : { e : SimilarEntry Float // IsNumber e.relevance }) : Bool :=
    !decide (a.1.relevance < b.1.relevance)
  have before_iff (a b : { e : SimilarEntry Float // IsNumber e.relevance }) :
      before a b = true ↔ b.1.relevance ≤ a.1.relevance := by
    rw [Bool.not_eq_true', decide_eq_false_iff_not, a.2.not_lt_iff b.2]
  have transitive (a b c) (first : before a b = true) (second : before b c = true) :
      before a c = true := by
    rw [before_iff] at first second ⊢
    exact Number.float_le_trans second first
  have total (a b) : (before a b || before b a) = true := by
    rw [Bool.or_eq_true, before_iff, before_iff, b.2.le_iff a.2, a.2.le_iff b.2]
    exact le_total _ _
  have sorted := List.pairwise_mergeSort transitive total (entries.attachWith _ numbers)
  rw [← List.attachWith_map_subtype_val numbers,
    ← List.map_mergeSort (r := before) (f := Subtype.val) fun a _ b _ => rfl, List.pairwise_map]
  exact sorted.imp fun first => (before_iff _ _).mp first

/-- The same entries in another order. -/
theorem byRelevance_perm {entries : List (SimilarEntry Float)}
    (numbers : ∀ e ∈ entries, IsNumber e.relevance) : (byRelevance entries).Perm entries := by
  have comparable : entries.all (fun e => decide (e.relevance ≤ e.relevance)) = true :=
    List.all_eq_true.mpr fun e member => decide_eq_true (numbers e member).le_refl
  rw [byRelevance, if_pos comparable]
  exact List.mergeSort_perm _ _

/-- What a context with these sections looks like through a focus. -/
structure Seen (focus : FocusArea) (includeTests : Bool) (b seen : Bundle Float) : Prop where
  currentFile : seen.currentFile = b.currentFile
  dependencies : seen.dependencies = b.dependencies
  project : seen.project = b.project
  degraded : seen.degraded = b.degraded
  similarCode : ∀ e ∈ seen.similarCode, ∃ e' ∈ b.similarCode,
    e.path = e'.path ∧ e.relativePath = e'.relativePath
  fewerSimilar : seen.similarCode.length ≤ b.similarCode.length
  ordered : seen.similarCode.Pairwise fun a b => b.relevance ≤ a.relevance
  fewerRelated : seen.relatedFiles.length ≤ b.relatedFiles.length
  tests : focus ≠ .testing → includeTests = false →
    (∀ r ∈ seen.relatedFiles, isTestPath r.relativePath = false) ∧
      ∀ e ∈ seen.similarCode, isTestPath e.relativePath = false

theorem seen_focused (focus : FocusArea) (includeTests : Bool) {boost : Float} (boosts : 1 ≤ boost)
    {b : Bundle Float} (numbers : ∀ e ∈ b.similarCode, IsNumber e.similarity) :
    Seen focus includeTests b (b.focused focus includeTests boost) := by
  generalize ranked_ : byRelevance (b.similarCode.map (·.weighed focus boost)) = ranked
  have weighed : ∀ e ∈ b.similarCode.map (·.weighed focus boost), IsNumber e.relevance := by
    intro e member
    obtain ⟨e', found, rfl⟩ := List.mem_map.mp member
    exact SimilarEntry.isNumber_weighed boosts (numbers e' found)
  have perm := byRelevance_perm weighed
  have ordered := pairwise_byRelevance weighed
  rw [ranked_] at perm ordered
  have fewer : ranked.length = b.similarCode.length := perm.length_eq.trans (List.length_map _)
  have from_ : ∀ e ∈ ranked, ∃ e' ∈ b.similarCode, e.path = e'.path ∧
      e.relativePath = e'.relativePath := by
    intro e member
    obtain ⟨e', found, rfl⟩ := List.mem_map.mp (perm.mem_iff.mp member)
    exact ⟨e', found, rfl, rfl⟩
  simp only [focused, ranked_]
  split
  next testing =>
    -- The related files are only moved.
    refine ⟨rfl, rfl, rfl, rfl, from_, fewer.le, ordered, ?_, fun other => ?_⟩
    · exact (List.filter_append_perm _ _).length_eq.le
    · exact absurd (eq_of_beq testing) other
  · split
    next included =>
      refine ⟨rfl, rfl, rfl, rfl, from_, fewer.le, ordered, Nat.le_refl _, fun _ excluded => ?_⟩
      rw [included] at excluded
      cases excluded
    · refine ⟨rfl, rfl, rfl, rfl, fun e member => ?_, ?_, ordered.filter _,
        List.length_filter_le _ _, fun _ _ => ⟨fun r member => ?_, fun e member => ?_⟩⟩
      · exact from_ e (List.mem_filter.mp member).1
      · exact (List.length_filter_le _ _).trans fewer.le
      · simpa using (List.mem_filter.mp member).2
      · simpa using (List.mem_filter.mp member).2

end Bundle

/-! ## The order of what is seen -/

/-! ### Positions in order -/

section Positions

variable {α κ : Type}

/-- The item at one position comes before the one at another: its score is higher, or it is the same
and the item stood before. -/
def Precedes {n : ℕ} [LT κ] (score : Fin n → κ) (i j : Fin n) : Prop :=
  score j < score i ∨ score i = score j ∧ i < j

/-- The positions of the items that are shown, in the order of their scores. -/
structure IsRanking [LT κ] (items : List α) (isShown : α → Bool) (score : α → κ)
    (order : List (Fin items.length)) : Prop where
  perm : order.Perm ((List.finRange items.length).filter fun i => isShown items[i])
  pairwise : order.Pairwise (Precedes fun i => score items[i])

variable [LinearOrder κ] {items : List α} {isShown : α → Bool} {score : α → κ}

theorem Precedes.asymm {n : ℕ} {score : Fin n → κ} {i j : Fin n} (first : Precedes score i j) :
    ¬ Precedes score j i := by
  rintro (less | ⟨same, before⟩) <;> rcases first with less' | ⟨same', before'⟩
  · exact lt_asymm less less'
  · exact less.ne same'
  · exact less'.ne same
  · exact lt_asymm before before'

/-- What precedes is found earlier. -/
theorem IsRanking.idxOf_lt {order : List (Fin items.length)}
    (ranking : IsRanking items isShown score order) {i j : Fin items.length} (member : i ∈ order)
    (member' : j ∈ order) (precedes : Precedes (fun i => score items[i]) i j) :
    order.idxOf i < order.idxOf j := by
  by_contra late
  rcases (Nat.le_of_not_lt late).lt_or_eq with earlier | same
  · have turned := List.pairwise_iff_getElem.mp ranking.pairwise _ _
      (List.idxOf_lt_length_of_mem member') (List.idxOf_lt_length_of_mem member) earlier
    rw [List.getElem_idxOf, List.getElem_idxOf] at turned
    exact precedes.asymm turned
  · obtain rfl := (List.idxOf_inj member').mp same
    exact precedes.asymm precedes

/-- A stable sort, the highest score first, and of it what is shown. -/
theorem exists_ranking (items : List α) (isShown : α → Bool) (score : α → κ) :
    ∃ order, IsRanking items isShown score order ∧
      (items.mergeSort fun a b => !decide (score a < score b)).filter isShown =
        order.map fun i => items[i] := by
  let before (a b : α) : Bool := !decide (score a < score b)
  have before_iff (a b : α) : before a b = true ↔ score b ≤ score a := by
    rw [Bool.not_eq_true', decide_eq_false_iff_not, not_lt]
  have transitive (a b c : α) (first : before a b = true) (second : before b c = true) :
      before a c = true := by
    rw [before_iff] at *
    exact second.trans first
  have total (a b : α) : (before a b || before b a) = true := by
    rw [Bool.or_eq_true, before_iff, before_iff]
    exact le_total _ _
  -- Every item is told its position, and these decide among equals.
  let numbered (i : Fin items.length) : α × ℕ := (items[i], i)
  let order := (List.finRange items.length).mergeSort fun i j =>
    List.zipIdxLE before (numbered i) (numbered j)
  have perm : order.Perm (List.finRange items.length) := List.mergeSort_perm _ _
  have sorted : order.map (fun i => items[i]) = items.mergeSort before := by
    have zipped : (List.finRange items.length).map numbered = items.zipIdx := by
      apply List.ext_getElem <;> simp [numbered]
    have moved : order.map numbered =
        ((List.finRange items.length).map numbered).mergeSort (List.zipIdxLE before) :=
      List.map_mergeSort fun _ _ _ _ => rfl
    rw [← List.mergeSort_zipIdx, ← zipped, ← moved, List.map_map]
    rfl
  have pairwise : order.Pairwise (Precedes fun i => score items[i]) := by
    have placed : order.Pairwise fun i j => List.zipIdxLE before (numbered i) (numbered j) :=
      List.pairwise_mergeSort
        (fun i j k => List.zipIdxLE_trans transitive (numbered i) (numbered j) (numbered k))
        (fun i j => List.zipIdxLE_total total (numbered i) (numbered j)) _
    have apart : order.Nodup := perm.nodup_iff.mpr (List.nodup_finRange _)
    refine (List.pairwise_and_iff.mpr ⟨placed, apart⟩).imp fun {i j} ⟨le, ne⟩ => ?_
    simp only [List.zipIdxLE, numbered] at le
    split at le
    next high =>
      split at le
      next low =>
        have same := le_antisymm ((before_iff _ _).mp low) ((before_iff _ _).mp high)
        exact .inr ⟨same, lt_of_le_of_ne (of_decide_eq_true le) ne⟩
      next lower => exact .inl (lt_of_not_ge fun ge => lower ((before_iff _ _).mpr ge))
    next => cases le
  refine ⟨order.filter fun i => isShown items[i], ⟨perm.filter _, pairwise.filter _⟩, ?_⟩
  rw [← sorted, List.filter_map]
  rfl

theorem filter_eq_map (items : List α) (isShown : α → Bool) :
    items.filter isShown =
      ((List.finRange items.length).filter fun i => isShown items[i]).map fun i => items[i] := by
  calc items.filter isShown
    _ = ((List.finRange items.length).map fun i => items[i]).filter isShown := by simp
    _ = _ := by rw [List.filter_map]; rfl

/-- What is shown, as it stood. -/
theorem ranking_filter (items : List α) (isShown : α → Bool) {score : α → κ}
    (even : ∀ a b, score a = score b) :
    ∃ order, IsRanking items isShown score order ∧
      items.filter isShown = order.map fun i => items[i] := by
  refine ⟨_, ⟨.refl _, ?_⟩, filter_eq_map items isShown⟩
  exact ((List.pairwise_lt_finRange _).filter _).imp fun less => .inr ⟨even _ _, less⟩

/-- The items that go first, then the others, each as they stood. -/
theorem ranking_partition (items : List α) (goesFirst : α → Bool) :
    ∃ order, IsRanking items (fun _ => true) goesFirst order ∧
      items.filter goesFirst ++ items.filter (fun a => !goesFirst a) =
        order.map fun i => items[i] := by
  have ascending := List.pairwise_lt_finRange items.length
  refine ⟨_ ++ _, ⟨?_, List.pairwise_append.mpr ⟨?_, ?_, ?_⟩⟩,
    (congrArg₂ _ (filter_eq_map items _) (filter_eq_map items _)).trans List.map_append.symm⟩
  · rw [List.filter_true]
    exact List.filter_append_perm _ _
  · exact List.pairwise_filter.mpr (ascending.imp fun less first first' =>
      .inr ⟨first.trans first'.symm, less⟩)
  · refine List.pairwise_filter.mpr (ascending.imp fun less last last' => .inr ⟨?_, less⟩)
    rw [Bool.not_eq_true'] at last last'
    exact last.trans last'.symm
  · intro i first j last
    rw [List.mem_filter] at first last
    rw [Bool.not_eq_true'] at last
    have lower : goesFirst items[j] < goesFirst items[i] := by rw [first.2, last.2]; decide
    exact .inl lower

end Positions

/-! ### Relevance -/

/-- Whether a file is shown through a focus: test files only when they are asked for. -/
def FocusArea.admits (focus : FocusArea) (includeTests : Bool) (path : String) : Bool :=
  includeTests || focus == .testing || !isTestPath path

namespace SimilarEntry

variable {κ : Type}

/-- What an entry is worth for a focus: its likeness, times the boost if it fits the focus and is at
all alike. -/
def worth [Mul κ] [LT κ] [DecidableLT κ] [OfNat κ 0] (focus : FocusArea) (boost : κ)
    (e : SimilarEntry κ) : κ :=
  if focus.fits e.relativePath e.signals = true ∧ 0 < e.similarity then e.similarity * boost
  else e.similarity

theorem weighed_eq [Mul κ] [LT κ] [DecidableLT κ] [OfNat κ 0] (focus : FocusArea) (boost : κ)
    (e : SimilarEntry κ) : e.weighed focus boost = { e with relevance := e.worth focus boost } := by
  rw [weighed, worth, ite_and]
  rfl

variable [Ring κ] [LinearOrder κ] [IsStrictOrderedRing κ]

/-- A boost makes nothing worth less. -/
theorem similarity_le_worth {boost : κ} (boosts : 1 ≤ boost) (focus : FocusArea)
    (e : SimilarEntry κ) : e.similarity ≤ e.worth focus boost := by
  rw [worth]
  split
  next fits => exact le_mul_of_one_le_right fits.2.le boosts
  next => exact le_rfl

/-- An entry stays ahead of one that does not fit the focus. -/
theorem precedes_worth {items : List (SimilarEntry κ)} {boost : κ} (boosts : 1 ≤ boost)
    {focus : FocusArea} {i j : Fin items.length}
    (other : focus.fits items[j].relativePath items[j].signals = false)
    (precedes : Precedes (fun i => items[i].similarity) i j) :
    Precedes (fun i => items[i].worth focus boost) i j := by
  -- The one ahead can only rise, and the other one stays.
  have raised := similarity_le_worth boosts focus items[i]
  have kept : items[j].worth focus boost = items[j].similarity :=
    if_neg fun fits => Bool.false_ne_true (other.symm.trans fits.1)
  simp only [Precedes, kept] at precedes ⊢
  rcases precedes with less | ⟨same, before⟩
  · exact .inl (less.trans_le raised)
  · rcases raised.lt_or_eq with more | even
    · exact .inl (same ▸ more)
    · exact .inr ⟨even.symm.trans same, before⟩

end SimilarEntry

namespace Bundle

theorem byRelevance_eq {κ : Type} [LinearOrder κ] (entries : List (SimilarEntry κ)) :
    byRelevance entries = entries.mergeSort fun a b => !decide (a.relevance < b.relevance) :=
  if_pos (by simp)

theorem mem_byRelevance {κ : Type} [LinearOrder κ] {entries : List (SimilarEntry κ)}
    {e : SimilarEntry κ} : e ∈ byRelevance entries ↔ e ∈ entries := by
  rw [byRelevance_eq, List.mem_mergeSort]

theorem byRelevance_pairwise {κ : Type} [LinearOrder κ] (entries : List (SimilarEntry κ)) :
    (byRelevance entries).Pairwise fun a b => b.relevance ≤ a.relevance := by
  rw [byRelevance_eq]
  refine (List.pairwise_mergeSort (fun a b c first second => ?_) (fun a b => ?_) entries).imp
    fun le => by simpa using le
  · simp only [Bool.not_eq_true', decide_eq_false_iff_not, not_lt] at first second ⊢
    exact second.trans first
  · simpa using le_total b.relevance a.relevance

/-- What is ordered stays as it is. -/
theorem byRelevance_of_pairwise {κ : Type} [LinearOrder κ] {entries : List (SimilarEntry κ)}
    (ordered : entries.Pairwise fun a b => b.relevance ≤ a.relevance) :
    byRelevance entries = entries := by
  rw [byRelevance_eq]
  exact List.mergeSort_of_pairwise (ordered.imp fun le => by simpa using le)

theorem testsFirst_testsFirst (files : List RelatedFile) :
    testsFirst (testsFirst files) = testsFirst files := by
  simp [testsFirst, List.filter_filter]

variable {κ : Type} [Ring κ] [LinearOrder κ]

/-- The sections of a context seen through a focus. -/
theorem focused_eq (b : Bundle κ) (focus : FocusArea) (includeTests : Bool) (boost : κ) :
    b.focused focus includeTests boost = { b with
      similarCode := (byRelevance (b.similarCode.map (·.weighed focus boost))).filter fun e =>
        focus.admits includeTests e.relativePath
      relatedFiles := if focus = .testing then testsFirst b.relatedFiles
        else b.relatedFiles.filter fun r => focus.admits includeTests r.relativePath } := by
  simp only [focused, withoutTests, beq_iff_eq]
  by_cases testing : focus = .testing
  · simp [testing, FocusArea.admits]
  · have other : (focus == .testing) = false := by simpa using testing
    cases includeTests <;> simp [testing, other, FocusArea.admits]

/-- Similar code is put in order by what it is worth, then weighed. -/
theorem byRelevance_weighed (focus : FocusArea) (boost : κ) (entries : List (SimilarEntry κ)) :
    byRelevance (entries.map (·.weighed focus boost)) =
      (entries.mergeSort fun a b => !decide (a.worth focus boost < b.worth focus boost)).map
        (·.weighed focus boost) := by
  rw [byRelevance_eq]
  refine (List.map_mergeSort fun a _ b _ => ?_).symm
  rw [SimilarEntry.weighed_eq, SimilarEntry.weighed_eq]

/-- Through the same focus a context looks the same again. -/
theorem focused_focused (b : Bundle κ) (focus : FocusArea) (includeTests : Bool) (boost : κ) :
    (b.focused focus includeTests boost).focused focus includeTests boost =
      b.focused focus includeTests boost := by
  let ranked := byRelevance (b.similarCode.map (·.weighed focus boost))
  let shown := ranked.filter fun e => focus.admits includeTests e.relativePath
  -- What is shown has its weight already, and is in order.
  have weighed : shown.map (·.weighed focus boost) = shown := by
    refine (List.map_congr_left fun e member => ?_).trans (List.map_id _)
    obtain ⟨e₀, -, rfl⟩ := List.mem_map.mp (mem_byRelevance.mp (List.mem_of_mem_filter member))
    rfl
  have ordered : byRelevance shown = shown :=
    byRelevance_of_pairwise ((byRelevance_pairwise _).filter _)
  rw [focused_eq, focused_eq]
  congr 1
  · split
    · exact testsFirst_testsFirst _
    · simp [List.filter_filter]
  · change (byRelevance (shown.map (·.weighed focus boost))).filter _ = shown
    rw [weighed, ordered]
    simp [shown, List.filter_filter]

/-- Related files stand as they stood, in front of the others those of tests if the focus is on
them. -/
theorem relatedFiles_focused (b : Bundle κ) (focus : FocusArea) (includeTests : Bool) (boost : κ) :
    ∃ order, IsRanking b.relatedFiles (fun r => focus.admits includeTests r.relativePath)
        (fun r => focus == .testing && isTestPath r.relativePath) order ∧
      (b.focused focus includeTests boost).relatedFiles = order.map fun i => b.relatedFiles[i] := by
  rw [focused_eq]
  by_cases testing : focus = .testing
  · obtain ⟨order, ranking, shown⟩ :=
      ranking_partition b.relatedFiles fun r => isTestPath r.relativePath
    refine ⟨order, ?_, ?_⟩
    · simpa [testing, FocusArea.admits] using ranking
    · simpa [testing, testsFirst] using shown
  · have other : (focus == .testing) = false := by simpa using testing
    have even (r r' : RelatedFile) : (focus == .testing && isTestPath r.relativePath) =
        (focus == .testing && isTestPath r'.relativePath) := by
      rw [other, Bool.false_and, Bool.false_and]
    obtain ⟨order, ranking, shown⟩ := ranking_filter b.relatedFiles
      (fun r => focus.admits includeTests r.relativePath) even
    exact ⟨order, ranking, by simpa [testing] using shown⟩

/-- Similar code stands in the order of what it is worth. -/
theorem similarCode_focused (b : Bundle κ) (focus : FocusArea) (includeTests : Bool) (boost : κ) :
    ∃ order, IsRanking b.similarCode (fun e => focus.admits includeTests e.relativePath)
        (·.worth focus boost) order ∧
      (b.focused focus includeTests boost).similarCode = order.map fun i =>
        { b.similarCode[i] with relevance := b.similarCode[i].worth focus boost } := by
  obtain ⟨order, ranking, shown⟩ := exists_ranking b.similarCode
    (fun e => focus.admits includeTests e.relativePath) (·.worth focus boost)
  refine ⟨order, ranking, ?_⟩
  calc (b.focused focus includeTests boost).similarCode
    _ = (byRelevance (b.similarCode.map (·.weighed focus boost))).filter fun e =>
          focus.admits includeTests e.relativePath := by rw [focused_eq]
    _ = (order.map fun i => b.similarCode[i]).map (·.weighed focus boost) := by
          rw [byRelevance_weighed, List.filter_map, ← shown]
          rfl
    _ = _ := by simp [SimilarEntry.weighed_eq]

/-- What a focus makes of a context: similar code is what is shown of it, in the order of what it is
worth, and each entry is otherwise what it was. Related files are what is shown of them. An entry
stays ahead of one that does not fit the focus. Looking again changes nothing. -/
theorem focused_ranks [IsStrictOrderedRing κ] (b : Bundle κ) (focus : FocusArea)
    (includeTests : Bool) {boost : κ} (boosts : 1 ≤ boost) :
    let seen := b.focused focus includeTests boost
    (∃ order, IsRanking b.similarCode (fun e => focus.admits includeTests e.relativePath)
        (·.worth focus boost) order ∧
      seen.similarCode = order.map (fun i =>
        { b.similarCode[i] with relevance := b.similarCode[i].worth focus boost }) ∧
      ∀ i ∈ order, ∀ j ∈ order,
        focus.fits b.similarCode[j].relativePath b.similarCode[j].signals = false →
        Precedes (fun i => b.similarCode[i].similarity) i j → order.idxOf i < order.idxOf j) ∧
    (∃ order, IsRanking b.relatedFiles (fun r => focus.admits includeTests r.relativePath)
        (fun r => focus == .testing && isTestPath r.relativePath) order ∧
      seen.relatedFiles = order.map fun i => b.relatedFiles[i]) ∧
    seen = { b with similarCode := seen.similarCode, relatedFiles := seen.relatedFiles } ∧
    seen.focused focus includeTests boost = seen := by
  intro seen
  refine ⟨?_, relatedFiles_focused b focus includeTests boost, ?_,
    focused_focused b focus includeTests boost⟩
  · obtain ⟨order, ranking, shown⟩ := similarCode_focused b focus includeTests boost
    refine ⟨order, ranking, shown, ?_⟩
    intro i member j member' other precedes
    exact ranking.idxOf_lt member member' (SimilarEntry.precedes_worth boosts other precedes)
  · have sections : seen = _ := focused_eq b focus includeTests boost
    rw [sections]

/-- An entry that logs, and after it one that is as likely and does not: through a focus on
debugging the first stays first. -/
theorem focused_ranks_tie :
    let plain : SimilarEntry ℚ :=
      { path := "/w/a.py", relativePath := "a.py", kind := .function, name := "f", startLine := 1
        endLine := 2, content := "x", similarity := 1 / 2, relevance := 1 / 2, source := "local" }
    let logging := { plain with signals := { diagnosticPatterns := [Signals.logging] } }
    (1 : ℚ) ≤ 5 / 4 ∧ ∃ order : List (Fin 2), order.Perm [0, 1] ∧ order.idxOf 0 < order.idxOf 1 ∧
      ((⟨none, [], [], [logging, plain], none, 0, []⟩ : Bundle ℚ).focused .debugging false
        (5 / 4)).similarCode.length = order.length := by
  intro plain logging
  have boosts : (1 : ℚ) ≤ 5 / 4 := by decide +kernel
  obtain ⟨⟨order, ranking, shown, stays⟩, -⟩ :=
    focused_ranks ⟨none, [], [], [logging, plain], none, 0, []⟩ .debugging false boosts
  have perm : order.Perm [0, 1] := ranking.perm.trans (by decide)
  refine ⟨boosts, order, perm, ?_, by rw [shown, List.length_map]⟩
  exact stays 0 (perm.mem_iff.mpr (by decide)) 1 (perm.mem_iff.mpr (by decide)) (by decide)
    (.inr ⟨rfl, by decide⟩)

end Bundle

end CodeAtlas
