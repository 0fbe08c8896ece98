import CodeAtlas.Index.Query
import CodeAtlas.Proofs.Sorting
import Mathlib.Algebra.Order.Floor.Ring
import Mathlib.Algebra.Order.Ring.Rat
import Mathlib.Data.Prod.Lex
import Mathlib.Data.Rat.Floor
import Mathlib.Tactic.Linarith

/-!
# Weights of local vectors

The score of a chunk with a local vector is multiplied by a weight between zero and one, which moves
it toward zero. A score that is not negative thus falls with the weight: a chunk that passes a cut
passes it with every greater weight, and a chunk that is ranked before one with a remote vector is so
with every greater weight. A negative score rises, but never above zero.

The scores are numbers that are computed with exactly, and `rounded` is any rounding that keeps
their order.

## Main results

`Tables.rankedChunks_discounted`.

## Proof strategy

Chunks are ranked by a stable sort, which puts one before another by their keys. With the weight the
key of a chunk with a local vector can only rise, and all other keys stay.
-/

namespace CodeAtlas

open Sorting

namespace Scored

variable {κ α : Type}

section Weight

variable [CommRing κ] [LinearOrder κ] [IsStrictOrderedRing κ] {score weight lower : κ}

theorem weighted_between (positive : 0 ≤ weight) (most : weight ≤ 1) (isStandIn : Bool) :
    min 0 score ≤ weighted weight isStandIn score ∧
      weighted weight isStandIn score ≤ max 0 score := by
  rw [weighted]
  split
  · rcases le_total 0 score with nonneg | negative
    · exact ⟨min_le_of_left_le (mul_nonneg nonneg positive),
        le_max_of_le_right (mul_le_of_le_one_right nonneg most)⟩
    · exact ⟨min_le_of_right_le (le_mul_of_le_one_right negative most),
        le_max_of_le_left (mul_nonpos_of_nonpos_of_nonneg negative positive)⟩
  · exact ⟨min_le_right _ _, le_max_right _ _⟩

theorem weighted_le_weighted (nonneg : 0 ≤ score) (le : lower ≤ weight) (isStandIn : Bool) :
    weighted lower isStandIn score ≤ weighted weight isStandIn score := by
  rw [weighted, weighted]
  split
  · exact mul_le_mul_of_nonneg_left le nonneg
  · exact le_rfl

end Weight

variable [LinearOrder κ]

/-- Where an item stands by its score and its age. -/
def exactPlace (s : Scored κ α) : κ ×ₗ ℤ :=
  toLex (s.score, s.written)

theorem outranks_iff_exactPlace {a b : Scored κ α} :
    a.outranks b = true ↔ b.exactPlace < a.exactPlace := by
  rw [outranks, exactPlace, exactPlace, Prod.Lex.toLex_lt_toLex, Bool.or_eq_true, Bool.and_eq_true,
    Bool.not_eq_true', decide_eq_true_iff, decide_eq_true_iff, decide_eq_false_iff_not, not_lt]
  constructor
  · rintro (less | ⟨le, newer⟩)
    · exact .inl less
    · exact le.lt_or_eq.imp_right fun same => ⟨same, newer⟩
  · exact Or.imp_right fun ⟨same, newer⟩ => ⟨same.le, newer⟩

theorem ranked_eq_byKey (l : List (Scored κ α)) : ranked l = byKey exactPlace l := by
  have same (a b : Scored κ α) : (!b.outranks a) = decide (b.exactPlace ≤ a.exactPlace) := by
    rw [Bool.eq_iff_iff, Bool.not_eq_true', ← Bool.not_eq_true, outranks_iff_exactPlace, not_lt,
      decide_eq_true_iff]
  simp only [ranked, byKey, same]

end Scored

namespace Tables

variable {κ : Type} [CommRing κ]

def weigh (score : IndexedChunk → κ) (weight : κ) (x : FileRow × ChunkRow) : κ :=
  Scored.weighted weight x.2.chunk.embedding.isFallback (score x.2.chunk)

def scoredBy (score : IndexedChunk → κ) (rounded : κ → κ) (weight : κ) (x : FileRow × ChunkRow) :
    Scored κ (FileRow × ChunkRow) :=
  ⟨x, rounded (weigh score weight x), x.1.indexedAt.toMicros⟩

theorem weigh_of_remote {score : IndexedChunk → κ} {weight : κ} {y : FileRow × ChunkRow}
    (remote : y.2.chunk.embedding.isFallback = false) :
    weigh score weight y = score y.2.chunk := by
  rw [weigh, Scored.weighted, if_neg (by rw [remote]; exact Bool.false_ne_true)]

variable [LinearOrder κ]

variable (t : Tables) (score : IndexedChunk → κ) (rounded : κ → κ) (owner : String)
  (filter : SimilarFilter) (least : κ) {weight lower : κ} {x y : FileRow × ChunkRow}

/-- The chunks that may be answered, as they are found. -/
def candidates : List (FileRow × ChunkRow) :=
  t.activeChunks.filter fun (r, c) => r.owner == owner && admits filter r c

/-- Those whose weighted score is not below the least one. -/
def passing (weight : κ) : List (FileRow × ChunkRow) :=
  (candidates t owner filter).filter fun x => decide (least ≤ weigh score weight x)

/-- The chunks in the order in which they are ranked. -/
theorem map_item_rankedChunks (weight : κ) :
    (t.rankedChunks score rounded owner filter least weight).map Scored.item =
      byKey (Scored.exactPlace ∘ scoredBy score rounded weight)
        (t.passing score owner filter least weight) := by
  -- Sorting the chunks by the key of what they are scored as is sorting the scored ones.
  have moved : (byKey (Scored.exactPlace ∘ scoredBy score rounded weight)
      (t.passing score owner filter least weight)).map (scoredBy score rounded weight) =
        byKey Scored.exactPlace
          ((t.passing score owner filter least weight).map (scoredBy score rounded weight)) :=
    List.map_mergeSort fun _ _ _ _ => rfl
  have found : t.rankedChunks score rounded owner filter least weight =
      Scored.ranked ((t.passing score owner filter least weight).map
        (scoredBy score rounded weight)) := by
    rw [rankedChunks, List.filter_map, List.map_map, passing]
    simp only [← decide_not, not_lt]
    rfl
  rw [found, Scored.ranked_eq_byKey, ← moved, List.map_map]
  exact List.map_id _

/-- A weight does not lift a score over a least one: the score is not negative, or zero does not
reach the least one. -/
def Unlifted (least weight score : κ) : Prop :=
  0 ≤ score ∨ 0 < least ∨ 0 ≤ least ∧ 0 < weight

variable {t score rounded owner filter least} [IsStrictOrderedRing κ]

/-- What passes with a weight that does not lift it has a score that is not negative. -/
theorem Unlifted.nonneg (unlifted : Unlifted least lower (score x.2.chunk)) (positive : 0 ≤ lower)
    (fallback : x.2.chunk.embedding.isFallback = true)
    (passes : x ∈ t.passing score owner filter least lower) : 0 ≤ score x.2.chunk := by
  have enough : least ≤ score x.2.chunk * lower := by
    have enough := of_decide_eq_true (List.mem_filter.mp passes).2
    rwa [weigh, Scored.weighted, if_pos fallback] at enough
  by_contra negative
  have negative := not_le.mp negative
  rcases unlifted with nonneg | above | ⟨zero, pos⟩
  · exact absurd nonneg negative.not_ge
  · exact absurd (above.trans_le enough) (mul_nonpos_of_nonpos_of_nonneg negative.le positive).not_gt
  · exact absurd (zero.trans enough) (mul_neg_of_neg_of_pos negative pos).not_ge

theorem passing_of_le (le : lower ≤ weight) (nonneg : 0 ≤ score x.2.chunk)
    (passes : x ∈ t.passing score owner filter least lower) :
    x ∈ t.passing score owner filter least weight := by
  obtain ⟨found, enough⟩ := List.mem_filter.mp passes
  refine List.mem_filter.mpr ⟨found, decide_eq_true ?_⟩
  exact (of_decide_eq_true enough).trans (Scored.weighted_le_weighted nonneg le _)

/-- What is ranked before a remote chunk whose score is more than nothing has a score that is not
negative. -/
theorem nonneg_of_before (monotone : Monotone rounded) (positive : 0 ≤ lower)
    (fallback : x.2.chunk.embedding.isFallback = true)
    (remote : y.2.chunk.embedding.isFallback = false)
    (more : rounded 0 < rounded (score y.2.chunk))
    (before : Before x y (byKey (Scored.exactPlace ∘ scoredBy score rounded lower)
      (t.passing score owner filter least lower))) : 0 ≤ score x.2.chunk := by
  by_contra negative
  -- A negative score is lifted to zero at most, which the remote one is above.
  have lifted : weigh score lower x ≤ 0 := by
    rw [weigh, Scored.weighted, if_pos fallback]
    exact mul_nonpos_of_nonpos_of_nonneg (not_le.mp negative).le positive
  have less : (scoredBy score rounded lower x).score < (scoredBy score rounded lower y).score := by
    refine (monotone lifted).trans_lt ?_
    rwa [scoredBy, weigh_of_remote remote]
  have behind : (scoredBy score rounded lower x).exactPlace <
      (scoredBy score rounded lower y).exactPlace := Prod.Lex.toLex_lt_toLex.mpr (.inl less)
  rcases before_byKey_iff.mp before with ⟨above, -⟩ | ⟨same, -⟩
  · exact above.asymm behind
  · exact behind.ne same

/-- A greater weight keeps a chunk before a remote one. -/
theorem before_of_le (monotone : Monotone rounded) (le : lower ≤ weight)
    (nonneg : 0 ≤ score x.2.chunk) (remote : y.2.chunk.embedding.isFallback = false)
    (before : Before x y (byKey (Scored.exactPlace ∘ scoredBy score rounded lower)
      (t.passing score owner filter least lower))) :
    Before x y (byKey (Scored.exactPlace ∘ scoredBy score rounded weight)
      (t.passing score owner filter least weight)) := by
  obtain ⟨found, found'⟩ := before.mem
  rw [mem_byKey] at found found'
  have passes := passing_of_le le nonneg found
  have passes' : y ∈ t.passing score owner filter least weight := by
    rw [passing, List.mem_filter, weigh_of_remote remote] at found' ⊢
    exact found'
  -- The place of the one rises or stays, that of the other stays.
  have rises : (scoredBy score rounded lower x).exactPlace ≤
      (scoredBy score rounded weight x).exactPlace := by
    refine Prod.Lex.toLex_mono ⟨monotone ?_, le_rfl⟩
    exact Scored.weighted_le_weighted nonneg le _
  have stays : (scoredBy score rounded lower y).exactPlace =
      (scoredBy score rounded weight y).exactPlace := by
    rw [scoredBy, scoredBy, weigh_of_remote remote, weigh_of_remote remote]
  rw [before_byKey_iff, Function.comp_apply, Function.comp_apply] at before ⊢
  rw [stays] at before
  rcases before with ⟨above, -⟩ | ⟨same, stood⟩
  · exact .inl ⟨above.trans_le rises, passes, passes'⟩
  · rcases rises.lt_or_eq with above | equal
    · exact .inl ⟨same ▸ above, passes, passes'⟩
    · refine .inr ⟨equal.symm.trans same, ?_⟩
      -- Both were found in this order, and both still pass.
      have order : Before x y (t.candidates owner filter) := stood.trans List.filter_sublist
      have both : ∀ z ∈ [x, y], decide (least ≤ weigh score weight z) = true := by
        simpa using ⟨of_decide_eq_true (List.mem_filter.mp passes).2,
          of_decide_eq_true (List.mem_filter.mp passes').2⟩
      have kept := order.filter fun z => decide (least ≤ weigh score weight z)
      rwa [List.filter_eq_self.mpr both] at kept

/-- What a weight does to a chunk with a local vector: its score moves toward zero, and unless zero is
reason enough, whatever it passes or goes before with a weight it does with every greater one. -/
theorem rankedChunks_discounted (monotone : Monotone rounded) (positive : 0 ≤ lower)
    (le : lower ≤ weight) (most : weight ≤ 1)
    (fallback : x.2.chunk.embedding.isFallback = true) :
    let ranking (w : κ) :=
      (t.rankedChunks score rounded owner filter least w).map Scored.item
    let weighted := Scored.weighted weight true (score x.2.chunk)
    (min 0 (score x.2.chunk) ≤ weighted ∧ weighted ≤ max 0 (score x.2.chunk)) ∧
      (Unlifted least lower (score x.2.chunk) → x ∈ ranking lower → x ∈ ranking weight) ∧
      ∀ y : FileRow × ChunkRow, y.2.chunk.embedding.isFallback = false →
        Unlifted least lower (score x.2.chunk) ∨ rounded 0 < rounded (score y.2.chunk) →
        Before x y (ranking lower) → Before x y (ranking weight) := by
  intro ranking weighted
  refine ⟨Scored.weighted_between (positive.trans le) most true, ?_, ?_⟩
  · intro unlifted passes
    simp only [ranking, map_item_rankedChunks, mem_byKey] at passes ⊢
    exact passing_of_le le (unlifted.nonneg positive fallback passes) passes
  · intro y remote allowed before
    simp only [ranking, map_item_rankedChunks] at before ⊢
    refine before_of_le monotone le ?_ remote before
    rcases allowed with unlifted | more
    · exact unlifted.nonneg positive fallback (mem_byKey.mp before.mem.1)
    · exact nonneg_of_before monotone positive fallback remote more before

def sampleRow (id : Nat) (source : EmbeddingSource) : FileRow × ChunkRow :=
  (FileRow.ofRecord id {
      owner := "alice", workspace := "/w", path := source.word, relativePath := source.word
      name := source.word, extension := "py", language := .python, content := ""
      contentHash := "", indexedAt := Timestamp.ofMicros 0 } 1 (Timestamp.ofMicros 0),
    ⟨id, 1, {
      kind := .function, name := "f", startLine := 1, endLine := 1, content := ""
      contentHash := "", embedding := ⟨source, [], "m"⟩ }⟩)

def sample : Tables where
  files := [(sampleRow 1 .fallback).1, (sampleRow 2 .remote).1]
  chunks := [(sampleRow 1 .fallback).2, (sampleRow 2 .remote).2]

def scoreBySource (fallback remote : ℚ) (c : IndexedChunk) : ℚ :=
  if c.embedding.isFallback then fallback else remote

/-- To six decimals. -/
def sixPlaces (x : ℚ) : ℚ :=
  ⌊x * 10 ^ 6 + 1 / 2⌋ / 10 ^ 6

theorem sixPlaces_mono : Monotone sixPlaces := by
  intro x y le
  rw [sixPlaces, sixPlaces]
  gcongr

/-- A local vector of score 0.8 counts three quarters and is still before a remote one of 0.5, so it
is with its whole score. -/
theorem rankedChunks_discounted_near :
    let ranking (weight : ℚ) := (sample.rankedChunks (scoreBySource (4 / 5) (1 / 2)) sixPlaces
      "alice" {} 0 weight).map Scored.item
    Before (sampleRow 1 .fallback) (sampleRow 2 .remote) (ranking (3 / 4)) ∧
      Before (sampleRow 1 .fallback) (sampleRow 2 .remote) (ranking 1) := by
  intro ranking
  have before : Before (sampleRow 1 .fallback) (sampleRow 2 .remote) (ranking (3 / 4)) := by
    simp only [ranking, map_item_rankedChunks]
    refine before_byKey_iff.mpr (.inl ⟨by decide +kernel, ?_, ?_⟩)
    · exact List.mem_filter.mpr ⟨List.mem_cons_self, by decide +kernel⟩
    · exact List.mem_filter.mpr ⟨List.mem_cons_of_mem _ List.mem_cons_self, by decide +kernel⟩
  refine ⟨before, ?_⟩
  exact (rankedChunks_discounted sixPlaces_mono (by norm_num) (by norm_num) le_rfl rfl).2.2
    (sampleRow 2 .remote) rfl (.inl (.inl (by decide +kernel))) before

/-- A local vector of score -1 that counts one half has a higher score, passes a cut at -0.7 and goes
before a remote one of -0.6. With its whole score it does neither. -/
theorem rankedChunks_discounted_raised :
    let score := scoreBySource (-1) (-3 / 5)
    let ranking (least weight : ℚ) := (sample.rankedChunks score sixPlaces "alice" {} least
      weight).map Scored.item
    score (sampleRow 1 .fallback).2.chunk < weigh score (1 / 2) (sampleRow 1 .fallback) ∧
      (sampleRow 1 .fallback ∈ ranking (-7 / 10) (1 / 2) ∧
        sampleRow 1 .fallback ∉ ranking (-7 / 10) 1) ∧
      Before (sampleRow 1 .fallback) (sampleRow 2 .remote) (ranking (-1) (1 / 2)) ∧
      ¬ Before (sampleRow 1 .fallback) (sampleRow 2 .remote) (ranking (-1) 1) := by
  intro score ranking
  simp only [ranking, map_item_rankedChunks, mem_byKey, before_byKey_iff]
  refine ⟨by decide +kernel, ⟨?_, ?_⟩, .inl ⟨by decide +kernel, ?_, ?_⟩, ?_⟩
  · exact List.mem_filter.mpr ⟨List.mem_cons_self, by decide +kernel⟩
  · intro passes
    exact absurd (List.mem_filter.mp passes).2 (by decide +kernel)
  · exact List.mem_filter.mpr ⟨List.mem_cons_self, by decide +kernel⟩
  · exact List.mem_filter.mpr ⟨List.mem_cons_of_mem _ List.mem_cons_self, by decide +kernel⟩
  · rintro (⟨above, -⟩ | ⟨same, -⟩)
    · exact absurd above (by decide +kernel)
    · exact absurd same (by decide +kernel)

end Tables

end CodeAtlas
