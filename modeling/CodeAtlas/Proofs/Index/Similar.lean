import CodeAtlas.Index.Query
import CodeAtlas.Proofs.Index.Representation
import CodeAtlas.Proofs.Number.Order
import Mathlib.Data.List.ProdSigma

/-!
# Chunks like a vector

What the index answers when it is asked for similar chunks: no more than were asked for, all of them
of files that the filter lets pass, and each with a number for its likeness whatever the vectors
are.

Of all chunks that match the query these are the best: those with the highest rounded score, the
newest first among equals, and as many as were asked for. The cut is by the score before it is
rounded, the order by the score after that. A score that is no number stands nowhere in that order
and passes every cut.

## Main results

`Index.similar_ok`: what is known of every answer.
`Index.replay_answersBest`: after any calls on an empty index, a query whose scores are numbers is
answered with just the best of what matches it.
-/

namespace CodeAtlas

open Number (IsNumber standing)

/-! ### Likeness -/

namespace Similarity

/-- Between one and minus one there is nothing infinite, and all else is clamped. -/
theorem isFinite_clamp (x : Float) : (clamp x).isFinite = true := by
  simp only [clamp]
  by_cases below : x < 1.0
  · rw [if_pos below]
    split
    next above =>
      exact Number.isFinite_of_between (-1.0) 1.0 rfl rfl (Number.float_le_of_lt above)
        (Number.float_le_of_lt below)
    · rfl
  · rw [if_neg below]
    split
    · rfl
    · rfl

theorem isFinite_cosine (a b : List Float) : (cosine a b).isFinite = true := by
  simp only [cosine]
  split
  · rfl
  · exact isFinite_clamp _

end Similarity

/-- A likeness that counts by a finite weight is a number. -/
theorem Scored.isNumber_weighted {weight score : Float} (finite : weight.isFinite = true)
    (finite' : score.isFinite = true) (isStandIn : Bool) :
    IsNumber (weighted weight isStandIn score) := by
  rw [weighted]
  split
  · exact Number.isNumber_mul finite' finite
  · exact Number.isNumber_of_isFinite finite'

namespace Index

open Tables

/-- Every answer is about a file that the filter lets pass. -/
theorem similar_ok {ix : Index} {faults : Faults} {owner : String} {q : SimilarQuery}
    {chunks : List SimilarChunk} (answer : ix.similar faults owner q = .ok chunks)
    (little : 0 ≤ q.fallbackWeight ∧ q.fallbackWeight ≤ 1) {count : ℕ} (most : q.count = count) :
    chunks.length ≤ count ∧ ∀ c ∈ chunks, IsNumber c.similarity ∧ ∃ r ∈ ix.tables.files,
      c.path = r.path ∧ c.relativePath = r.relativePath ∧
        restricts q.filter.excludedFile (fun path => !r.isNamed path) = true := by
  simp only [similar] at answer
  cases asked : ix.read faults 0 (.selectSimilar q.filter) with
  | error f =>
    rw [asked] at answer
    cases answer
  | ok t =>
    rw [asked] at answer
    -- The tables that a query sees are those of the index.
    have tables : t = ix.tables := by
      simp only [read] at asked
      split at asked
      · cases asked
      · split at asked
        · exact (Except.ok.inj asked).symm
        · cases asked
    cases answer
    rw [most, Slice.upTo, if_pos (Int.natCast_nonneg count), Int.toNat_natCast]
    refine ⟨(List.length_map _).le.trans (List.length_take_le _ _), fun c member => ?_⟩
    obtain ⟨s, taken, rfl⟩ := List.mem_map.mp member
    have ranked := List.mem_of_mem_take taken
    simp only [rankedChunks, Scored.ranked, List.mem_mergeSort, List.mem_map,
      List.mem_filter] at ranked
    obtain ⟨_, ⟨⟨⟨r, row⟩, ⟨active, admitted⟩, rfl⟩, _⟩, rfl⟩ := ranked
    refine ⟨?_, r, tables ▸ mem_of_mem_activeChunks active, rfl, rfl, ?_⟩
    · have weight := Number.isFinite_of_between 0 1 rfl rfl little.1 little.2
      have likeness := Similarity.isFinite_cosine q.vector row.chunk.embedding.vector
      exact Number.isNumber_roundTo (Scored.isNumber_weighted weight likeness _)
    · simp only [admits, Bool.and_eq_true] at admitted
      exact admitted.2.1.2

end Index

/-! ### The best of some items -/

/-- The best so many of some items, the best first. -/
structure IsTop {α : Type} (above : α → α → Prop) (count : ℕ) (all picked : List α) : Prop where
  size : picked.length = min count all.length
  ordered : picked.Pairwise fun a b => ¬ above b a
  /-- The others make up all items together with these, and none of them is above one of these. -/
  best : ∃ others, (picked ++ others).Perm all ∧ ∀ a ∈ picked, ∀ b ∈ others, ¬ above b a

/-- The front of what is in order is the best of it. -/
theorem isTop_take {α : Type} {above : α → α → Prop} {all sorted : List α}
    (perm : sorted.Perm all) (ordered : sorted.Pairwise fun a b => ¬ above b a) (count : ℕ) :
    IsTop above count all (sorted.take count) where
  size := by rw [List.length_take, perm.length_eq]
  ordered := ordered.sublist (List.take_sublist _ _)
  best := by
    rw [← List.take_append_drop count sorted] at ordered perm
    exact ⟨sorted.drop count, perm, (List.pairwise_append.mp ordered).2.2⟩

/-! ### The order of ranked items -/

namespace Scored

variable {α : Type} {a b : Scored Float α} {l : List (Scored Float α)}

/-- A higher score, or the same and newer. -/
def Above (a b : Scored Float α) : Prop :=
  b.score < a.score ∨ (b.score == a.score) = true ∧ b.written < a.written

/-- Where an item stands by its score and its age. -/
private def place (s : Scored Float α) : (ℤ ×ₗ ℤ ×ₗ ℤ) ×ₗ ℤ :=
  toLex (standing s.score.toModel.unpack, s.written)

private theorem above_iff (number : IsNumber a.score) (number' : IsNumber b.score) :
    a.Above b ↔ b.place < a.place := by
  rw [Above, place, place, Prod.Lex.toLex_lt_toLex, number'.lt_iff number, number'.beq_iff number]

private theorem outranks_iff (number : IsNumber a.score) (number' : IsNumber b.score) :
    a.outranks b = true ↔ b.place < a.place := by
  rw [← above_iff number number', Above, outranks, Bool.or_eq_true, Bool.and_eq_true,
    decide_eq_true_iff, decide_eq_true_iff, Bool.not_eq_true', decide_eq_false_iff_not,
    number'.lt_iff number, number.lt_iff number', number'.beq_iff number, not_lt]
  constructor
  · rintro (less | ⟨le, newer⟩)
    · exact .inl less
    · exact le.lt_or_eq.imp id fun same => ⟨same, newer⟩
  · exact Or.imp id fun ⟨same, newer⟩ => ⟨same.le, newer⟩

/-- Ranked items whose scores are numbers are in order: none is above an earlier one. -/
theorem pairwise_ranked (numbers : ∀ s ∈ l, IsNumber s.score) :
    (ranked l).Pairwise fun a b => ¬ b.Above a := by
  -- Among numbers the comparison is that of the places, which are in a linear order.
  have byPlace : ranked l = l.mergeSort fun a b => decide (b.place ≤ a.place) := by
    have same := List.map_mergeSort (f := id) (l := l) (r := fun a b => !b.outranks a)
      (s := fun a b => decide (b.place ≤ a.place)) fun a mem b mem' => by
        rw [Bool.eq_iff_iff, Bool.not_eq_true', decide_eq_true_iff, ← Bool.not_eq_true,
          outranks_iff (numbers b mem') (numbers a mem), not_lt]
        rfl
    rwa [List.map_id, List.map_id] at same
  have sorted : (ranked l).Pairwise fun a b => b.place ≤ a.place := by
    rw [byPlace]
    refine (List.pairwise_mergeSort ?_ ?_ l).imp of_decide_eq_true
    · intro a b c first second
      exact decide_eq_true ((of_decide_eq_true second).trans (of_decide_eq_true first))
    · intro a b
      rw [Bool.or_eq_true, decide_eq_true_iff, decide_eq_true_iff]
      exact le_total _ _
  refine sorted.imp_of_mem fun {a b} mem mem' le above => ?_
  have number := numbers a (List.mem_mergeSort.mp mem)
  have number' := numbers b (List.mem_mergeSort.mp mem')
  exact absurd ((above_iff number' number).mp above) le.not_gt

/-- Items made of others are ranked by putting those in some order. -/
theorem exists_ranked {β : Type} (f : β → Scored Float α) (found : List β) :
    ∃ sorted : List β, sorted.Perm found ∧ ranked (found.map f) = sorted.map f :=
  ⟨found.mergeSort fun a b => !(f b).outranks (f a), List.mergeSort_perm _ _,
    (List.map_mergeSort (f := f) fun _ _ _ _ => rfl).symm⟩

end Scored

/-! ### What a query looks for -/

theorem Tables.restricts_iff {given : Option String} {holds : String → Bool} :
    restricts given holds = true ↔ ∀ text ∈ given, text ≠ "" → holds text = true := by
  cases given with
  | none => simp [restricts]
  | some text => simp [restricts, or_iff_not_imp_left]

namespace Index

open Tables

namespace SimilarQuery

/-- The weighted score of a chunk, not rounded. -/
def weigh (q : SimilarQuery) (c : ChunkRow) : Float :=
  Scored.weighted q.fallbackWeight c.chunk.embedding.isFallback
    (Similarity.cosine q.vector c.chunk.embedding.vector)

/-- A chunk of a file as it is ranked: by its rounded score and the time when the file was last
written. -/
def scored (q : SimilarQuery) (x : FileRow × ChunkRow) : Scored Float (FileRow × ChunkRow) :=
  ⟨x, Number.roundTo similarityPlaces (q.weigh x.2), x.1.indexedAt.toMicros⟩

/-- A chunk of the present generation of a file of the owner, and every part of the filter that
restricts lets it pass. -/
structure Concerns (q : SimilarQuery) (owner : String) (r : FileRow) (c : ChunkRow) : Prop where
  own : r.id = c.file
  present : r.generation = c.generation
  owner : r.owner = owner
  workspace : ∀ workspace ∈ q.filter.workspace, workspace ≠ "" → r.workspace = workspace
  language : ∀ language ∈ q.filter.language, r.language = language
  kind : ∀ kind ∈ q.filter.kind, c.chunk.kind = kind
  elsewhere : ∀ path ∈ q.filter.excludedFile, path ≠ "" → r.path ≠ path ∧ r.relativePath ≠ path
  model : ∀ model ∈ q.filter.model, model ≠ "" → c.chunk.embedding.model = model

theorem concerns_iff {q : SimilarQuery} {owner : String} {r : FileRow} {c : ChunkRow} :
    q.Concerns owner r c ↔ (r.id = c.file ∧ r.generation = c.generation) ∧
      (r.owner == owner && admits q.filter r c) = true := by
  simp only [admits, Bool.and_eq_true, beq_iff_eq, restricts_iff, Option.all_eq_true,
    FileRow.isNamed, Bool.not_eq_true', Bool.or_eq_false_iff, beq_eq_false_iff_ne]
  constructor
  · rintro ⟨own, present, owner, workspace, language, kind, elsewhere, model⟩
    exact ⟨⟨own, present⟩, owner, ⟨⟨⟨workspace, language⟩, kind⟩, elsewhere⟩, model⟩
  · rintro ⟨⟨own, present⟩, owner, ⟨⟨⟨workspace, language⟩, kind⟩, elsewhere⟩, model⟩
    exact ⟨own, present, owner, workspace, language, kind, elsewhere, model⟩

instance {q : SimilarQuery} {owner : String} {r : FileRow} {c : ChunkRow} :
    Decidable (q.Concerns owner r c) :=
  decidable_of_iff _ concerns_iff.symm

/-- All chunks that match a query, each with its file: what it concerns, from the least score on. -/
def matching (q : SimilarQuery) (owner : String) (t : Tables) : List (FileRow × ChunkRow) :=
  (t.files ×ˢ t.chunks).filter fun x => q.Concerns owner x.1 x.2 ∧ q.least ≤ q.weigh x.2

/-- A weight that is finite makes every score a number. -/
theorem isNumber_weigh {q : SimilarQuery} (finite : q.fallbackWeight.isFinite = true)
    (c : ChunkRow) : IsNumber (q.weigh c) :=
  Scored.isNumber_weighted finite (Similarity.isFinite_cosine _ _) _

/-- An entry of an answer shows what is stored of a chunk and of its file, and the rounded score. -/
structure Presents (q : SimilarQuery) (e : SimilarChunk) (x : FileRow × ChunkRow) : Prop where
  path : e.path = x.1.path
  relativePath : e.relativePath = x.1.relativePath
  workspace : e.workspace = x.1.workspace
  language : e.language = x.1.language
  indexedAt : e.indexedAt = x.1.indexedAt
  kind : e.kind = x.2.chunk.kind
  name : e.name = x.2.chunk.name
  startLine : e.startLine = x.2.chunk.startLine
  endLine : e.endLine = x.2.chunk.endLine
  content : e.content = x.2.chunk.content
  source : e.source = x.2.chunk.embedding.source.word
  signals : e.signals = x.2.chunk.signals
  similarity : e.similarity = Number.roundTo similarityPlaces (q.weigh x.2)

theorem presents_similarChunk (q : SimilarQuery) (x : FileRow × ChunkRow) :
    q.Presents (similarChunk (q.scored x)) x := by
  constructor <;> rfl

end SimilarQuery

/-! ### What it is answered -/

variable {t : Tables} {owner : String} {q : SimilarQuery}

/-- A query is answered with the best of what matches it. -/
def AnswersBest (ix : Index) (owner : String) (q : SimilarQuery) : Prop :=
  ∃ entries picked, ix.similar Faults.none owner q = .ok entries ∧
    List.Forall₂ q.Presents entries picked ∧
    IsTop (fun a b => (q.scored a).Above (q.scored b)) q.count.toNat
      (q.matching owner ix.tables) picked

/-- The chunks that a query ranks, as they are found. -/
private def kept (q : SimilarQuery) (owner : String) (t : Tables) : List (FileRow × ChunkRow) :=
  t.activeChunks.filter fun x =>
    !decide (q.weigh x.2 < q.least) && (x.1.owner == owner && admits q.filter x.1 x.2)

private theorem rankedChunks_eq (q : SimilarQuery) (owner : String) (t : Tables) :
    t.rankedChunks (fun c => Similarity.cosine q.vector c.embedding.vector)
      (Number.roundTo similarityPlaces) owner q.filter q.least q.fallbackWeight =
        Scored.ranked ((kept q owner t).map q.scored) := by
  rw [rankedChunks, List.filter_map, List.map_map, List.filter_filter]
  rfl

/-- What is kept is what matches, where every score compares with the least one. -/
private theorem kept_perm (sound : t.Sound) (comparable : ∀ r ∈ t.files, ∀ c ∈ t.chunks,
    q.Concerns owner r c → (¬ q.weigh c < q.least ↔ q.least ≤ q.weigh c)) :
    (kept q owner t).Perm (q.matching owner t) := by
  refine ((activeChunks_perm sound).filter _).trans (.of_eq ?_)
  -- Row by row, of the chunks of the row those are kept that match.
  have pairs : t.files ×ˢ t.chunks = t.files.flatMap fun r => t.chunks.map (r, ·) := rfl
  rw [SimilarQuery.matching, pairs, List.filter_flatMap, List.filter_flatMap]
  refine List.flatMap_congr fun r member => ?_
  rw [List.filter_map, List.filter_filter, List.filter_map]
  refine congrArg _ (List.filter_congr fun c member' => ?_)
  rw [Bool.eq_iff_iff, Function.comp_apply, Function.comp_apply, decide_eq_true_iff,
    Bool.and_eq_true, Bool.and_eq_true, Bool.and_eq_true (c.file == r.id), Bool.not_eq_true',
    decide_eq_false_iff_not, beq_iff_eq (b := r.id), beq_iff_eq (b := r.generation)]
  constructor
  · rintro ⟨⟨notBelow, admitted⟩, own, present⟩
    have concerns : q.Concerns owner r c :=
      SimilarQuery.concerns_iff.mpr ⟨⟨own.symm, present.symm⟩, admitted⟩
    exact ⟨concerns, (comparable r member c member' concerns).mp notBelow⟩
  · rintro ⟨concerns, enough⟩
    obtain ⟨⟨own, present⟩, admitted⟩ := SimilarQuery.concerns_iff.mp concerns
    exact ⟨⟨(comparable r member c member' concerns).mpr enough, admitted⟩, own.symm, present.symm⟩

/-- A query whose scores are numbers is answered with the best of what matches it. -/
theorem Settled.answersBest {ix : Index} (settled : ix.Settled) (count : 0 ≤ q.count)
    (least : IsNumber q.least) (scores : ∀ r ∈ ix.tables.files, ∀ c ∈ ix.tables.chunks,
      q.Concerns owner r c → IsNumber (q.weigh c)) : ix.AnswersBest owner q := by
  have perm := kept_perm settled.sound fun r member c member' concerns =>
    (scores r member c member' concerns).not_lt_iff least
  obtain ⟨sorted, reordered, ranked⟩ := Scored.exists_ranked q.scored (kept q owner ix.tables)
  have ordered : (sorted.map q.scored).Pairwise fun a b => ¬ b.Above a := by
    -- What is ranked matches, so its scores are numbers before and after they are rounded.
    rw [← ranked]
    refine Scored.pairwise_ranked fun s mem => ?_
    obtain ⟨x, found, rfl⟩ := List.mem_map.mp mem
    obtain ⟨pair, matches_⟩ := List.mem_filter.mp (perm.mem_iff.mp found)
    obtain ⟨file, chunk⟩ := List.mem_product.mp pair
    exact Number.isNumber_roundTo (scores _ file _ chunk (of_decide_eq_true matches_).1)
  refine ⟨((sorted.take q.count.toNat).map q.scored).map similarChunk, sorted.take q.count.toNat,
    ?_, ?_, isTop_take (reordered.trans perm) (List.pairwise_map.mp ordered) _⟩
  · rw [settled.similar, rankedChunks_eq, Slice.upTo, if_pos count, ranked, ← List.map_take]
  · rw [List.map_map, List.forall₂_map_left_iff, List.forall₂_same]
    exact fun x _ => q.presents_similarChunk x

/-- After any calls on an empty index, those included whose transaction failed, a query whose scores
are numbers is answered with the best of what matches it. -/
theorem replay_answersBest (clock : Int) (calls : List IndexCall) {owner : String}
    {q : SimilarQuery} (count : 0 ≤ q.count) (least : IsNumber q.least)
    (scores : ∀ r ∈ (replay clock calls).2.tables.files,
      ∀ c ∈ (replay clock calls).2.tables.chunks, q.Concerns owner r c → IsNumber (q.weigh c)) :
    (replay clock calls).2.AnswersBest owner q :=
  (replay_settled clock calls).answersBest count least scores

/-- One of two chunks that match is asked for. Both vectors are alike, but that of the newer file is
a local one, which counts half. -/
theorem replay_answersBest_halved :
    let file (name : String) : IndexedFile := {
      owner := "alice", workspace := "/w", path := "/w/" ++ name, relativePath := name, name
      extension := "py", language := .python, content := "", contentHash := ""
      indexedAt := Timestamp.ofMicros 0 }
    let chunk (source : EmbeddingSource) : IndexedChunk := {
      kind := .function, name := "f", startLine := 1, endLine := 1, content := "", contentHash := ""
      embedding := ⟨source, [0, 1], "m"⟩ }
    let call (name : String) (source : EmbeddingSource) : IndexCall :=
      ⟨.file (file name) [chunk source] false, Faults.none, Faults.none_undoable, 1⟩
    let ix := (replay 0 [call "a.py" .remote, call "b.py" .fallback]).2
    let q : SimilarQuery := { vector := [0, 1], count := 1, fallbackWeight := 0.5 }
    (q.matching "alice" ix.tables).length = 2 ∧ ix.AnswersBest "alice" q := by
  intro file chunk call ix q
  refine ⟨by decide +kernel, ?_⟩
  exact replay_answersBest 0 [call "a.py" .remote, call "b.py" .fallback] (by decide)
    (Number.isNumber_of_isFinite (by decide))
    fun _ _ c _ _ => SimilarQuery.isNumber_weigh (by decide) c

/-- Nothing times an infinite weight is no number, and so is no least score: a chunk whose score
does not compare with the least one is answered, although it does not match. -/
theorem replay_answersBest_incomparable :
    let file : IndexedFile := {
      owner := "alice", workspace := "/w", path := "/w/a.py", relativePath := "a.py", name := "a.py"
      extension := "py", language := .python, content := "# source", contentHash := "h"
      lineCount := 1, indexedAt := Timestamp.ofMicros 0 }
    let chunk : IndexedChunk := {
      kind := .function, name := "f", startLine := 1, endLine := 1, content := "def f(): pass"
      contentHash := "c", embedding := ⟨.fallback, [0, 1], Embedding.fallbackModel⟩ }
    let ix := (replay 0 [⟨.file file [chunk] false, Faults.none, Faults.none_undoable, 0⟩]).2
    ¬ ix.AnswersBest "alice" { vector := [1, 0], fallbackWeight := 1.0 / 0.0 } ∧
      ¬ ix.AnswersBest "alice" { vector := [1, 0], least := 0.0 / 0.0 } := by
  intro file chunk ix
  have unmatched (q : SimilarQuery) (none_ : q.matching "alice" ix.tables = [])
      (some_ : (ix.similar Faults.none "alice" q).toOption.map List.length = some 1) :
      ¬ ix.AnswersBest "alice" q := by
    rintro ⟨entries, picked, answer, shown, top⟩
    have size := top.size
    rw [none_, List.length_nil, Nat.min_zero] at size
    rw [answer, Except.toOption, Option.map_some, shown.length_eq, size] at some_
    cases some_
  refine ⟨unmatched _ ?_ ?_, unmatched _ ?_ ?_⟩
  · decide +kernel
  · decide +kernel
  · decide +kernel
  · decide +kernel

end Index

end CodeAtlas
