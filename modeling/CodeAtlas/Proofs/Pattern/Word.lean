import CodeAtlas.Proofs.Pattern.Places
import CodeAtlas.Proofs.Pattern.Spelling
import CodeAtlas.Proofs.Text.Line
import Mathlib.Data.List.Basic
import Mathlib.Data.List.Induction
import Mathlib.Data.List.TakeWhile
import Mathlib.Data.Set.Card

/-!
# Counting whole words

A text falls into runs of word characters. A pattern for some words with a boundary on either side
matches just where such a run starts and is one of the words, so it is found as often as there are
such runs. Text that is added behind can only change the last run, and text that is added in front
changes no run when a newline stands between.

## Main results

`Pattern.count_wholeWords`: whole words are counted as runs.
`Pattern.count_wholeWords_eq_ncard`: so they are by the places where their runs start.
`Pattern.count_wholeWords_append`: what becomes of the count when a text goes on.
-/

namespace CodeAtlas

open Text

/-! ## Runs -/

namespace Text

/-- The runs of word characters of a text, with empty ones where two other characters meet. -/
def runs (text : List Char) : List (List Char) :=
  splitBy (!isWordChar ·) text

theorem runs_nil : runs [] = [[]] := rfl

theorem runs_ne_nil (text : List Char) : runs text ≠ [] :=
  splitBy_ne_nil _ text

theorem runs_cons_apart {c : Char} (apart : isWordChar c = false) (rest : List Char) :
    runs (c :: rest) = [] :: runs rest :=
  (splitBy_cons _ c rest).trans (if_pos (by simpa using apart))

theorem runs_cons_word {c : Char} (word : isWordChar c = true) (rest : List Char) :
    runs (c :: rest) = (runs rest).modifyHead (c :: ·) :=
  (splitBy_cons _ c rest).trans (if_neg (by simpa using word))

theorem head?_runs (text : List Char) : (runs text).head? = some (text.takeWhile isWordChar) := by
  induction text with
  | nil => rfl
  | cons c rest ih =>
    cases word : isWordChar c with
    | false => simp [runs_cons_apart word, word]
    | true => simp [runs_cons_word word, word, ih]

theorem runs_append_cons (before after : List Char) {c : Char} (apart : isWordChar c = false) :
    runs (before ++ c :: after) = runs before ++ runs after :=
  splitBy_append_cons before after (by simpa using apart)

theorem runs_append_word {last : List Char} (word : ∀ c ∈ last, isWordChar c = true)
    (more : List Char) : runs (last ++ more) = (runs more).modifyHead (last ++ ·) := by
  induction last with
  | nil =>
    obtain ⟨first, others, pieces⟩ := List.exists_cons_of_ne_nil (runs_ne_nil more)
    simp [pieces]
  | cons c last ih =>
    obtain ⟨here, later⟩ := List.forall_mem_cons.mp word
    rw [List.cons_append, runs_cons_word here, ih later, List.modifyHead_modifyHead]
    rfl

/-- A text ends with a run, which may be empty. -/
theorem exists_last_run (text : List Char) : ∃ before last, text = before ++ last ∧
    (∀ c ∈ before.getLast?, isWordChar c = false) ∧ ∀ c ∈ last, isWordChar c = true := by
  induction text using List.reverseRecOn with
  | nil => exact ⟨[], [], rfl, by simp, by simp⟩
  | append_singleton text c ih =>
    cases word : isWordChar c with
    | false => exact ⟨text ++ [c], [], by simp, by simpa using word, by simp⟩
    | true =>
      obtain ⟨before, last, rfl, apart, words⟩ := ih
      exact ⟨before, last ++ [c], by simp, apart,
        List.forall_mem_append.mpr ⟨words, by simpa using word⟩⟩

/-- What stands behind something else than a word character keeps its runs. -/
theorem exists_runs_append {before : List Char}
    (apart : ∀ c ∈ before.getLast?, isWordChar c = false) :
    ∃ front, ∀ after, runs (before ++ after) = front ++ runs after := by
  rcases List.eq_nil_or_concat before with rfl | ⟨front, c, rfl⟩
  · exact ⟨[], fun _ => rfl⟩
  · refine ⟨runs front, fun after => ?_⟩
    rw [List.concat_eq_append] at apart ⊢
    rw [List.append_assoc, List.singleton_append, runs_append_cons]
    exact apart c (by simp)

/-- A run of word characters at an offset of a text that can be made longer at neither end. -/
structure IsRun (text : List Char) (start : Nat) (run : List Char) : Prop where
  filled : run ≠ []
  word : ∀ c ∈ run, isWordChar c = true
  stands : ∃ before after, text = before ++ (run ++ after) ∧ before.length = start ∧
    (∀ c ∈ before.getLast?, isWordChar c = false) ∧ ∀ c ∈ after.head?, isWordChar c = false

end Text

/-! ## Whole words -/

namespace Pattern

/-- Some words, each whole. -/
def wholeWords (words : List String) : Pattern :=
  boundary ++ anyText words ++ boundary

/-- The words are made of word characters. -/
def AreWords (words : List String) : Prop :=
  ∀ w ∈ words, w.toList ≠ [] ∧ ∀ c ∈ w.toList, isWordChar c = true

section Run

variable {c d : Cursor} {w rest : List Char}

theorem takeWhile_append_eq_iff (chars : ∀ x ∈ w, isWordChar x = true) :
    (w ++ rest).takeWhile isWordChar = w ↔ rest.head?.any isWordChar = false := by
  rw [List.takeWhile_append_of_pos chars]
  cases rest with
  | nil => simp
  | cons x rest => cases word : isWordChar x <;> simp [word]

theorem atBoundary_front (filled : w ≠ []) (chars : ∀ x ∈ w, isWordChar x = true)
    (stands : c.rest = w ++ rest) : c.atBoundary = true ↔ c.before.any isWordChar = false := by
  obtain ⟨x, w, rfl⟩ := List.exists_cons_of_ne_nil filled
  rw [Cursor.atBoundary, stands]
  simp [chars x List.mem_cons_self]

theorem atBoundary_back (filled : w ≠ []) (chars : ∀ x ∈ w, isWordChar x = true)
    (passes : c.Passes w d) : d.atBoundary = true ↔ d.rest.head?.any isWordChar = false := by
  obtain ⟨front, x, rfl⟩ := (List.eq_nil_or_concat w).resolve_left filled
  rw [Cursor.atBoundary, passes.before]
  simp [chars x (by simp)]

end Run

section

variable {words : List String} {c d : Cursor}

/-- The run is one of the words. -/
def isOneOf (words : List String) (run : List Char) : Bool :=
  words.any (·.toList == run)

theorem isOneOf_iff {run : List Char} :
    isOneOf words run = true ↔ ∃ w ∈ words, w.toList = run := by
  simp [isOneOf]

/-- A run that is one of the words starts here. -/
def StartsWord (words : List String) (c : Cursor) : Prop :=
  c.before.any isWordChar = false ∧ isOneOf words (c.rest.takeWhile isWordChar) = true

/-- A whole word matches where a run that is one of the words starts, and covers it. -/
theorem exists_yields_wholeWords_iff (are : AreWords words) :
    (∃ new, (wholeWords words).Yields c d new) ↔
      StartsWord words c ∧ c.Passes (c.rest.takeWhile isWordChar) d := by
  constructor
  · rintro ⟨new, yields⟩
    cases yields with
    | seq head closes =>
      cases head with
      | seq opens inside =>
        obtain ⟨_, passes, spelled⟩ := inside.spells
        obtain ⟨w, mem, rfl⟩ := (spells_anyText words).mp spelled
        obtain ⟨filled, chars⟩ := are w mem
        cases opens with
        | boundary opened =>
          cases closes with
          | boundary closed =>
            have run : c.rest.takeWhile isWordChar = w.toList := by
              rw [passes.rest, takeWhile_append_eq_iff chars]
              exact (atBoundary_back filled chars passes).mp closed
            exact ⟨⟨(atBoundary_front filled chars passes.rest).mp opened,
              isOneOf_iff.mpr ⟨w, mem, run.symm⟩⟩, run ▸ passes⟩
  · rintro ⟨⟨apart, one⟩, passes⟩
    obtain ⟨w, mem, run⟩ := isOneOf_iff.mp one
    obtain ⟨filled, chars⟩ := are w mem
    rw [← run] at passes
    obtain ⟨new, inside⟩ :=
      ((spells_anyText words).mpr ⟨w, mem, rfl⟩).yields (free_anyText words) passes.rest
    rw [← passes.eq_behind] at inside
    have closed : d.rest.head?.any isWordChar = false := by
      rw [← takeWhile_append_eq_iff chars, ← passes.rest, ← run]
    exact ⟨_, .seq (.seq (.boundary ((atBoundary_front filled chars passes.rest).mpr apart)) inside)
      (.boundary ((atBoundary_back filled chars passes).mpr closed))⟩

theorem isSome_matchAt?_wholeWords (are : AreWords words) :
    ((wholeWords words).matchAt? c).isSome = true ↔ StartsWord words c := by
  rw [matchAt?_isSome_iff]
  constructor
  · rintro ⟨d, new⟩
    exact ((exists_yields_wholeWords_iff are).mp new).1
  · intro starts
    exact ⟨_, (exists_yields_wholeWords_iff are).mpr
      ⟨starts, Cursor.passes_behind List.takeWhile_append_dropWhile.symm⟩⟩

/-- Whole words keep apart: inside a run there is a word character in front. -/
theorem apart_wholeWords (are : AreWords words) : (wholeWords words).Apart := by
  intro c d e new u v yields first second filled _
  rw [← Option.not_isSome_iff_eq_none, isSome_matchAt?_wholeWords are]
  rintro ⟨apart, -⟩
  obtain ⟨-, passes⟩ := (exists_yields_wholeWords_iff are).mp ⟨new, yields⟩
  -- The character in front of the second place is one of the run that the first match covers.
  obtain ⟨front, x, rfl⟩ := (List.eq_nil_or_concat u).resolve_left filled
  have inside : x ∈ c.rest.takeWhile isWordChar := by
    rw [passes.unique (first.trans second)]
    simp
  rw [first.before] at apart
  simp [List.mem_takeWhile_imp inside] at apart

theorem isSome_matchAt?_eq (are : AreWords words) : ((wholeWords words).matchAt? c).isSome =
    (!c.before.any isWordChar && isOneOf words (c.rest.takeWhile isWordChar)) := by
  rw [Bool.eq_iff_iff, isSome_matchAt?_wholeWords are, StartsWord, Bool.and_eq_true,
    Bool.not_eq_true']

theorem isOneOf_nil (are : AreWords words) : isOneOf words [] = false := by
  rw [isOneOf, List.any_eq_false]
  intro w mem
  simpa using (are w mem).1

/-- Behind a word character the first run has started already. -/
theorem countP_places (are : AreWords words) (before : Option Char) (offset : Nat)
    (rest : List Char) :
    (Cursor.places before offset rest).countP (fun c => ((wholeWords words).matchAt? c).isSome) =
      ((runs rest).drop (if before.any isWordChar then 1 else 0)).countP (isOneOf words) := by
  simp only [isSome_matchAt?_eq are]
  -- Along the text a run loses its first character, and only with that one is it counted.
  induction rest generalizing before offset with
  | nil => cases before.any isWordChar <;> simp [Cursor.places, runs_nil, isOneOf_nil are]
  | cons c rest ih =>
    rw [Cursor.places, List.countP_cons, ih]
    cases word : isWordChar c with
    | false =>
      rw [runs_cons_apart word]
      cases before.any isWordChar <;> simp [word, isOneOf_nil are]
    | true =>
      obtain ⟨first, others, pieces⟩ := List.exists_cons_of_ne_nil (runs_ne_nil rest)
      have starts := head?_runs rest
      rw [pieces, List.head?_cons, Option.some.injEq] at starts
      rw [runs_cons_word word, pieces]
      cases before.any isWordChar <;> simp [word, starts, List.countP_cons]

theorem count_wholeWords (are : AreWords words) (s : List Char) :
    (wholeWords words).count s = (runs s).countP (isOneOf words) := by
  rw [(apart_wholeWords are).count, countP_places are]
  rfl

theorem ncard_eq_countP_range {P : Nat → Prop} {p : Nat → Bool} {n : Nat}
    (below : ∀ i, P i ↔ i < n ∧ p i = true) : {i | P i}.ncard = (List.range n).countP p := by
  have same : {i | P i} = ↑((Finset.range n).filter fun i => p i = true) := by
    ext i
    simp [below]
  rw [same, Set.ncard_coe_finset, Finset.card_def, Finset.filter_val, Finset.range_val,
    ← Multiset.countP_eq_card_filter, Multiset.range, Multiset.coe_countP]
  simp

/-- A word starts at an offset just when its run does. -/
theorem startsWord_iff (are : AreWords words) (text : List Char) {start : Nat} :
    StartsWord words ⟨(text.take start).getLast?, text.drop start, start⟩ ∧ start ≤ text.length ↔
      ∃ w ∈ words, IsRun text start w.toList := by
  constructor
  · rintro ⟨⟨apart, one⟩, le⟩
    obtain ⟨w, mem, run⟩ := isOneOf_iff.mp one
    obtain ⟨filled, chars⟩ := are w mem
    refine ⟨w, mem, filled, chars, text.take start, (text.drop start).dropWhile isWordChar, ?_, ?_,
      ?_, ?_⟩
    · rw [run, List.takeWhile_append_dropWhile, List.take_append_drop]
    · exact List.length_take_of_le le
    · simpa [Option.any_eq_false] using apart
    · intro c first
      have stops := List.head?_dropWhile_not isWordChar (text.drop start)
      rw [Option.mem_def] at first
      simpa [first] using stops
  · rintro ⟨w, mem, filled, chars, before, after, rfl, rfl, apart, stops⟩
    refine ⟨⟨?_, isOneOf_iff.mpr ⟨w, mem, ?_⟩⟩, by simp⟩
    · simpa [Option.any_eq_false] using apart
    · rw [List.drop_left, eq_comm, takeWhile_append_eq_iff chars]
      simpa [Option.any_eq_false] using stops

/-- Whole words are counted by the places where their runs start. -/
theorem count_wholeWords_eq_ncard (are : AreWords words) (text : List Char) :
    (wholeWords words).count text = {start | ∃ w ∈ words, IsRun text start w.toList}.ncard := by
  rw [(apart_wholeWords are).count, Cursor.places_eq_map_range, List.countP_map]
  refine (ncard_eq_countP_range fun start => ?_).symm
  rw [← startsWord_iff are, Function.comp_apply, isSome_matchAt?_wholeWords are, Option.or_none,
    Nat.zero_add, Nat.lt_succ_iff, and_comm]

/-- A newline ends a run, so nothing is counted across it. -/
theorem count_wholeWords_newline (are : AreWords words) (text text' : List Char) :
    (wholeWords words).count (text ++ '\n' :: text') =
      (wholeWords words).count text + (wholeWords words).count text' := by
  rw [count_wholeWords are, runs_append_cons text text' (by decide), List.countP_append,
    ← count_wholeWords are, ← count_wholeWords are]

/-- A text stops within a word, and `kept` is what is left of the word. -/
structure StopsWithin (part more kept : List Char) : Prop where
  ends : ∃ before, part = before ++ kept ∧ ∀ c ∈ before.getLast?, isWordChar c = false
  word : ∀ c ∈ kept, isWordChar c = true
  goesOn : ∃ c ∈ more.head?, isWordChar c = true

/-- A text has no more whole words than one that goes on, or one more when it stops within a word. -/
theorem count_wholeWords_append (are : AreWords words) (part more : List Char) :
    (wholeWords words).count part ≤ (wholeWords words).count (part ++ more) ∨
      (wholeWords words).count part ≤ (wholeWords words).count (part ++ more) + 1 ∧
        ∃ kept, StopsWithin part more kept ∧ isOneOf words kept = true := by
  obtain ⟨before, last, rfl, apart, chars⟩ := exists_last_run part
  obtain ⟨front, behind⟩ := exists_runs_append apart
  obtain ⟨first, others, pieces⟩ := List.exists_cons_of_ne_nil (runs_ne_nil more)
  -- The runs in front of the last one are the same; the last one goes on with the first of the rest.
  have whole : runs (before ++ last) = front ++ [last] := by
    have := runs_append_word chars []
    rw [List.append_nil, runs_nil] at this
    simp [behind, this]
  have longer : runs (before ++ last ++ more) = front ++ (last ++ first) :: others := by
    rw [List.append_assoc, behind, runs_append_word chars, pieces, List.modifyHead_cons]
  simp only [count_wholeWords are, whole, longer, List.countP_append, List.countP_cons,
    List.countP_nil]
  cases kept : isOneOf words last with
  | false =>
    left
    simp
  | true =>
    by_cases ended : first = []
    · left
      simp [ended, kept]
    · right
      refine ⟨by simp, last, ⟨⟨before, rfl, apart⟩, chars, ?_⟩, kept⟩
      have starts := head?_runs more
      rw [pieces, List.head?_cons, Option.some.injEq] at starts
      cases more with
      | nil => exact absurd starts ended
      | cons c more =>
        refine ⟨c, rfl, ?_⟩
        by_contra other
        exact ended (by simp [starts, other])

/-- A text that starts behind something else than a word character, or behind nothing, has no more
whole words than the text that it is the end of. -/
theorem count_wholeWords_behind (are : AreWords words) {before : List Char}
    (apart : ∀ c ∈ before.getLast?, isWordChar c = false) (after : List Char) :
    (wholeWords words).count after ≤ (wholeWords words).count (before ++ after) := by
  obtain ⟨front, behind⟩ := exists_runs_append apart
  rw [count_wholeWords are, count_wholeWords are, behind, List.countP_append]
  exact Nat.le_add_left _ _

end

end Pattern

end CodeAtlas
