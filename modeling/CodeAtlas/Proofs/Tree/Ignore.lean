import CodeAtlas.Proofs.Text.Line
import CodeAtlas.Proofs.Tree.Glob
import CodeAtlas.Tree.Ignore
import Mathlib.Data.List.Basic

/-!
# What a line of ignore rules leaves out

A path from the root is told by the names of its components. A line that ends in a slash is kept as
a rule for directories, and only the last component of a directory is held against it: the rule has to
be that name, or a glob with a star that stands for it. A rule of several components is therefore
never satisfied, and of the globs only those with a star are read as such.

A line that starts with a slash and goes on with one component leaves out what the component stands
for and everything below it. A glob also stands for texts with slashes in them, however, so a path is
left out as soon as the glob stands for some of its leading components, taken together. When no piece
of the glob accepts a slash, this can only be the first component.

## Main results

`IgnoreRules.ignoresDirectory_slash_end`: the directories that a line with a slash at its end leaves
out.
`IgnoreRules.ignores_slash_start`: what a line with a slash at its start leaves out.
-/

namespace CodeAtlas

namespace IgnoreRules

open Text

/-! ## Paths -/

/-- A path from the root, as it is given, goes through these names. -/
structure IsPath (path : List Char) (names : List (List Char)) : Prop where
  filled : names ≠ []
  named : ∀ name ∈ names, name ≠ [] ∧ '/' ∉ name
  joined : slashed path = joinWith ['/'] names

namespace IsPath

variable {path : List Char} {names : List (List Char)}

theorem whole (is : IsPath path names) : ∀ name ∈ names, '/' ∉ name :=
  fun name mem => (is.named name mem).2

/-- A path starts as its first name does. -/
theorem head?_eq {first : List Char} {rest : List (List Char)} (is : IsPath path (first :: rest)) :
    (slashed path).head? = first.head? := by
  obtain ⟨c, first, rfl⟩ := List.exists_cons_of_ne_nil (is.named first List.mem_cons_self).1
  rw [is.joined]
  cases rest <;> rfl

/-- A path ends as its last name does. -/
theorem getLast?_eq {parents : List (List Char)} {last : List Char}
    (is : IsPath path (parents ++ [last])) : (slashed path).getLast? = last.getLast? := by
  rw [is.joined]
  by_cases deep : parents = []
  · subst deep
    rfl
  · rw [joinWith_append deep (by simp), List.getLast?_append_of_ne_nil _ (by simp)]
    exact List.getLast?_append_of_ne_nil _ (is.named last (by simp)).1

theorem head?_ne (is : IsPath path names) : (slashed path).head? ≠ some '/' := by
  obtain ⟨first, rest, rfl⟩ := List.exists_cons_of_ne_nil is.filled
  rw [is.head?_eq]
  exact fun slash => (is.named first List.mem_cons_self).2 (List.mem_of_head? slash)

theorem getLast?_ne (is : IsPath path names) : (slashed path).getLast? ≠ some '/' := by
  obtain ⟨parents, last, rfl⟩ := (List.eq_nil_or_concat names).resolve_left is.filled
  rw [List.concat_eq_append] at is
  rw [is.getLast?_eq]
  exact fun slash => (is.named last (by simp)).2 (List.mem_of_getLast? slash)

theorem path_ne_nil (is : IsPath path names) : path ≠ [] := by
  rintro rfl
  obtain ⟨first, rest, rfl⟩ := List.exists_cons_of_ne_nil is.filled
  obtain ⟨filled, -⟩ := is.named first List.mem_cons_self
  have joined : [] = joinWith ['/'] (first :: rest) := is.joined
  cases rest <;> simp [joinWith, filled] at joined

/-- A path that is spelled as a name goes through nothing else. -/
theorem slashed_eq_iff (is : IsPath path names) {name : List Char} (plain : '/' ∉ name) :
    slashed path = name ↔ names = [name] := by
  constructor
  · intro same
    calc names = List.splitOn '/' (slashed path) := by
          rw [is.joined, joinWith_eq_intercalate, List.splitOn_intercalate '/' is.whole is.filled]
      _ = [name] := by
          rw [same]
          refine List.splitOnP_eq_singleton fun c mem => ?_
          simpa using ne_of_mem_of_not_mem mem plain
  · rintro rfl
    exact is.joined

end IsPath

/-! ## A line with a slash at its end -/

section Directories

variable {line p dir : List Char} {names parents : List (List Char)} {name : List Char}

theorem slashed_append (first second : List Char) :
    slashed (first ++ second) = slashed first ++ slashed second :=
  List.map_append

/-- Only backslashes change. -/
theorem slash_eq_iff {c d : Char} (slash : d ≠ '/') (backslash : d ≠ '\\') :
    (if c = '\\' then '/' else c) = d ↔ c = d := by
  by_cases back : c = '\\'
  · simp [back, slash.symm, backslash.symm]
  · simp [back]

theorem mem_slashed_iff {c : Char} (slash : c ≠ '/') (backslash : c ≠ '\\') :
    c ∈ slashed p ↔ c ∈ p := by
  simp [slashed, slash_eq_iff slash backslash]

theorem ofLines_slash_end (trimmed : trim line = p ++ ['/']) (rule : IsPath p names)
    (unmarked : p.head? ≠ some '#') : ofLines [line] = { directories := [slashed p] } := by
  obtain ⟨c, p, rfl⟩ := List.exists_cons_of_ne_nil rule.path_ne_nil
  have unmarked : c ≠ '#' := by simpa using unmarked
  have unanchored : (slashed (c :: p ++ ['/'])).head? ≠ some '/' := rule.head?_ne
  have ending : slashed (c :: p ++ ['/']) = slashed (c :: p) ++ ['/'] := slashed_append _ _
  have kept : dropTrailing '/' (slashed (c :: p) ++ ['/']) = slashed (c :: p) :=
    dropTrailing_append_singleton rule.getLast?_ne
  rw [ending] at unanchored
  simp only [ofLines, List.foldl_cons, List.foldl_nil, add, trimmed, ending]
  rw [if_neg (by simpa using unmarked), if_neg (by simpa using unanchored), if_pos (by simp), kept]
  rfl

/-- A line with a slash at its end leaves out the directories whose last component it names. -/
theorem ignoresDirectory_slash_end (trimmed : trim line = p ++ ['/']) (rule : IsPath p names)
    (unmarked : p.head? ≠ some '#') (place : IsPath dir (parents ++ [name])) :
    ((ofLines [line]).ignoresDirectory dir = true ↔
      names = [name] ∨ '*' ∈ p ∧ Glob.matchesText (slashed p) name = true) ∧
    ('*' ∉ p → names = parents ++ [name] →
      ((ofLines [line]).ignoresDirectory dir = true ↔ parents = [])) := by
  have plain : '/' ∉ name := place.whole name (by simp)
  have last : afterLast '/' (dropTrailing '/' (dropLeading '/' (slashed dir))) = name := by
    rw [dropLeading_eq_self place.head?_ne, dropTrailing_eq_self place.getLast?_ne, place.joined,
      afterLast_joinWith plain]
  have star : '*' ∈ slashed p ↔ '*' ∈ p := mem_slashed_iff (by decide) (by decide)
  have only : (ofLines [line]).ignoresDirectory dir = true ↔
      names = [name] ∨ '*' ∈ p ∧ Glob.matchesText (slashed p) name = true := by
    rw [ofLines_slash_end trimmed rule unmarked]
    simp [ignoresDirectory, last, eq_comm (a := name), rule.slashed_eq_iff plain, star]
  refine ⟨only, fun literal same => only.trans ?_⟩
  subst same
  simp [literal]

/-- A glob with a star leaves out directories of every depth that it stands for the name of. -/
theorem ignoresDirectory_slash_end_star :
    trim "gen-*/ ".toList = "gen-*".toList ++ ['/'] ∧
      (ofLines ["gen-*/ ".toList]).ignoresDirectory "src/gen-a".toList = true :=
  have trimmed : trim "gen-*/ ".toList = "gen-*".toList ++ ['/'] := by decide
  have rule : IsPath "gen-*".toList ["gen-*".toList] := ⟨by decide, by decide, by decide⟩
  have place : IsPath "src/gen-a".toList (["src".toList] ++ ["gen-a".toList]) :=
    ⟨by decide, by decide, by decide⟩
  ⟨trimmed, (ignoresDirectory_slash_end trimmed rule (by decide) place).1.mpr
    (.inr ⟨by decide, by decide⟩)⟩

/-- A directory of two components is not left out by the line that names it, and one of one component
not by a question mark that stands for it. -/
theorem ignoresDirectory_slash_end_kept :
    (IsPath "a/b".toList ["a".toList, "b".toList] ∧
      (ofLines ["a/b/".toList]).ignoresDirectory "a/b".toList = false) ∧
    (Glob.matchesText "a?".toList "ab".toList = true ∧
      (ofLines ["a?/".toList]).ignoresDirectory "ab".toList = false) :=
  ⟨⟨⟨by decide, by decide, by decide⟩, by decide⟩, by decide, by decide⟩

end Directories

/-! ## A line with a slash at its start -/

/-- A glob stands for some leading names of a path, all of them perhaps. -/
def LeadMatches (g : List Char) (names : List (List Char)) : Prop :=
  ∃ lead, lead ≠ [] ∧ lead <+: names ∧ Glob.matchesText g (joinWith ['/'] lead) = true

section Anchored

variable {line g path first text : List Char} {names below : List (List Char)}

theorem leadMatches_cons (matched : Glob.matchesText g first = true) :
    LeadMatches g (first :: below) :=
  ⟨[first], List.cons_ne_nil first [], ⟨below, rfl⟩, matched⟩

theorem dropStart?_eq_none {start : List Char} {c : Char} (mem : c ∈ start) (plain : c ∉ text) :
    dropStart? start text = none := by
  rw [dropStart?, if_neg]
  rw [List.isPrefixOf_iff_prefix]
  exact fun starts => plain (starts.subset mem)

theorem matchesPath_component (single : '/' ∉ g) :
    matchesPath path g = Glob.matchesText g path := by
  rw [matchesPath, dropStart?_eq_none (c := '/') (by decide) single,
    dropStart?_eq_none (c := '/') (by decide) (mt List.mem_reverse.mp single)]
  simp

/-- A glob of one component, with a slash and two stars behind it, stands for what is below a path
that the glob stands for, and for the path that it spells. -/
theorem matchesPath_below (single : '/' ∉ g) (double : g ≠ ['*', '*']) :
    matchesPath path (g ++ "/**".toList) = true ↔
      (∃ u w, path = u ++ '/' :: w ∧ Glob.matchesText g u = true) ∨ dropTrailing '/' path = g := by
  have unled : dropStart? "**/".toList (g ++ "/**".toList) = none := by
    rw [dropStart?, if_neg]
    intro starts
    -- Three characters that start so would be two stars and a slash, and `g` would be the two stars.
    obtain _ | ⟨a, _ | ⟨b, _ | ⟨c, g⟩⟩⟩ := g
    · simp at starts
    · simp at starts
    · obtain ⟨rfl, rfl⟩ : '*' = a ∧ '*' = b := by simpa using starts
      exact double rfl
    · obtain ⟨-, -, rfl⟩ : '*' = a ∧ '*' = b ∧ '/' = c := by simpa using starts
      simp at single
  have ended : dropStart? "**/".toList (g ++ "/**".toList).reverse = some g.reverse := by
    simp [dropStart?, List.isPrefixOf]
  rw [matchesPath, unled, ended, Bool.or_false, Bool.or_eq_true, Glob.matchesText_below_iff]
  simp

theorem exists_slash_iff (whole : ∀ name ∈ names, '/' ∉ name) (filled : names ≠ []) :
    (∃ u w, joinWith ['/'] names = u ++ '/' :: w ∧ Glob.matchesText g u = true) ↔
      ∃ lead back, lead ≠ [] ∧ back ≠ [] ∧ names = lead ++ back ∧
        Glob.matchesText g (joinWith ['/'] lead) = true := by
  simp only [joinWith_eq_append_cons_iff whole filled]
  constructor
  · rintro ⟨_, _, ⟨lead, back, leads, follows, cut, rfl, rfl⟩, matched⟩
    exact ⟨lead, back, leads, follows, cut, matched⟩
  · rintro ⟨lead, back, leads, follows, cut, matched⟩
    exact ⟨_, _, ⟨lead, back, leads, follows, cut, rfl, rfl⟩, matched⟩

theorem ofLines_slash_start (trimmed : trim line = '/' :: g) (rule : IsPath g [g]) :
    ofLines [line] = { paths := [g, g ++ "/**".toList] } := by
  have joined : slashed g = g := rule.joined
  have unled : g.head? ≠ some '/' := joined ▸ rule.head?_ne
  have unended : g.getLast? ≠ some '/' := joined ▸ rule.getLast?_ne
  have anchored : slashed ('/' :: g) = '/' :: g := congrArg ('/' :: ·) joined
  have bare : dropLeading '/' ('/' :: g) = g := dropLeading_eq_self unled
  simp only [ofLines, List.foldl_cons, List.foldl_nil, add, trimmed, anchored]
  rw [if_neg (by simp), if_pos (by simp), addAnchored, bare, dropTrailing_eq_self unended]
  rfl

theorem ignoresFile_slash_start (trimmed : trim line = '/' :: g) (rule : IsPath g [g])
    (double : g ≠ ['*', '*']) (place : IsPath path names) :
    (ofLines [line]).ignoresFile path = true ↔ LeadMatches g names ∨ names = [g] := by
  have single : '/' ∉ g := rule.whole g (by simp)
  have spelled : dropTrailing '/' (slashed path) = g ↔ names = [g] := by
    rw [dropTrailing_eq_self place.getLast?_ne, place.slashed_eq_iff single]
  rw [ofLines_slash_start trimmed rule]
  -- The first rule speaks of the whole path and the second of what is in front of a slash.
  simp only [ignoresFile, List.any_nil, Bool.false_or, List.any_cons, Bool.or_false,
    Bool.or_eq_true, matchesPath_component single, matchesPath_below single double, spelled]
  rw [← or_assoc, place.joined, exists_slash_iff place.whole place.filled]
  refine or_congr_left ⟨?_, ?_⟩
  · rintro (matched | ⟨lead, back, leads, -, rfl, matched⟩)
    · exact ⟨names, place.filled, List.prefix_rfl, matched⟩
    · exact ⟨lead, leads, List.prefix_append lead back, matched⟩
  · rintro ⟨lead, leads, ⟨back, rfl⟩, matched⟩
    by_cases whole : back = []
    · subst whole
      exact .inl (by simpa using matched)
    · exact .inr ⟨lead, back, leads, whole, rfl, matched⟩

theorem ignoresDirectory_slash_start (trimmed : trim line = '/' :: g) (rule : IsPath g [g])
    (double : g ≠ ['*', '*']) (place : IsPath path names) :
    (ofLines [line]).ignoresDirectory path = true ↔
      LeadMatches g names ∨ names = [g] ∨ Glob.matchesText g (slashed path ++ ['/']) = true := by
  have single : '/' ∉ g := rule.whole g (by simp)
  -- A directory is held against the rules with a slash behind it, as if an empty name followed.
  have followed : slashed path ++ ['/'] = joinWith ['/'] (names ++ [[]]) := by
    rw [place.joined, joinWith_append place.filled (by simp)]
    rfl
  have whole : ∀ name ∈ names ++ [[]], '/' ∉ name := by
    simpa [or_imp, forall_and] using place.whole
  rw [ofLines_slash_start trimmed rule]
  simp only [ignoresDirectory, List.any_nil, List.contains_nil, Bool.false_or, List.any_cons,
    Bool.or_false, Bool.or_eq_true, dropLeading_eq_self place.head?_ne,
    dropTrailing_eq_self place.getLast?_ne, matchesPath_component single,
    matchesPath_below single double, dropTrailing_append_singleton place.getLast?_ne,
    place.slashed_eq_iff single]
  rw [or_comm, or_assoc]
  refine or_congr ?_ Iff.rfl
  rw [followed, exists_slash_iff whole (by simp)]
  constructor
  · rintro ⟨lead, back, leads, follows, cut, matched⟩
    obtain ⟨back, last, rfl⟩ := (List.eq_nil_or_concat back).resolve_left follows
    rw [List.concat_eq_append, ← List.append_assoc] at cut
    exact ⟨lead, leads, ⟨back, (List.append_inj_left' cut rfl).symm⟩, matched⟩
  · rintro ⟨lead, leads, ⟨back, rfl⟩, matched⟩
    exact ⟨lead, back ++ [[]], leads, by simp, List.append_assoc _ _ _, matched⟩

/-- A glob that has no use for slashes stands for the first name or for none of the leading ones. -/
theorem leadMatches_cons_iff (refused : ∀ piece ∈ (Glob.parse g).pieces, piece.accepts '/' = false) :
    LeadMatches g (first :: below) ↔ Glob.matchesText g first = true := by
  refine ⟨?_, leadMatches_cons⟩
  rintro ⟨lead, filled, starts, matched⟩
  obtain ⟨name, others, rfl⟩ := List.exists_cons_of_ne_nil filled
  obtain ⟨rfl, -⟩ := List.cons_prefix_cons.mp starts
  cases others with
  | nil => exact matched
  | cons second others =>
    have plain := Glob.not_mem_of_matchesText matched refused
    simp [joinWith] at plain

/-- A line with a slash at its start and one component behind it leaves out what the component stands
for and everything below, and what it stands for across slashes. -/
theorem ignores_slash_start (trimmed : trim line = '/' :: g) (rule : IsPath g [g])
    (double : g ≠ ['*', '*']) (place : IsPath path (first :: below)) :
    ((ofLines [line]).ignoresFile path = true ↔
      LeadMatches g (first :: below) ∨ first :: below = [g]) ∧
    ((ofLines [line]).ignoresDirectory path = true ↔
      LeadMatches g (first :: below) ∨ first :: below = [g] ∨
        Glob.matchesText g (slashed path ++ ['/']) = true) ∧
    (Glob.matchesText g first = true →
      (ofLines [line]).ignoresFile path = true ∧ (ofLines [line]).ignoresDirectory path = true) ∧
    ((∀ piece ∈ (Glob.parse g).pieces, piece.accepts '/' = false) →
      ((ofLines [line]).ignoresFile path = true ↔
        Glob.matchesText g first = true ∨ first :: below = [g]) ∧
      ((ofLines [line]).ignoresDirectory path = true ↔
        Glob.matchesText g first = true ∨ first :: below = [g])) := by
  have file := ignoresFile_slash_start trimmed rule double place
  have directory := ignoresDirectory_slash_start trimmed rule double place
  refine ⟨file, directory, fun matched => ?_, fun refused => ?_⟩
  · have leads : LeadMatches g (first :: below) := leadMatches_cons matched
    exact ⟨file.mpr (.inl leads), directory.mpr (.inl leads)⟩
  · have unfollowed : ¬Glob.matchesText g (slashed path ++ ['/']) = true :=
      fun matched => Glob.not_mem_of_matchesText matched refused (by simp)
    rw [leadMatches_cons_iff refused] at file directory
    rw [or_iff_left unfollowed] at directory
    exact ⟨file, directory⟩

/-- Everything below a directory at the root is left out by a glob for its name. -/
theorem ignores_slash_start_directory :
    trim " /b*d".toList = '/' :: "b*d".toList ∧ Glob.matchesText "b*d".toList "build".toList = true ∧
      (ofLines [" /b*d".toList]).ignoresFile "build/out/a.o".toList = true :=
  have trimmed : trim " /b*d".toList = '/' :: "b*d".toList := by decide
  have matched : Glob.matchesText "b*d".toList "build".toList = true := by decide
  have place : IsPath "build/out/a.o".toList ["build".toList, "out".toList, "a.o".toList] :=
    ⟨by decide, by decide, by decide⟩
  ⟨trimmed, matched, ((ignores_slash_start trimmed ⟨by decide, by decide, by decide⟩ (by decide)
    place).2.2.1 matched).1⟩

/-- A glob at the root leaves out what is not at the root: its star also stands for the directory. -/
theorem ignores_slash_start_deep :
    IsPath "src/a.js".toList ["src".toList, "a.js".toList] ∧
      Glob.matchesText "*.js".toList "src".toList = false ∧
      (ofLines ["/*.js".toList]).ignoresFile "src/a.js".toList = true ∧
      (ofLines ["/*.js".toList]).ignoresDirectory "src/a.js".toList = true :=
  ⟨⟨by decide, by decide, by decide⟩, by decide, by decide, by decide⟩

end Anchored

end IgnoreRules

end CodeAtlas
