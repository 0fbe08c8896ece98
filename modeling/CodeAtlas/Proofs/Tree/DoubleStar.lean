import CodeAtlas.Proofs.Tree.Ignore

/-!
# Two stars in a line of ignore rules

A line of literal names with two stars among them is kept as a rule for whole paths, where the
stars stand for any text. Between two slashes this is a text with a slash on either side, so that
the stars stand for any names but not for none. At the start of a line the rule is also tried
without the stars and their slash, and at its end the path in front of them satisfies it too: there
the stars stand for any names, and for none.

## Main results

`IgnoreRules.ignores_double_star`: what a line with two stars inside, at its start or at its end
leaves out.
-/

namespace CodeAtlas

namespace IgnoreRules

open Text

/-- The name that stands for any names. -/
def stars : List Char :=
  "**".toList

section Stars

variable {line path rule rest : List Char} {names front back : List (List Char)}

/-! ## Rules for whole paths -/

theorem dropStart?_append (start rest : List Char) :
    dropStart? start (start ++ rest) = some rest := by
  simp [dropStart?]

theorem dropStart?_eq_none_of_head {c : Char} {start text : List Char}
    (other : text.head? ≠ some c) : dropStart? (c :: start) text = none := by
  cases text with
  | nil => rfl
  | cons d text =>
    have differs : c ≠ d := fun same => other (congrArg some same.symm)
    simp [dropStart?, List.isPrefixOf, differs]

theorem matchesPath_inner (starts : rule.head? ≠ some '*') (ends : rule.getLast? ≠ some '*') :
    matchesPath path rule = Glob.matchesText rule path := by
  have unled : dropStart? "**/".toList rule = none := dropStart?_eq_none_of_head starts
  have unended : dropStart? "**/".toList rule.reverse = none :=
    dropStart?_eq_none_of_head (by rwa [List.head?_reverse])
  rw [matchesPath, unled, unended, Bool.or_false, Bool.or_false]

theorem matchesPath_start (filled : rest ≠ []) (ends : rest.getLast? ≠ some '*') :
    matchesPath path (stars ++ '/' :: rest) =
      (Glob.matchesText (stars ++ '/' :: rest) path || Glob.matchesText rest path) := by
  have led : dropStart? "**/".toList (stars ++ '/' :: rest) = some rest :=
    dropStart?_append "**/".toList rest
  have unended : dropStart? "**/".toList (stars ++ '/' :: rest).reverse = none := by
    refine dropStart?_eq_none_of_head ?_
    rw [List.head?_reverse, List.getLast?_append_of_ne_nil _ (by simp),
      List.getLast?_cons_of_ne_nil filled]
    exact ends
  rw [matchesPath, led, unended, Bool.or_false]

theorem matchesPath_end (filled : rest ≠ []) (starts : rest.head? ≠ some '*') :
    matchesPath path (rest ++ '/' :: stars) =
      (Glob.matchesText (rest ++ '/' :: stars) path || dropTrailing '/' path == rest) := by
  have unled : dropStart? "**/".toList (rest ++ '/' :: stars) = none := by
    refine dropStart?_eq_none_of_head ?_
    rwa [List.head?_append_of_ne_nil _ filled]
  have ended : dropStart? "**/".toList (rest ++ '/' :: stars).reverse = some rest.reverse := by
    rw [List.reverse_append]
    exact dropStart?_append "**/".toList rest.reverse
  simp only [matchesPath, unled, ended, Bool.or_false, List.reverse_reverse]

/-- A line with a slash inside is a rule for whole paths. -/
theorem ofLines_path (given : IsPath (trim line) (front ++ back)) (front_filled : front ≠ [])
    (back_filled : back ≠ []) (unmarked : (trim line).head? ≠ some '#') :
    ofLines [line] = { paths := [joinWith ['/'] (front ++ back)] } := by
  have blankless : (trim line).isEmpty = false := by
    rw [List.isEmpty_eq_false_iff]
    exact given.path_ne_nil
  have starts : joinWith ['/'] (front ++ back) = slashed (trim line) := given.joined.symm
  have unanchored : (joinWith ['/'] (front ++ back)).head? ≠ some '/' := starts ▸ given.head?_ne
  have unended : (joinWith ['/'] (front ++ back)).getLast? ≠ some '/' := starts ▸ given.getLast?_ne
  have inside : '/' ∈ joinWith ['/'] (front ++ back) := by
    rw [joinWith_append front_filled back_filled]
    simp
  simp only [ofLines, List.foldl_cons, List.foldl_nil, add, given.joined]
  rw [if_neg (by simpa [blankless] using unmarked), if_neg (by simpa using unanchored),
    if_neg (by simpa using unended), if_pos (by simp [inside])]
  rfl

/-! ## Literal names -/

theorem literal_joinWith (literal : ∀ name ∈ names, Glob.Literal name) :
    Glob.Literal (joinWith ['/'] names) := by
  induction names with
  | nil => exact fun c mem => by cases mem
  | cons name names ih =>
    obtain ⟨here, later⟩ := List.forall_mem_cons.mp literal
    cases names with
    | nil => exact here
    | cons second others =>
      rw [joinWith, List.append_assoc]
      exact List.forall_mem_append.mpr ⟨here, List.forall_mem_append.mpr ⟨by decide, ih later⟩⟩

/-! ## Names and stars -/

section Names

variable (whole : ∀ name ∈ names, '/' ∉ name) (filled : names ≠ [])

include whole filled

theorem joinWith_behind_iff (front_whole : ∀ name ∈ front, '/' ∉ name) (front_filled : front ≠ []) :
    (∃ m, joinWith ['/'] names = joinWith ['/'] front ++ '/' :: m) ↔
      ∃ d, d ≠ [] ∧ names = front ++ d := by
  simp only [joinWith_eq_append_cons_iff whole filled]
  constructor
  · rintro ⟨_, front', d, front'_filled, d_filled, rfl, same, -⟩
    obtain rfl := (joinWith_inj front_whole (fun name mem => whole name (by simp [mem]))
      front_filled front'_filled).mp same
    exact ⟨d, d_filled, rfl⟩
  · rintro ⟨d, d_filled, rfl⟩
    exact ⟨_, front, d, front_filled, d_filled, rfl, rfl, rfl⟩

theorem joinWith_before_iff (back_whole : ∀ name ∈ back, '/' ∉ name) (back_filled : back ≠ []) :
    (∃ m, joinWith ['/'] names = m ++ '/' :: joinWith ['/'] back) ↔
      ∃ d, d ≠ [] ∧ names = d ++ back := by
  simp only [joinWith_eq_append_cons_iff whole filled]
  constructor
  · rintro ⟨_, d, back', d_filled, back'_filled, rfl, -, same⟩
    obtain rfl := (joinWith_inj back_whole (fun name mem => whole name (by simp [mem]))
      back_filled back'_filled).mp same
    exact ⟨d, d_filled, rfl⟩
  · rintro ⟨d, d_filled, rfl⟩
    exact ⟨_, d, back, d_filled, back_filled, rfl, rfl, rfl⟩

theorem joinWith_between_iff (front_whole : ∀ name ∈ front, '/' ∉ name) (front_filled : front ≠ [])
    (back_whole : ∀ name ∈ back, '/' ∉ name) (back_filled : back ≠ []) :
    (∃ m, joinWith ['/'] names =
        joinWith ['/'] front ++ '/' :: (m ++ '/' :: joinWith ['/'] back)) ↔
      ∃ d, d ≠ [] ∧ names = front ++ (d ++ back) := by
  constructor
  · rintro ⟨m, cut⟩
    obtain ⟨rest, rest_filled, rfl⟩ :=
      (joinWith_behind_iff whole filled front_whole front_filled).mp ⟨_, cut⟩
    have behind : joinWith ['/'] rest = m ++ '/' :: joinWith ['/'] back := by
      rw [joinWith_append front_filled rest_filled] at cut
      simpa using cut
    obtain ⟨d, d_filled, rfl⟩ := (joinWith_before_iff (fun name mem => whole name (by simp [mem]))
      rest_filled back_whole back_filled).mp ⟨m, behind⟩
    exact ⟨d, d_filled, rfl⟩
  · rintro ⟨d, d_filled, rfl⟩
    refine ⟨joinWith ['/'] d, ?_⟩
    rw [joinWith_append front_filled (by simp [d_filled]), joinWith_append d_filled back_filled]
    rfl

end Names

/-! ## Lines with stars -/

section Lines

theorem literal_slash_cons (literal : ∀ name ∈ back, Glob.Literal name) :
    Glob.Literal ('/' :: joinWith ['/'] back) :=
  List.forall_mem_cons.mpr ⟨by decide, literal_joinWith literal⟩

theorem literal_concat_slash (literal : ∀ name ∈ front, Glob.Literal name) :
    Glob.Literal (joinWith ['/'] front ++ ['/']) :=
  List.forall_mem_append.mpr ⟨literal_joinWith literal, by decide⟩

theorem head?_ne_star (is : IsPath path (front ++ back)) (filled : front ≠ [])
    (literal : ∀ name ∈ front, Glob.Literal name) : (slashed path).head? ≠ some '*' := by
  obtain ⟨first, front, rfl⟩ := List.exists_cons_of_ne_nil filled
  rw [is.head?_eq]
  exact fun star => (literal first List.mem_cons_self '*' (List.mem_of_head? star)).1 rfl

theorem getLast?_ne_star (is : IsPath path (front ++ back)) (filled : back ≠ [])
    (literal : ∀ name ∈ back, Glob.Literal name) : (slashed path).getLast? ≠ some '*' := by
  obtain ⟨parents, last, rfl⟩ := (List.eq_nil_or_concat back).resolve_left filled
  rw [List.concat_eq_append, ← List.append_assoc] at is
  rw [is.getLast?_eq]
  exact fun star => (literal last (by simp) '*' (List.mem_of_getLast? star)).1 rfl

/-- Some names, or none, are any names. -/
theorem any_or_none_iff (p : List (List Char) → Prop) {none : Prop} (none_iff : none ↔ p []) :
    (∃ d, d ≠ [] ∧ p d) ∨ none ↔ ∃ d, p d := by
  rw [none_iff]
  constructor
  · rintro (⟨d, -, holds⟩ | holds)
    · exact ⟨d, holds⟩
    · exact ⟨[], holds⟩
  · rintro ⟨d, holds⟩
    by_cases empty : d = []
    · exact .inr (empty ▸ holds)
    · exact .inl ⟨d, empty, holds⟩

/-- Stars inside a line stand for one name or more. -/
theorem ignoresFile_stars_inner (given : IsPath (trim line) (front ++ stars :: back))
    (front_filled : front ≠ []) (back_filled : back ≠ [])
    (literal_front : ∀ name ∈ front, Glob.Literal name)
    (literal_back : ∀ name ∈ back, Glob.Literal name)
    (unmarked : (trim line).head? ≠ some '#') (place : IsPath path names) :
    (ofLines [line]).ignoresFile path = true ↔ ∃ d, d ≠ [] ∧ names = front ++ (d ++ back) := by
  have written : joinWith ['/'] (front ++ stars :: back) =
      (joinWith ['/'] front ++ ['/']) ++ '*' :: '*' :: ('/' :: joinWith ['/'] back) := by
    rw [joinWith_append front_filled (List.cons_ne_nil stars back), joinWith_cons back_filled,
      List.append_assoc]
    rfl
  -- Literal names neither start nor end with a star: the rule is held against whole paths only.
  have front_stars : front ++ stars :: back = (front ++ [stars]) ++ back :=
    List.append_cons front stars back
  have starts := head?_ne_star given front_filled literal_front
  have ends : (slashed (trim line)).getLast? ≠ some '*' :=
    getLast?_ne_star (front_stars ▸ given) back_filled literal_back
  rw [given.joined] at starts ends
  have front_whole : ∀ name ∈ front, '/' ∉ name := fun name mem => given.whole name (by simp [mem])
  have back_whole : ∀ name ∈ back, '/' ∉ name := fun name mem => given.whole name (by simp [mem])
  rw [ofLines_path given front_filled (List.cons_ne_nil stars back) unmarked]
  simp only [ignoresFile, List.any_nil, Bool.false_or, List.any_cons, Bool.or_false,
    matchesPath_inner starts ends]
  rw [written, Glob.matchesText_stars_iff (literal_concat_slash literal_front)
    (literal_slash_cons literal_back), place.joined]
  simp only [List.append_assoc, List.singleton_append]
  exact joinWith_between_iff place.whole place.filled front_whole front_filled back_whole
    back_filled

/-- Stars at the start of a line stand for any names, and for none. -/
theorem ignoresFile_stars_start (given : IsPath (trim line) (stars :: back))
    (back_filled : back ≠ []) (literal : ∀ name ∈ back, Glob.Literal name)
    (place : IsPath path names) :
    (ofLines [line]).ignoresFile path = true ↔ ∃ d, names = d ++ back := by
  have written : joinWith ['/'] (stars :: back) = stars ++ '/' :: joinWith ['/'] back :=
    joinWith_cons back_filled
  have unmarked : (trim line).head? ≠ some '#' := by
    intro mark
    have starts := given.head?_eq
    rw [slashed, List.head?_map, mark] at starts
    exact absurd starts (by decide)
  have back_whole : ∀ name ∈ back, '/' ∉ name := fun name mem => given.whole name (by simp [mem])
  have filled : joinWith ['/'] back ≠ [] :=
    joinWith_ne_nil (fun name mem => (given.named name (by simp [mem])).1) back_filled
  have ends : (joinWith ['/'] back).getLast? ≠ some '*' :=
    fun star => (literal_joinWith literal '*' (List.mem_of_getLast? star)).1 rfl
  have read : ofLines [line] = { paths := [joinWith ['/'] (stars :: back)] } :=
    ofLines_path given (List.cons_ne_nil stars []) back_filled unmarked
  simp only [read, ignoresFile, List.any_nil, Bool.false_or, List.any_cons, Bool.or_false, written,
    matchesPath_start filled ends, Bool.or_eq_true, place.joined]
  -- With its stars the rule asks for a slash in front of the names; without them, for nothing.
  have between : stars ++ '/' :: joinWith ['/'] back =
      [] ++ '*' :: '*' :: ('/' :: joinWith ['/'] back) := rfl
  rw [Glob.matchesText_literal_iff (literal_joinWith literal), between,
    Glob.matchesText_stars_iff (by decide) (literal_slash_cons literal)]
  simp only [List.nil_append]
  rw [joinWith_before_iff place.whole place.filled back_whole back_filled,
    joinWith_inj place.whole back_whole place.filled back_filled]
  exact any_or_none_iff (fun d => names = d ++ back) Iff.rfl

/-- Stars at the end of a line stand for any names, and for none. -/
theorem ignores_stars_end (given : IsPath (trim line) (front ++ [stars]))
    (front_filled : front ≠ []) (literal : ∀ name ∈ front, Glob.Literal name)
    (unmarked : (trim line).head? ≠ some '#') (place : IsPath path names) :
    ((ofLines [line]).ignoresFile path = true ↔ ∃ d, names = front ++ d) ∧
      ((ofLines [line]).ignoresDirectory path = true ↔ ∃ d, names = front ++ d) := by
  have written : joinWith ['/'] (front ++ [stars]) = joinWith ['/'] front ++ '/' :: stars :=
    joinWith_append front_filled (List.cons_ne_nil stars [])
  have front_whole : ∀ name ∈ front, '/' ∉ name := fun name mem => given.whole name (by simp [mem])
  have filled : joinWith ['/'] front ≠ [] :=
    joinWith_ne_nil (fun name mem => (given.named name (by simp [mem])).1) front_filled
  have starts : (joinWith ['/'] front).head? ≠ some '*' :=
    fun star => (literal_joinWith literal '*' (List.mem_of_head? star)).1 rfl
  have below (text : List Char) :
      Glob.matchesText (joinWith ['/'] front ++ '/' :: stars) text = true ↔
        ∃ m, text = joinWith ['/'] front ++ '/' :: m := by
    have between : joinWith ['/'] front ++ '/' :: stars =
        (joinWith ['/'] front ++ ['/']) ++ '*' :: '*' :: [] := by simp [stars]
    rw [between, Glob.matchesText_stars_iff (literal_concat_slash literal) (by decide)]
    simp
  have unended : (joinWith ['/'] names).getLast? ≠ some '/' := place.joined ▸ place.getLast?_ne
  have unled : (joinWith ['/'] names).head? ≠ some '/' := place.joined ▸ place.head?_ne
  have same : joinWith ['/'] names = joinWith ['/'] front ↔ names = front :=
    joinWith_inj place.whole front_whole place.filled front_filled
  rw [ofLines_path given front_filled (List.cons_ne_nil stars []) unmarked]
  simp only [ignoresFile, ignoresDirectory, List.any_nil, List.contains_nil, Bool.false_or,
    List.any_cons, Bool.or_false, written, matchesPath_end filled starts, Bool.or_eq_true,
    beq_iff_eq, place.joined, below, dropLeading_eq_self unled, dropTrailing_eq_self unended,
    dropTrailing_append_singleton unended, same]
  constructor
  · rw [joinWith_behind_iff place.whole place.filled front_whole front_filled]
    exact any_or_none_iff (fun d => names = front ++ d) (by rw [List.append_nil])
  · -- A directory is held against the rule with a slash behind it, as if an empty name followed.
    have followed : joinWith ['/'] names ++ ['/'] = joinWith ['/'] (names ++ [[]]) :=
      (joinWith_append place.filled (List.cons_ne_nil [] [])).symm
    have whole : ∀ name ∈ names ++ [[]], '/' ∉ name := by
      simpa [or_imp, forall_and] using place.whole
    rw [followed, joinWith_behind_iff whole (by simp) front_whole front_filled]
    constructor
    · rintro (⟨d, d_filled, cut⟩ | rfl)
      · obtain ⟨d, last, rfl⟩ := (List.eq_nil_or_concat d).resolve_left d_filled
        rw [List.concat_eq_append, ← List.append_assoc] at cut
        exact ⟨d, List.append_inj_left' cut rfl⟩
      · exact ⟨[], (List.append_nil names).symm⟩
    · rintro ⟨d, rfl⟩
      exact .inl ⟨d ++ [[]], by simp, List.append_assoc front d [[]]⟩

/-- Two stars at the start or at the end of a line of literal names stand for any names, and for
none; two stars inside it stand for any names, but not for none. -/
theorem ignores_double_star (front_filled : front ≠ []) (back_filled : back ≠ [])
    (literal : ∀ name ∈ front ++ back, Glob.Literal name) :
    (∀ {line}, IsPath (trim line) (front ++ stars :: back) → (trim line).head? ≠ some '#' →
      ∀ {path names}, IsPath path names →
        ((ofLines [line]).ignoresFile path = true ↔
          ∃ d, d ≠ [] ∧ names = front ++ (d ++ back))) ∧
    (∀ {line}, IsPath (trim line) (stars :: back) →
      ∀ {path names}, IsPath path names →
        ((ofLines [line]).ignoresFile path = true ↔ ∃ d, names = d ++ back)) ∧
    (∀ {line}, IsPath (trim line) (front ++ [stars]) → (trim line).head? ≠ some '#' →
      ∀ {path names}, IsPath path names →
        ((ofLines [line]).ignoresFile path = true ↔ ∃ d, names = front ++ d) ∧
        ((ofLines [line]).ignoresDirectory path = true ↔ ∃ d, names = front ++ d)) := by
  obtain ⟨literal_front, literal_back⟩ := List.forall_mem_append.mp literal
  refine ⟨fun given unmarked _ _ place => ?_, fun given _ _ place => ?_,
    fun given unmarked _ _ place => ?_⟩
  · exact ignoresFile_stars_inner given front_filled back_filled literal_front literal_back unmarked
      place
  · exact ignoresFile_stars_start given back_filled literal_back place
  · exact ignores_stars_end given front_filled literal_front unmarked place

/-- Stars inside a line pass over two directories, those at its start over none, and those at its
end leave out the directory in front of them. -/
theorem ignores_double_star_deep :
    (ofLines ["docs/**/img/a.png".toList]).ignoresFile "docs/v1/en/img/a.png".toList = true ∧
      (ofLines ["**/img/a.png".toList]).ignoresFile "img/a.png".toList = true ∧
      (ofLines ["docs/**".toList]).ignoresDirectory "docs".toList = true := by
  have inner : IsPath (trim "docs/**/img/a.png".toList)
      (["docs".toList] ++ stars :: ["img".toList, "a.png".toList]) :=
    ⟨by decide, by decide, by decide⟩
  have start : IsPath (trim "**/img/a.png".toList) (stars :: ["img".toList, "a.png".toList]) :=
    ⟨by decide, by decide, by decide⟩
  have stop : IsPath (trim "docs/**".toList) (["docs".toList] ++ [stars]) :=
    ⟨by decide, by decide, by decide⟩
  have deep : IsPath "docs/v1/en/img/a.png".toList
      ["docs".toList, "v1".toList, "en".toList, "img".toList, "a.png".toList] :=
    ⟨by decide, by decide, by decide⟩
  have flat : IsPath "img/a.png".toList ["img".toList, "a.png".toList] :=
    ⟨by decide, by decide, by decide⟩
  have above : IsPath "docs".toList ["docs".toList] := ⟨by decide, by decide, by decide⟩
  obtain ⟨inner_iff, start_iff, stop_iff⟩ :=
    ignores_double_star (List.cons_ne_nil "docs".toList [])
      (List.cons_ne_nil "img".toList ["a.png".toList]) (by decide)
  exact ⟨(inner_iff inner (by decide) deep).mpr ⟨["v1".toList, "en".toList], by decide, rfl⟩,
    (start_iff start flat).mpr ⟨[], rfl⟩, (stop_iff stop (by decide) above).2.mpr ⟨[], rfl⟩⟩

/-- Stars inside a line do not pass over no directory at all, as those at its start do. -/
theorem ignores_double_star_none :
    IsPath "a/b".toList (["a".toList] ++ [] ++ ["b".toList]) ∧
      (ofLines ["a/**/b".toList]).ignoresFile "a/b".toList = false ∧
      (ofLines ["**/b".toList]).ignoresFile "b".toList = true :=
  ⟨⟨by decide, by decide, by decide⟩, by decide, by decide⟩

end Lines

end Stars

end IgnoreRules

end CodeAtlas
