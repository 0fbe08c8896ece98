import CodeAtlas.Proofs.Pattern.Spelling
import CodeAtlas.Proofs.Pattern.Yield
import Mathlib.Data.List.Basic

/-!
# Where matches are found

The matcher tries every way through a pattern, so it finds a match wherever there is one. A search
passes over the places that a match covers. When no match starts at a place that another one covers,
nothing is lost: the search finds the matches at all places of the text, and how many there are does
not depend on the order in which the places are looked at.

## Main results

`Pattern.matchAt?_isSome_iff`: there is a match at a cursor just when there is a way from there.
`Pattern.Apart.findAll`: matches that keep apart are found at every place.

## Proof strategy

By induction on the pattern, as in the converse: what follows is arbitrary, and it is enough that it
can go on from the end of the way. A round that passes over nothing can be left out.
-/

namespace CodeAtlas

/-! ## Every way is found -/

namespace Cursor

variable {c d : Cursor} {accepts : Char → Bool} {limit : Option Nat}

/-- A run ends where it starts or goes on with a character. -/
theorem Runs.stay_or_step (runs : Runs accepts limit c d) :
    d = c ∨ ∃ x rest, c.rest = x :: rest ∧ limit ≠ some 0 ∧ accepts x = true ∧
      Runs accepts (limit.map (· - 1)) ⟨some x, rest, c.offset + 1⟩ d := by
  obtain ⟨_ | ⟨x, passed⟩, passes, accepted, short⟩ := runs
  · exact .inl passes.eq_of_nil
  · obtain ⟨here, later⟩ := List.forall_mem_cons.mp accepted
    refine .inr ⟨x, passed ++ d.rest, passes.rest, ?_, here, passed, ?_, later, ?_⟩
    · rintro rfl
      exact absurd (short 0 rfl) (by simp)
    · refine ⟨rfl, ?_, ?_⟩
      · rw [passes.offset, List.length_cons, Nat.add_assoc, Nat.add_comm 1]
      · rw [passes.before, List.getLast?_cons]
        cases passed.getLast? <;> rfl
    · intro n mem
      obtain ⟨m, rfl, rfl⟩ := Option.map_eq_some_iff.mp mem
      have := short m rfl
      simp only [List.length_cons] at this
      omega

end Cursor

namespace Pattern

variable {p : Pattern} {c d : Cursor} {new : Captures} {accepts : Char → Bool}
  {limit : Option Nat} {follow : Follow}

theorem mem_runEnds_of_mem {ends : List Cursor} {before : Option Char} {rest : List Char}
    {offset : Nat} (mem : d ∈ ⟨before, rest, offset⟩ :: ends) :
    d ∈ runEnds accepts limit ends before rest offset := by
  induction rest generalizing limit ends before offset with
  | nil => exact mem
  | cons x rest ih =>
    rw [runEnds.eq_def]
    simp only
    split
    · exact mem
    · split
      · exact ih (List.mem_cons_of_mem _ mem)
      · exact mem

theorem mem_runEnds {ends : List Cursor} {before : Option Char} {rest : List Char} {offset : Nat}
    (runs : Cursor.Runs accepts limit ⟨before, rest, offset⟩ d) :
    d ∈ runEnds accepts limit ends before rest offset := by
  induction rest generalizing limit ends before offset with
  | nil =>
    rcases runs.stay_or_step with rfl | ⟨x, rest, more, -⟩
    · exact mem_runEnds_of_mem List.mem_cons_self
    · cases more
  | cons y rest ih =>
    rcases runs.stay_or_step with rfl | ⟨x, rest', more, open_, accepted, runs⟩
    · exact mem_runEnds_of_mem List.mem_cons_self
    · obtain ⟨rfl, rfl⟩ := List.cons.inj more
      rw [runEnds.eq_def]
      simp only [accepted, if_true]
      exact ih runs

theorem isSome_runShortest {captures : Captures} {before : Option Char} {rest : List Char}
    {offset : Nat} (runs : Cursor.Runs accepts limit ⟨before, rest, offset⟩ d)
    (goes : (follow d captures).isSome = true) :
    (runShortest accepts limit follow captures before rest offset).isSome = true := by
  induction rest generalizing limit before offset with
  | nil =>
    rw [runShortest.eq_def]
    rcases runs.stay_or_step with rfl | ⟨x, rest, more, -⟩
    · obtain ⟨found, goes⟩ := Option.isSome_iff_exists.mp goes
      simp [goes]
    · cases more
  | cons y rest ih =>
    rw [runShortest.eq_def]
    split
    · rfl
    · next stops =>
      rcases runs.stay_or_step with rfl | ⟨x, rest', more, open_, accepted, runs⟩
      · rw [stops] at goes
        cases goes
      · obtain ⟨rfl, rfl⟩ := List.cons.inj more
        simp only [accepted, if_true]
        exact ih runs

theorem isSome_rounds {body : Pattern}
    (found : ∀ {c d new follow}, body.Yields c d new →
      (∀ captures, (follow d captures).isSome = true) →
      ∀ captures, (body.match? follow c captures).isSome = true)
    (yields : (many body).Yields c d new) (goes : ∀ captures, (follow d captures).isSome = true)
    (captures : Captures) : (rounds body.match? follow c captures).isSome = true := by
  generalize same : many body = q at yields
  induction yields generalizing captures with
  | done =>
    rw [rounds]
    split
    · rfl
    · exact goes captures
  | @round _ c m d new newer head tail _ ih =>
    obtain rfl := many.inj same
    obtain ⟨passed, passes⟩ := head.passes
    cases passed with
    | nil =>
      -- A round over nothing leads nowhere else.
      obtain rfl := passes.eq_of_nil
      exact ih goes captures rfl
    | cons x passed =>
      have shorter : m.rest.length < c.rest.length := by
        rw [passes.rest, List.length_append, List.length_cons]
        omega
      let again : Follow := fun next captures =>
        if next.rest.length < c.rest.length then rounds body.match? follow next captures else none
      have goesOn (captures : Captures) : (again m captures).isSome = true := by
        simp only [again, if_pos shorter]
        exact ih goes captures rfl
      -- The body is followed by further rounds first, and those succeed.
      rw [rounds]
      obtain ⟨done, again⟩ := Option.isSome_iff_exists.mp (found head goesOn captures)
      rw [again]
      rfl
  | _ => cases same

/-- The matcher finds a match when there is a way that what follows can go on from. -/
theorem Yields.isSome_match? (yields : p.Yields c d new)
    (goes : ∀ captures, (follow d captures).isSome = true) (captures : Captures) :
    (p.match? follow c captures).isSome = true := by
  induction p generalizing c d new follow captures with
  | here =>
    cases yields
    exact goes captures
  | one accepts =>
    cases yields with
    | one accepted =>
      rw [match?]
      simp only [accepted, if_true]
      exact goes captures
  | seq first second ihFirst ihSecond =>
    cases yields with
    | seq head tail =>
      rw [match?]
      exact ihFirst head (fun captures => ihSecond tail goes captures) captures
  | either first second ihFirst ihSecond =>
    rw [match?]
    cases yields with
    | left taken =>
      obtain ⟨found, taken⟩ := Option.isSome_iff_exists.mp (ihFirst taken goes captures)
      rw [taken]
      rfl
    | right taken =>
      split
      · rfl
      · exact ihSecond taken goes captures
  | run preference limit accepts =>
    cases yields with
    | run runs =>
      cases preference with
      | more =>
        rw [match?, List.findSome?_isSome_iff]
        exact ⟨d, mem_runEnds runs, goes captures⟩
      | fewer =>
        rw [match?]
        exact isSome_runShortest runs (goes captures)
  | many body ih =>
    rw [match?]
    exact isSome_rounds ih yields goes captures
  | capture name body ih =>
    cases yields with
    | capture inside =>
      rw [match?]
      refine ih inside (fun captures => ?_) captures
      exact goes _
  | boundary =>
    cases yields with
    | boundary stands =>
      rw [match?, if_pos stands]
      exact goes captures
  | lineStart =>
    cases yields with
    | lineStart stands =>
      rw [match?, if_pos stands]
      exact goes captures
  | textEnd =>
    cases yields with
    | textEnd stands =>
      rw [match?, if_pos stands]
      exact goes captures
  | absent body ih =>
    cases yields with
    | absent fails =>
      rw [match?]
      split
      · next matched =>
        -- What is recorded so far makes no difference to whether the body matches.
        obtain ⟨m, new, inside, -⟩ := exists_yields matched
        have found (captures : Captures) :
            (body.match? (fun stop captures => some (stop, captures)) c captures).isSome = true :=
          ih inside (fun _ => rfl) captures
        have missed := congrArg Option.isSome fails
        rw [found] at missed
        cases missed
      · exact goes captures

theorem matchAt?_isSome_iff : (p.matchAt? c).isSome = true ↔ ∃ d new, p.Yields c d new := by
  constructor
  · intro matched
    obtain ⟨m, matched⟩ := Option.isSome_iff_exists.mp matched
    exact ⟨_, _, (matchAt?_yields matched).2⟩
  · rintro ⟨d, new, yields⟩
    rw [matchAt?, Option.isSome_map]
    exact yields.isSome_match? (fun _ => rfl) []

end Pattern

/-! ## All places of a text -/

/-- The cursors of a text, one behind the other. -/
def Cursor.places (before : Option Char) (offset : Nat) : List Char → List Cursor
  | [] => [⟨before, [], offset⟩]
  | c :: rest => ⟨before, c :: rest, offset⟩ :: places (some c) (offset + 1) rest

/-- The cursors of a text by their offsets. -/
theorem Cursor.places_eq_map_range (before : Option Char) (offset : Nat) (rest : List Char) :
    places before offset rest = (List.range (rest.length + 1)).map fun i =>
      ⟨(rest.take i).getLast?.or before, rest.drop i, offset + i⟩ := by
  induction rest generalizing before offset with
  | nil => rfl
  | cons c rest ih =>
    rw [places, ih, List.length_cons, @List.range_succ_eq_map (rest.length + 1), List.map_cons,
      List.map_map]
    refine congrArg₂ List.cons rfl (List.map_congr_left fun i _ => ?_)
    rw [Function.comp_apply, List.take_succ_cons, List.drop_succ_cons, List.getLast?_cons,
      Nat.add_assoc, Nat.add_comm 1]
    cases (rest.take i).getLast? <;> rfl

/-- Of two stretches from one cursor, the shorter one goes on to the end of the longer one. -/
theorem Cursor.Passes.split {c d e : Cursor} {u w : List Char} (first : c.Passes u e)
    (whole : c.Passes w d) (le : u.length ≤ w.length) : ∃ v, w = u ++ v ∧ e.Passes v d := by
  have text : u ++ e.rest = w ++ d.rest := first.rest.symm.trans whole.rest
  obtain ⟨v, rfl⟩ : u <+: w :=
    List.prefix_of_prefix_length_le ⟨e.rest, rfl⟩ ⟨d.rest, text.symm⟩ le
  rw [List.append_assoc, List.append_cancel_left_eq] at text
  refine ⟨v, rfl, text, ?_, ?_⟩
  · rw [whole.offset, first.offset, List.length_append, Nat.add_assoc]
  · rw [whole.before, first.before, List.getLast?_append, Option.or_assoc]

theorem Cursor.exists_places_append (before : Option Char) (offset : Nat)
    (front rest : List Char) : ∃ places', places before offset (front ++ rest) =
      places' ++ places (front.getLast?.or before) (offset + front.length) rest := by
  induction front generalizing before offset with
  | nil => exact ⟨[], rfl⟩
  | cons c front ih =>
    obtain ⟨places', split⟩ := ih (some c) (offset + 1)
    refine ⟨⟨before, c :: (front ++ rest), offset⟩ :: places', ?_⟩
    rw [List.cons_append, places, split, List.cons_append, List.getLast?_cons, List.length_cons,
      Nat.add_assoc, Nat.add_comm 1]
    cases front.getLast? <;> rfl

/-- The first places are those that can be reached by passing less than a given number of
characters. -/
theorem Cursor.passes_of_mem_take {before : Option Char} {offset n : Nat} {rest : List Char}
    {d : Cursor} (mem : d ∈ (places before offset rest).take n) :
    ∃ passed, Passes ⟨before, rest, offset⟩ passed d ∧ passed.length < n := by
  induction rest generalizing before offset n with
  | nil =>
    cases n with
    | zero => simp at mem
    | succ n =>
      obtain rfl : d = ⟨before, [], offset⟩ := by simpa [places] using mem
      exact ⟨[], .refl _, Nat.succ_pos n⟩
  | cons c rest ih =>
    cases n with
    | zero => simp at mem
    | succ n =>
      rw [places, List.take_succ_cons] at mem
      rcases List.mem_cons.mp mem with rfl | mem
      · exact ⟨[], .refl _, Nat.succ_pos n⟩
      · obtain ⟨passed, passes, short⟩ := ih mem
        exact ⟨c :: passed, (Passes.one before c rest offset).trans passes, Nat.succ_lt_succ short⟩

namespace Pattern

variable {p : Pattern}

/-- No match starts at a place that another match covers. -/
def Apart (p : Pattern) : Prop :=
  ∀ ⦃c d e : Cursor⦄ ⦃new : Captures⦄ ⦃u v : List Char⦄, p.Yields c d new → c.Passes u e →
    e.Passes v d → u ≠ [] → v ≠ [] → p.matchAt? e = none

theorem Apart.findAll_go (apart : p.Apart) {before : Option Char} {offset skip : Nat}
    {rest : List Char}
    (covered : ∀ d ∈ (Cursor.places before offset rest).take skip, p.matchAt? d = none) :
    findAll.go p before offset skip rest =
      (Cursor.places before offset rest).filterMap p.matchAt? := by
  induction rest generalizing before offset skip with
  | nil =>
    cases skip with
    | zero =>
      rw [findAll.go]
      cases matched : p.matchAt? ⟨before, [], offset⟩ <;> simp [Cursor.places, matched]
    | succ skip =>
      have here : p.matchAt? ⟨before, [], offset⟩ = none := covered _ (by simp [Cursor.places])
      simp [findAll.go, Cursor.places, here]
  | cons c rest ih =>
    cases skip with
    | succ skip =>
      rw [Cursor.places, List.take_succ_cons, List.forall_mem_cons] at covered
      rw [findAll.go, Cursor.places, List.filterMap_cons_none covered.1]
      exact ih covered.2
    | zero =>
      rw [findAll.go, Cursor.places]
      cases matched : p.matchAt? ⟨before, c :: rest, offset⟩ with
      | none =>
        rw [List.filterMap_cons_none matched]
        exact ih (by simp)
      | some found =>
        rw [List.filterMap_cons_some matched]
        refine congrArg (found :: ·) (ih fun d mem => ?_)
        -- A place that is skipped lies inside the match.
        obtain ⟨-, yields⟩ := matchAt?_yields matched
        obtain ⟨w, passes⟩ := yields.passes
        obtain ⟨passed, later, short⟩ := Cursor.passes_of_mem_take mem
        have size := passes.offset
        dsimp only at size
        obtain ⟨v, rfl, inside⟩ :=
          ((Cursor.Passes.one before c rest offset).trans later).split passes (by simp; omega)
        refine apart yields ((Cursor.Passes.one before c rest offset).trans later) inside
          (by simp) ?_
        rintro rfl
        simp at size
        omega

/-- Matches that keep apart are found at every place. -/
theorem Apart.findAll (apart : p.Apart) (s : List Char) :
    p.findAll s = (Cursor.places none 0 s).filterMap p.matchAt? :=
  apart.findAll_go (by simp)

theorem Apart.count (apart : p.Apart) (s : List Char) :
    p.count s = (Cursor.places none 0 s).countP fun c => (p.matchAt? c).isSome := by
  rw [Pattern.count, apart.findAll, List.length_filterMap_eq_countP]

end Pattern

/-! ## Matches with a start and an end -/

/-- What stands in front of the first of several like characters. -/
theorem eq_of_append_cons {x : Char} {a b r s : List Char} (first : x ∉ a) (first' : x ∉ b)
    (same : a ++ x :: r = b ++ x :: s) : a = b := by
  have front {t : List Char} (plain : x ∉ t) (rest : List Char) :
      (t ++ x :: rest).takeWhile (· != x) = t := by
    have accepted : ∀ y ∈ t, (y != x) = true := by
      intro y mem
      simpa using ne_of_mem_of_not_mem mem plain
    simp [List.takeWhile_append_of_pos accepted]
  rw [← front first r, same, front first']

namespace Pattern

/-- Every text that the pattern spells starts in the same way, with a mark that does not come again,
and ends with a character that comes nowhere else. A boundary stands in front of it. -/
structure Delimited (p : Pattern) : Prop where
  led : p.Led
  starts : ∃ start mark, ∀ w, p.Spells w → ∃ v, w = start ++ mark :: v ∧ mark ∉ v
  ends : ∃ x, ∀ w, p.Spells w → ∃ u, w = u ++ [x] ∧ x ∉ u

namespace Delimited

variable {p : Pattern} {c : Cursor}

theorem isSome_matchAt?_iff (delimited : p.Delimited) :
    (p.matchAt? c).isSome = true ↔ c.atBoundary = true ∧ ∃ w, p.Spells w ∧ w <+: c.rest := by
  rw [matchAt?_isSome_iff]
  simp only [delimited.led.exists_yields_iff]
  constructor
  · rintro ⟨d, stands, w, passes, spells⟩
    exact ⟨stands, w, spells, d.rest, passes.rest.symm⟩
  · rintro ⟨stands, w, spells, rest, same⟩
    exact ⟨_, stands, w, Cursor.passes_behind same.symm, spells⟩

/-- A match that another one covers would end where that one does, and it would need its mark. -/
theorem apart (delimited : p.Delimited) : p.Apart := by
  intro c d e new u v yields first second filled filled'
  rw [← Option.not_isSome_iff_eq_none, delimited.isSome_matchAt?_iff]
  rintro ⟨-, w, spells', rest, same⟩
  obtain ⟨_, passes, spells⟩ := yields.spells
  obtain rfl := passes.unique (first.trans second)
  -- Both end with the first character of their end, so the one is an end of the other.
  obtain ⟨x, ends⟩ := delimited.ends
  obtain ⟨a, whole, plain⟩ := ends _ spells
  obtain ⟨b, rfl, plain'⟩ := ends _ spells'
  obtain ⟨v, y, rfl⟩ := (List.eq_nil_or_concat v).resolve_left filled'
  rw [List.concat_eq_append] at spells whole second
  rw [← List.append_assoc] at whole
  obtain ⟨rfl, last⟩ := List.append_inj' whole rfl
  obtain rfl : y = x := by simpa using last
  have stands : b ++ y :: rest = v ++ y :: d.rest := by
    simpa using same.trans second.rest
  obtain rfl :=
    eq_of_append_cons plain' (fun inside => plain (List.mem_append_right u inside)) stands
  -- Behind the mark both are the same, so in front of it they are as well.
  obtain ⟨start, mark, starts⟩ := delimited.starts
  obtain ⟨t, whole, marked⟩ := starts _ spells
  obtain ⟨t', whole', marked'⟩ := starts _ spells'
  rw [whole', ← List.append_assoc] at whole
  have mirrored : t'.reverse ++ mark :: (u ++ start).reverse =
      t.reverse ++ mark :: start.reverse := by
    simpa using congrArg List.reverse whole
  have behind := congrArg List.length
    (eq_of_append_cons (by simpa using marked') (by simpa using marked) mirrored)
  have sizes := congrArg List.length whole
  simp only [List.length_append, List.length_cons, List.length_reverse] at behind sizes
  exact filled (List.length_eq_zero_iff.mp (by omega))

/-- Behind a place with a word character in front just as here, and in front of more text, there are
no fewer matches. -/
theorem countP_places_le (delimited : p.Delimited) {before before' : Option Char}
    (alike : before.any Text.isWordChar = before'.any Text.isWordChar) (offset offset' : Nat)
    (part after : List Char) :
    (Cursor.places before offset part).countP (fun c => (p.matchAt? c).isSome) ≤
      (Cursor.places before' offset' (part ++ after)).countP fun c => (p.matchAt? c).isSome := by
  obtain ⟨x, ends⟩ := delimited.ends
  induction part generalizing before before' offset offset' with
  | nil =>
    have missed : ¬(p.matchAt? ⟨before, [], offset⟩).isSome = true := by
      rw [delimited.isSome_matchAt?_iff]
      rintro ⟨-, w, spells, starts⟩
      obtain ⟨u, rfl, -⟩ := ends w spells
      simp at starts
    rw [Cursor.places, List.countP_singleton, if_neg missed]
    exact Nat.zero_le _
  | cons c part ih =>
    -- What is spelled here stands in the longer text as well, and the boundary is the same.
    have here : (p.matchAt? ⟨before, c :: part, offset⟩).isSome = true →
        (p.matchAt? ⟨before', c :: (part ++ after), offset'⟩).isSome = true := by
      rw [delimited.isSome_matchAt?_iff, delimited.isSome_matchAt?_iff]
      rintro ⟨stands, w, spells, starts⟩
      refine ⟨?_, w, spells, starts.trans (List.prefix_append (c :: part) after)⟩
      rw [Cursor.atBoundary] at stands ⊢
      rwa [← alike]
    have later := @ih (some c) (some c) rfl (offset + 1) (offset' + 1)
    rw [List.cons_append, Cursor.places, Cursor.places, List.countP_cons, List.countP_cons]
    split
    · next matched => rw [if_pos (here matched)]; omega
    · omega

/-- A part of a text that starts behind something else than a word character has no more matches. -/
theorem count_le (delimited : p.Delimited) {before : List Char}
    (apart : ∀ c ∈ before.getLast?, Text.isWordChar c = false) (part after : List Char) :
    p.count part ≤ p.count (before ++ (part ++ after)) := by
  have alike : Option.any Text.isWordChar none = before.getLast?.any Text.isWordChar := by
    cases last : before.getLast? with
    | none => rfl
    | some c => simp [apart c (by simp [last])]
  rw [delimited.apart.count, delimited.apart.count]
  obtain ⟨front, split⟩ := Cursor.exists_places_append none 0 before (part ++ after)
  rw [split, List.countP_append, Option.or_none]
  exact Nat.le_trans (delimited.countP_places_le alike 0 _ part after) (Nat.le_add_left _ _)

end Delimited

end Pattern

end CodeAtlas
