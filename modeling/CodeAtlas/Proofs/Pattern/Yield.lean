import CodeAtlas.Pattern.Search
import Mathlib.Data.List.Basic

/-!
# What a pattern can match and record

The matcher hands each way a pattern can end to what follows it, and what follows decides. Here a
pattern is read without what follows it, as a relation between the place where it starts, the place
where it ends and what it recorded in between. Whatever the matcher finds, it finds by a way that
the relation knows, and every match of a search starts at a place of the text.

Whether a match records a name, and what the text under a name looks like, can be read off the
pattern. A pattern that records a name does so on every way through it; a body whose characters are
all no newline keeps what is recorded on one line, and a body that takes up a character records no
empty text.

## Main results

`Pattern.exists_yields`: a match of a pattern and what follows splits in two.
`Pattern.findAll_places`: the matches of a search.
`Pattern.Places.recorded`: a match of a pattern that records a name has a stretch under that name.
`Pattern.Places.confined`: what stands under a name was matched by a body of the pattern.

## Proof strategy

By induction on the pattern, once for all that may follow. Rounds of a body go by induction on the
text that is left, which each round shortens. Each property of a pattern is a recursion on it, and
what it says of a match is an induction on the way through the pattern.
-/

namespace CodeAtlas

/-! ## Ways through a pattern -/

/-- From one cursor to another over a stretch of text. -/
structure Cursor.Passes (c : Cursor) (passed : List Char) (d : Cursor) : Prop where
  rest : c.rest = passed ++ d.rest
  offset : d.offset = c.offset + passed.length
  before : d.before = passed.getLast?.or c.before

namespace Cursor.Passes

variable {c d e : Cursor} {xs ys : List Char}

theorem refl (c : Cursor) : c.Passes [] c :=
  ⟨rfl, rfl, rfl⟩

theorem trans (first : c.Passes xs d) (second : d.Passes ys e) : c.Passes (xs ++ ys) e where
  rest := by rw [first.rest, second.rest, List.append_assoc]
  offset := by rw [second.offset, first.offset, List.length_append, Nat.add_assoc]
  before := by rw [second.before, first.before, List.getLast?_append, Option.or_assoc]

/-- Over one character. -/
theorem one (before : Option Char) (x : Char) (rest : List Char) (offset : Nat) :
    Passes ⟨before, x :: rest, offset⟩ [x] ⟨some x, rest, offset + 1⟩ :=
  ⟨rfl, rfl, rfl⟩

theorem offset_le (passes : c.Passes xs d) : c.offset ≤ d.offset := by
  rw [passes.offset]
  exact Nat.le_add_right _ _

/-- A span between the cursors covers what was passed. -/
theorem text_eq (passes : c.Passes xs d) : (⟨c, d⟩ : Span).text = xs := by
  simp [Span.text, passes.rest, passes.offset]

end Cursor.Passes

/-- From one cursor to another over at most `limit` characters, all accepted. -/
def Cursor.Runs (accepts : Char → Bool) (limit : Option Nat) (c d : Cursor) : Prop :=
  ∃ passed, c.Passes passed d ∧ (∀ x ∈ passed, accepts x = true) ∧ ∀ n ∈ limit, passed.length ≤ n

namespace Cursor.Runs

variable {accepts : Char → Bool} {limit : Option Nat}

theorem stay (c : Cursor) : Runs accepts limit c c :=
  ⟨[], .refl c, by simp, by simp⟩

theorem step {before : Option Char} {x : Char} {rest : List Char} {offset : Nat} {d : Cursor}
    (open_ : limit ≠ some 0) (accepted : accepts x = true)
    (runs : Runs accepts (limit.map (· - 1)) ⟨some x, rest, offset + 1⟩ d) :
    Runs accepts limit ⟨before, x :: rest, offset⟩ d := by
  obtain ⟨passed, passes, all, short⟩ := runs
  refine ⟨x :: passed, (Passes.one before x rest offset).trans passes, ?_, ?_⟩
  · simpa [accepted] using all
  · rintro n rfl
    have := short (n - 1) rfl
    have : n ≠ 0 := fun zero => open_ (zero ▸ rfl)
    simp only [List.length_cons]
    omega

end Cursor.Runs

namespace Pattern

/-- `p.Yields c d new`: `p` can match from `c` to `d`, recording `new`. -/
inductive Yields : Pattern → Cursor → Cursor → Captures → Prop where
  | here {c} : Yields here c c []
  | one {accepts before x rest offset} (accepted : accepts x = true) :
    Yields (one accepts) ⟨before, x :: rest, offset⟩ ⟨some x, rest, offset + 1⟩ []
  | seq {first second c m d new newer} (head : Yields first c m new)
    (tail : Yields second m d newer) : Yields (seq first second) c d (newer ++ new)
  | left {first second c d new} (taken : Yields first c d new) :
    Yields (either first second) c d new
  | right {first second c d new} (taken : Yields second c d new) :
    Yields (either first second) c d new
  | run {preference limit accepts c d} (runs : c.Runs accepts limit d) :
    Yields (run preference limit accepts) c d []
  | done {body c} : Yields (many body) c c []
  | round {body c m d new newer} (head : Yields body c m new) (tail : Yields (many body) m d newer) :
    Yields (many body) c d (newer ++ new)
  | capture {name body c d new} (inside : Yields body c d new) :
    Yields (capture name body) c d ((name, ⟨c, d⟩) :: new)
  | boundary {c} (stands : c.atBoundary = true) : Yields boundary c c []
  | lineStart {c} (stands : c.atLineStart = true) : Yields lineStart c c []
  | textEnd {c} (stands : c.atTextEnd = true) : Yields textEnd c c []
  | absent {body c captures}
    (fails : body.match? (fun stop captures => some (stop, captures)) c captures = none) :
    Yields (absent body) c c []

/-- A pattern moves over a stretch of text. -/
theorem Yields.passes {p : Pattern} {c d : Cursor} {new : Captures} (yields : p.Yields c d new) :
    ∃ passed, c.Passes passed d := by
  induction yields with
  | one => exact ⟨_, .one ..⟩
  | seq _ _ first second =>
    obtain ⟨xs, first⟩ := first
    obtain ⟨ys, second⟩ := second
    exact ⟨_, first.trans second⟩
  | left _ ih => exact ih
  | right _ ih => exact ih
  | run runs => exact ⟨runs.choose, runs.choose_spec.1⟩
  | round _ _ first second =>
    obtain ⟨xs, first⟩ := first
    obtain ⟨ys, second⟩ := second
    exact ⟨_, first.trans second⟩
  | capture _ ih => exact ih
  | _ => exact ⟨[], .refl _⟩

theorem runs_of_mem_runEnds {accepts : Char → Bool} {limit : Option Nat} {ends : List Cursor}
    {before : Option Char} {rest : List Char} {offset : Nat} {d : Cursor}
    (mem : d ∈ runEnds accepts limit ends before rest offset) :
    d ∈ ends ∨ Cursor.Runs accepts limit ⟨before, rest, offset⟩ d := by
  have stay {limit : Option Nat} {ends : List Cursor} {c : Cursor} (mem : d ∈ c :: ends) :
      d ∈ ends ∨ Cursor.Runs accepts limit c d := by
    rcases List.mem_cons.mp mem with rfl | mem
    · exact .inr (.stay d)
    · exact .inl mem
  induction rest generalizing limit ends before offset with
  | nil => exact stay mem
  | cons x rest ih =>
    rw [runEnds.eq_def] at mem
    by_cases open_ : limit = some 0
    · subst open_
      exact stay mem
    · simp only at mem
      split at mem
      · next accepted =>
        rcases ih mem with mem | runs
        · exact stay mem
        · exact .inr (.step open_ accepted runs)
      · exact stay mem

theorem exists_of_runShortest {accepts : Char → Bool} {limit : Option Nat} {follow : Follow}
    {captures : Captures} {before : Option Char} {rest : List Char} {offset : Nat}
    {found : Cursor × Captures}
    (ran : runShortest accepts limit follow captures before rest offset = some found) :
    ∃ d, Cursor.Runs accepts limit ⟨before, rest, offset⟩ d ∧ follow d captures = some found := by
  induction rest generalizing limit before offset with
  | nil =>
    rw [runShortest.eq_def] at ran
    split at ran
    · next stops => exact ⟨_, .stay _, stops.trans ran⟩
    · contradiction
  | cons x rest ih =>
    rw [runShortest.eq_def] at ran
    split at ran
    · next stops => exact ⟨_, .stay _, stops.trans ran⟩
    · simp only at ran
      split at ran
      · contradiction
      · next open_ =>
        split at ran
        · next accepted =>
          obtain ⟨d, runs, follows⟩ := ih ran
          exact ⟨d, .step open_ accepted runs, follows⟩
        · contradiction

/-- The rounds of a body: what holds of one round and what follows it holds of all. -/
theorem exists_of_rounds {body : Pattern}
    (split : ∀ {follow c captures found}, body.match? follow c captures = some found →
      ∃ d new, body.Yields c d new ∧ follow d (new ++ captures) = some found)
    {follow : Follow} {c : Cursor} {captures : Captures} {found : Cursor × Captures}
    (ran : rounds body.match? follow c captures = some found) :
    ∃ d new, (many body).Yields c d new ∧ follow d (new ++ captures) = some found := by
  induction size : c.rest.length using Nat.strongRecOn generalizing c captures with
  | ind n ih =>
    rw [rounds] at ran
    split at ran
    · next again =>
      obtain ⟨m, new, head, again⟩ := split again
      split at again
      · next shorter =>
        obtain ⟨d, newer, tail, follows⟩ := ih _ (size ▸ shorter) (again.trans ran) rfl
        exact ⟨d, newer ++ new, .round head tail, by rw [List.append_assoc, follows]⟩
      · contradiction
    · exact ⟨c, [], .done, ran⟩

/-- A match of a pattern with what follows it is a way that the pattern can match, and what follows
from where it ended. -/
theorem exists_yields {p : Pattern} {follow : Follow} {c : Cursor} {captures : Captures}
    {found : Cursor × Captures} (matched : p.match? follow c captures = some found) :
    ∃ d new, p.Yields c d new ∧ follow d (new ++ captures) = some found := by
  induction p generalizing follow c captures found with
  | here => exact ⟨c, [], .here, matched⟩
  | one accepts =>
    obtain ⟨before, rest, offset⟩ := c
    cases rest with
    | nil => simp [match?] at matched
    | cons x rest =>
      simp only [match?] at matched
      split at matched
      · next accepted => exact ⟨_, [], .one accepted, matched⟩
      · contradiction
  | seq first second ihFirst ihSecond =>
    obtain ⟨m, new, head, matched⟩ := ihFirst matched
    obtain ⟨d, newer, tail, follows⟩ := ihSecond matched
    exact ⟨d, newer ++ new, .seq head tail, by rw [List.append_assoc, follows]⟩
  | either first second ihFirst ihSecond =>
    simp only [match?] at matched
    split at matched
    · next taken =>
      obtain ⟨d, new, yields, follows⟩ := ihFirst (taken.trans matched)
      exact ⟨d, new, .left yields, follows⟩
    · obtain ⟨d, new, yields, follows⟩ := ihSecond matched
      exact ⟨d, new, .right yields, follows⟩
  | run preference limit accepts =>
    cases preference with
    | more =>
      obtain ⟨d, mem, follows⟩ := List.exists_of_findSome?_eq_some matched
      have runs := (runs_of_mem_runEnds mem).resolve_left (by simp)
      exact ⟨d, [], .run runs, follows⟩
    | fewer =>
      obtain ⟨d, runs, follows⟩ := exists_of_runShortest matched
      exact ⟨d, [], .run runs, follows⟩
  | many body ih => exact exists_of_rounds ih matched
  | capture name body ih =>
    obtain ⟨d, new, inside, follows⟩ := ih matched
    exact ⟨d, _, .capture inside, follows⟩
  | boundary =>
    simp only [match?] at matched
    split at matched
    · next stands => exact ⟨c, [], .boundary stands, matched⟩
    · contradiction
  | lineStart =>
    simp only [match?] at matched
    split at matched
    · next stands => exact ⟨c, [], .lineStart stands, matched⟩
    · contradiction
  | textEnd =>
    simp only [match?] at matched
    split at matched
    · next stands => exact ⟨c, [], .textEnd stands, matched⟩
    · contradiction
  | absent body ih =>
    simp only [match?] at matched
    split at matched
    · contradiction
    · next fails => exact ⟨c, [], .absent fails, matched⟩

/-- The match at a cursor starts there. -/
theorem matchAt?_yields {p : Pattern} {c : Cursor} {m : Match} (matched : p.matchAt? c = some m) :
    m.span.start = c ∧ p.Yields c m.span.stop m.captures := by
  obtain ⟨⟨stop, captures⟩, found, rfl⟩ := Option.map_eq_some_iff.mp matched
  obtain ⟨d, new, yields, ends⟩ := exists_yields found
  rw [List.append_nil, Option.some.injEq, Prod.mk.injEq] at ends
  obtain ⟨rfl, rfl⟩ := ends
  exact ⟨rfl, yields⟩

/-- A place of a text and a way that a pattern can match from there. -/
structure Places (p : Pattern) (text : List Char) (m : Match) : Prop where
  start : ∃ passed, (Cursor.start text).Passes passed m.span.start
  yields : p.Yields m.span.start m.span.stop m.captures

theorem mem_findAll_go {p : Pattern} {m : Match} {before : Option Char} {rest : List Char}
    {offset skip : Nat} (mem : m ∈ findAll.go p before offset skip rest) :
    (∃ passed, (⟨before, rest, offset⟩ : Cursor).Passes passed m.span.start) ∧
      p.matchAt? m.span.start = some m := by
  have here {before : Option Char} {rest : List Char} {offset : Nat}
      (matched : p.matchAt? ⟨before, rest, offset⟩ = some m) :
      (∃ passed, (⟨before, rest, offset⟩ : Cursor).Passes passed m.span.start) ∧
        p.matchAt? m.span.start = some m := by
    obtain ⟨start, -⟩ := matchAt?_yields matched
    exact ⟨⟨[], start ▸ .refl _⟩, start ▸ matched⟩
  induction rest generalizing before offset skip with
  | nil =>
    cases skip with
    | zero =>
      rw [findAll.go, Option.mem_toList] at mem
      exact here mem
    | succ skip => simp [findAll.go] at mem
  | cons x rest ih =>
    have next {skip : Nat} (mem : m ∈ findAll.go p (some x) (offset + 1) skip rest) :
        (∃ passed, (⟨before, x :: rest, offset⟩ : Cursor).Passes passed m.span.start) ∧
          p.matchAt? m.span.start = some m := by
      obtain ⟨⟨passed, passes⟩, matched⟩ := ih mem
      exact ⟨⟨_, (Cursor.Passes.one before x rest offset).trans passes⟩, matched⟩
    cases skip with
    | succ skip =>
      rw [findAll.go] at mem
      exact next mem
    | zero =>
      rw [findAll.go] at mem
      split at mem
      · exact next mem
      · next matched =>
        rcases List.mem_cons.mp mem with rfl | mem
        · exact here matched
        · exact next mem

/-- A match of a search is the match at the place where it starts. -/
theorem matchAt?_of_mem_findAll {p : Pattern} {text : List Char} {m : Match}
    (mem : m ∈ p.findAll text) : p.matchAt? m.span.start = some m :=
  (mem_findAll_go mem).2

/-- Every match of a search starts at a place of the text and goes a way of the pattern. -/
theorem findAll_places {p : Pattern} {text : List Char} {m : Match} (mem : m ∈ p.findAll text) :
    p.Places text m :=
  ⟨(mem_findAll_go mem).1, (matchAt?_yields (matchAt?_of_mem_findAll mem)).2⟩

end Pattern

/-! ## What a pattern records -/

namespace Cursor.Passes

/-- What lies between two cursors is one text. -/
theorem unique {c d : Cursor} {xs ys : List Char} (passes : c.Passes xs d)
    (passes' : c.Passes ys d) : xs = ys := by
  rw [← passes.text_eq, ← passes'.text_eq]

end Cursor.Passes

namespace Pattern

/-- No match reaches over a line. -/
def Inline : Pattern → Prop
  | one accepts => accepts '\n' = false
  | run _ _ accepts => accepts '\n' = false
  | seq first second => first.Inline ∧ second.Inline
  | either first second => first.Inline ∧ second.Inline
  | many body => body.Inline
  | capture _ body => body.Inline
  | _ => True

/-- Every match takes up a character. -/
def Advances : Pattern → Prop
  | one _ => True
  | seq first second => first.Advances ∨ second.Advances
  | either first second => first.Advances ∧ second.Advances
  | capture _ body => body.Advances
  | _ => False

/-- Every match records something under `name`. -/
def Records (name : String) : Pattern → Prop
  | seq first second => first.Records name ∨ second.Records name
  | either first second => first.Records name ∧ second.Records name
  | capture other body => other = name ∨ body.Records name
  | _ => False

/-- Whatever is recorded under `name` is matched by a body with `Q`. -/
def Confines (name : String) (Q : Pattern → Prop) : Pattern → Prop
  | seq first second => first.Confines name Q ∧ second.Confines name Q
  | either first second => first.Confines name Q ∧ second.Confines name Q
  | many body => body.Confines name Q
  | capture other body => (other = name → Q body) ∧ body.Confines name Q
  | _ => True

section Ways

variable {p : Pattern} {c d : Cursor} {new : Captures}

/-- Two stretches without a newline make one. -/
theorem inline_trans {m : Cursor} (first : ∃ passed, c.Passes passed m ∧ '\n' ∉ passed)
    (second : ∃ passed, m.Passes passed d ∧ '\n' ∉ passed) :
    ∃ passed, c.Passes passed d ∧ '\n' ∉ passed := by
  obtain ⟨xs, first, clean⟩ := first
  obtain ⟨ys, second, clean'⟩ := second
  exact ⟨_, first.trans second, by simp [clean, clean']⟩

theorem Yields.inline (yields : p.Yields c d new) (inline : p.Inline) :
    ∃ passed, c.Passes passed d ∧ '\n' ∉ passed := by
  induction yields with
  | @one accepts before x rest offset accepted =>
    refine ⟨[x], .one .., fun mem => ?_⟩
    obtain rfl := List.mem_singleton.mp mem
    exact Bool.false_ne_true ((show accepts '\n' = false from inline).symm.trans accepted)
  | @run _ _ accepts _ _ runs =>
    obtain ⟨passed, passes, accepted, -⟩ := runs
    refine ⟨passed, passes, fun mem => ?_⟩
    exact Bool.false_ne_true
      ((show accepts '\n' = false from inline).symm.trans (accepted _ mem))
  | seq _ _ first second => exact inline_trans (first inline.1) (second inline.2)
  | round _ _ first second => exact inline_trans (first inline) (second inline)
  | left _ ih => exact ih inline.1
  | right _ ih => exact ih inline.2
  | capture _ ih => exact ih inline
  | _ => exact ⟨[], .refl _, by simp⟩

/-- What stands under a name is reached without a newline when no match reaches over a line. -/
theorem Yields.inline_start {name : String} {span : Span} (yields : p.Yields c d new)
    (inline : p.Inline) (mem : (name, span) ∈ new) :
    ∃ passed, c.Passes passed span.start ∧ '\n' ∉ passed := by
  induction yields with
  | seq head _ first second =>
    rcases List.mem_append.mp mem with mem | mem
    · exact inline_trans (head.inline inline.1) (second inline.2 mem)
    · exact first inline.1 mem
  | round head _ first second =>
    rcases List.mem_append.mp mem with mem | mem
    · exact inline_trans (head.inline inline) (second inline mem)
    · exact first inline mem
  | left _ ih => exact ih inline.1 mem
  | right _ ih => exact ih inline.2 mem
  | capture _ ih =>
    rcases List.mem_cons.mp mem with same | mem
    · obtain ⟨rfl, rfl⟩ := Prod.mk.inj same
      exact ⟨[], .refl _, List.not_mem_nil⟩
    · exact ih inline mem
  | _ => simp at mem

theorem Yields.advances (yields : p.Yields c d new) (advances : p.Advances) :
    c.offset < d.offset := by
  induction yields with
  | one => exact Nat.lt_succ_self _
  | seq head tail first second =>
    obtain ⟨xs, head⟩ := head.passes
    obtain ⟨ys, tail⟩ := tail.passes
    rcases advances with advances | advances
    · exact Nat.lt_of_lt_of_le (first advances) tail.offset_le
    · exact Nat.lt_of_le_of_lt head.offset_le (second advances)
  | left _ ih => exact ih advances.1
  | right _ ih => exact ih advances.2
  | capture _ ih => exact ih advances
  | _ => exact advances.elim

theorem Yields.recorded {name : String} (yields : p.Yields c d new) (records : p.Records name) :
    ∃ span, (name, span) ∈ new := by
  induction yields with
  | seq _ _ first second =>
    rcases records with records | records
    · exact (first records).imp fun _ mem => List.mem_append_right _ mem
    · exact (second records).imp fun _ mem => List.mem_append_left _ mem
  | left _ ih => exact ih records.1
  | right _ ih => exact ih records.2
  | capture _ ih =>
    rcases records with rfl | records
    · exact ⟨_, List.mem_cons_self⟩
    · exact (ih records).imp fun _ mem => List.mem_cons_of_mem _ mem
  | _ => exact records.elim

/-- What stands under a name lies on the way and was matched by one of the bodies. -/
theorem Yields.confined {name : String} {Q : Pattern → Prop} {span : Span}
    (yields : p.Yields c d new) (confines : p.Confines name Q) (mem : (name, span) ∈ new) :
    ∃ passed body inner, c.Passes passed span.start ∧ Q body ∧
      body.Yields span.start span.stop inner := by
  induction yields with
  | seq head _ first second =>
    rcases List.mem_append.mp mem with mem | mem
    · obtain ⟨xs, head⟩ := head.passes
      obtain ⟨ys, body, inner, passes, rest⟩ := second confines.2 mem
      exact ⟨_, body, inner, head.trans passes, rest⟩
    · exact first confines.1 mem
  | round head _ first second =>
    rcases List.mem_append.mp mem with mem | mem
    · obtain ⟨xs, head⟩ := head.passes
      obtain ⟨ys, body, inner, passes, rest⟩ := second confines mem
      exact ⟨_, body, inner, head.trans passes, rest⟩
    · exact first confines mem
  | left _ ih => exact ih confines.1 mem
  | right _ ih => exact ih confines.2 mem
  | capture inside ih =>
    rcases List.mem_cons.mp mem with same | mem
    · obtain ⟨rfl, rfl⟩ := Prod.mk.inj same
      exact ⟨[], _, _, .refl _, confines.1 rfl, inside⟩
    · exact ih confines.2 mem
  | _ => simp at mem

end Ways

section Matches

variable {p : Pattern} {text : List Char} {m : Match} {name : String}

/-- A match of a pattern that records a name has a stretch under it. -/
theorem Places.recorded (places : p.Places text m) (records : p.Records name) :
    ∃ span, m.group? name = some span := by
  obtain ⟨span, mem⟩ := places.yields.recorded records
  cases looked : m.captures.lookup name with
  | some span => exact ⟨span, looked⟩
  | none =>
    have := List.lookup_eq_none_iff.mp looked _ mem
    simp at this

/-- What stands under a name starts at a place of the text and was matched by one of the bodies. -/
theorem Places.confined {Q : Pattern → Prop} {span : Span} (places : p.Places text m)
    (confines : p.Confines name Q) (under : m.group? name = some span) :
    ∃ passed body inner, (Cursor.start text).Passes passed span.start ∧ Q body ∧
      body.Yields span.start span.stop inner := by
  obtain ⟨before, after, split, -⟩ := List.lookup_eq_some_iff.mp under
  have mem : (name, span) ∈ m.captures := by simp [split]
  obtain ⟨passed, start⟩ := places.start
  obtain ⟨more, body, inner, passes, rest⟩ := places.yields.confined confines mem
  exact ⟨_, body, inner, start.trans passes, rest⟩

end Matches

/-! ### The ways to put patterns together -/

section Combinators

variable {name : String} {Q : Pattern → Prop}

@[simp] theorem append_eq_seq (first second : Pattern) : first ++ second = seq first second := rfl

/-- What holds of a sequence that starts with one character, when it holds of the rest, holds of texts
in one case and in any. -/
theorem text_induction {P : Pattern → Prop} (nothing : P here)
    (step : ∀ accepts p, P p → P (seq (one accepts) p)) (s : String) :
    P (text s) ∧ P (textAnyCase s) := by
  unfold text textAnyCase
  induction s.toList with
  | nil => exact ⟨nothing, nothing⟩
  | cons x rest ih => exact ⟨step _ _ ih.1, step _ _ ih.2⟩

/-- What holds of a choice, when it holds of both branches, holds of a choice among several. -/
theorem oneOf_induction {P : Pattern → Prop} {ps : List Pattern} (never : P (one fun _ => false))
    (step : ∀ p q, P p → P q → P (either p q)) (all : ∀ p ∈ ps, P p) : P (oneOf ps) := by
  induction ps with
  | nil => exact never
  | cons p rest ih =>
    obtain ⟨first, others⟩ := List.forall_mem_cons.mp all
    cases rest with
    | nil => exact first
    | cons q rest => exact step p _ first (ih others)

@[simp] theorem confines_text (s : String) : (text s).Confines name Q :=
  (text_induction trivial (fun _ _ rest => ⟨trivial, rest⟩) s).1

@[simp] theorem confines_textAnyCase (s : String) : (textAnyCase s).Confines name Q :=
  (text_induction trivial (fun _ _ rest => ⟨trivial, rest⟩) s).2

theorem not_records_texts (s : String) :
    ¬(text s).Records name ∧ ¬(textAnyCase s).Records name :=
  text_induction (P := fun p => ¬p.Records name) id (fun _ _ rest records => records.elim id rest) s

@[simp] theorem not_records_text (s : String) : ¬(text s).Records name :=
  (not_records_texts s).1

@[simp] theorem not_records_textAnyCase (s : String) : ¬(textAnyCase s).Records name :=
  (not_records_texts s).2

theorem confines_oneOf {ps : List Pattern} (all : ∀ p ∈ ps, p.Confines name Q) :
    (oneOf ps).Confines name Q :=
  oneOf_induction trivial (fun _ _ first second => ⟨first, second⟩) all

@[simp] theorem confines_anyText (texts : List String) : (anyText texts).Confines name Q :=
  confines_oneOf (by simp)

@[simp] theorem confines_anyTextAnyCase (texts : List String) :
    (anyTextAnyCase texts).Confines name Q :=
  confines_oneOf (by simp)

end Combinators

end Pattern

end CodeAtlas
