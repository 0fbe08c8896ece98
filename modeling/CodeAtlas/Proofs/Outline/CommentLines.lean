import CodeAtlas.Outline.Analysis
import CodeAtlas.Proofs.Number.Share

/-!
# Comment lines and code lines

The lines of a content are read in one way as code, blank lines and whole-line comments, each of
which takes one line or runs from the line that starts it to the first line that closes it, or to
the end. The comment lines of a file are all the lines of its comments. Its code lines are the
filled lines that are left, so the measures part the filled lines as the reading does just when no
comment has a blank line in it.

## Main results

`Outline.analyze_comment_lines`: what the measures of a file count, and when they part its filled
lines.

## Proof strategy

`readFrom` goes along the lines with what closes the comment at hand. It finds every reading
(`IsReading.eq_readFrom`), so there is one, and a run counts the lines that it finds inside
(`count_run`), step by step.
-/

namespace CodeAtlas

open Text

namespace Comments

/-- How a line outside of comments begins. -/
inductive Beginning where
  /-- Without a comment: the line is blank or code. -/
  | outside
  /-- With a comment that ends on the line. -/
  | comment
  /-- With a comment that ends on the first later line with `closer` in it. -/
  | opens (closer : List Char)

/-- The beginning of a line, blanks aside. -/
def beginning (g : Grammar) (raw : List Char) : Beginning :=
  let line := trim raw
  if line.isEmpty then .outside
  else if g.lineComments.any (·.toList.isPrefixOf line) then .comment
  else
    match g.blockComments.find? fun (opener, _) => opener.toList.isPrefixOf line with
    | none => .outside
    | some (opener, closer) =>
      if occursIn closer.toList (line.drop opener.length) then .comment else .opens closer.toList

/-- A line, and whether it lies inside a whole-line comment. -/
structure ReadLine where
  text : List Char
  inside : Bool
  deriving DecidableEq

def insideAll (lines : List (List Char)) : List ReadLine :=
  lines.map (⟨·, true⟩)

/-- Lines are read as lines outside of comments and whole comments, one after another. -/
inductive IsReading (g : Grammar) : List ReadLine → Prop where
  | nil : IsReading g []
  | outside {line : List Char} {rest : List ReadLine} (begins : beginning g line = .outside)
      (more : IsReading g rest) : IsReading g (⟨line, false⟩ :: rest)
  | comment {line : List Char} {rest : List ReadLine} (begins : beginning g line = .comment)
      (more : IsReading g rest) : IsReading g (⟨line, true⟩ :: rest)
  /-- A comment of several lines. -/
  | block {first last closer : List Char} {inner : List (List Char)} {rest : List ReadLine}
      (begins : beginning g first = .opens closer)
      (goesOn : ∀ line ∈ inner, occursIn closer (trim line) = false)
      (closes : occursIn closer (trim last) = true) (more : IsReading g rest) :
      IsReading g (insideAll (first :: inner ++ [last]) ++ rest)
  /-- A comment that is never closed. -/
  | unclosed {first closer : List Char} {inner : List (List Char)}
      (begins : beginning g first = .opens closer)
      (goesOn : ∀ line ∈ inner, occursIn closer (trim line) = false) :
      IsReading g (insideAll (first :: inner))

def insideLines (reading : List ReadLine) : Nat :=
  reading.countP fun line => line.inside && !isBlankText line.text

/-- The blank lines inside comments. -/
def hollowLines (reading : List ReadLine) : Nat :=
  reading.countP fun line => line.inside && isBlankText line.text

/-- The filled lines that are not inside a comment. -/
def outsideLines (reading : List ReadLine) : Nat :=
  reading.countP fun line => !line.inside && !isBlankText line.text

/-- Reads lines one after another; `closer` closes the comment they start in. -/
def readFrom (g : Grammar) : Option (List Char) → List (List Char) → List ReadLine
  | _, [] => []
  | some closer, line :: rest =>
    ⟨line, true⟩ :: readFrom g (if occursIn closer (trim line) then none else some closer) rest
  | none, line :: rest =>
    match beginning g line with
    | .outside => ⟨line, false⟩ :: readFrom g none rest
    | .comment => ⟨line, true⟩ :: readFrom g none rest
    | .opens closer => ⟨line, true⟩ :: readFrom g (some closer) rest

variable {g : Grammar} {closer : List Char} {reading other : List ReadLine}

/-! ### Every content has one reading -/

theorem readFrom_append {inner : List (List Char)}
    (goesOn : ∀ line ∈ inner, occursIn closer (trim line) = false) (rest : List (List Char)) :
    readFrom g (some closer) (inner ++ rest) =
      insideAll inner ++ readFrom g (some closer) rest := by
  induction inner with
  | nil => rfl
  | cons line inner ih =>
    obtain ⟨first, goesOn⟩ := List.forall_mem_cons.mp goesOn
    rw [List.cons_append, readFrom, if_neg (by rw [first]; exact Bool.false_ne_true), ih goesOn]
    rfl

theorem map_text_insideAll (lines : List (List Char)) :
    (insideAll lines).map ReadLine.text = lines := by
  rw [insideAll, List.map_map]
  exact List.map_id lines

theorem IsReading.eq_readFrom (reads : IsReading g reading) :
    reading = readFrom g none (reading.map ReadLine.text) := by
  induction reads with
  | nil => rfl
  | outside begins _ ih => rw [List.map_cons, readFrom, begins, ← ih]
  | comment begins _ ih => rw [List.map_cons, readFrom, begins, ← ih]
  | @block first last closer inner rest begins goesOn closes _ ih =>
    rw [List.map_append, map_text_insideAll, List.cons_append, List.cons_append, readFrom, begins,
      List.append_assoc]
    show _ = _ :: readFrom g (some closer) (inner ++ _)
    rw [readFrom_append goesOn, List.singleton_append, readFrom, if_pos closes, ← ih]
    simp [insideAll]
  | @unclosed first closer inner begins goesOn =>
    rw [map_text_insideAll, readFrom, begins]
    show _ = _ :: readFrom g (some closer) inner
    rw [← List.append_nil inner, readFrom_append goesOn, readFrom]
    simp [insideAll]

theorem map_text_readFrom (g : Grammar) (opened : Option (List Char)) (lines : List (List Char)) :
    (readFrom g opened lines).map ReadLine.text = lines := by
  induction lines generalizing opened with
  | nil => cases opened <;> rfl
  | cons line rest ih =>
    cases opened with
    | some closer => rw [readFrom, List.map_cons, ih]
    | none =>
      rw [readFrom]
      split <;> rw [List.map_cons, ih]

theorem isReading_readFrom (g : Grammar) (lines : List (List Char)) :
    IsReading g (readFrom g none lines) := by
  match lines with
  | [] => exact .nil
  | line :: rest =>
    rw [readFrom]
    cases begins : beginning g line with
    | outside => exact .outside begins (isReading_readFrom g rest)
    | comment => exact .comment begins (isReading_readFrom g rest)
    | opens closer =>
      -- The comment ends on the first line that closes it.
      cases found : rest.find? fun line => occursIn closer (trim line) with
      | none =>
        have goesOn : ∀ line ∈ rest, occursIn closer (trim line) = false := by
          simpa using found
        have all := readFrom_append (g := g) goesOn []
        rw [List.append_nil, readFrom, List.append_nil] at all
        show IsReading g (_ :: readFrom g (some closer) rest)
        rw [all]
        exact .unclosed begins goesOn
      | some last =>
        obtain ⟨closes, inner, more, rfl, goesOn⟩ := List.find?_eq_some_iff_append.mp found
        have goesOn : ∀ line ∈ inner, occursIn closer (trim line) = false := by
          simpa using goesOn
        show IsReading g (_ :: readFrom g (some closer) (inner ++ last :: more))
        rw [readFrom_append goesOn, readFrom, if_pos closes]
        have block := IsReading.block begins goesOn closes (isReading_readFrom g more)
        simpa [insideAll] using block
termination_by lines.length

theorem IsReading.unique (reads : IsReading g reading) (reads' : IsReading g other)
    (same : reading.map ReadLine.text = other.map ReadLine.text) : reading = other := by
  rw [reads.eq_readFrom, reads'.eq_readFrom, same]

/-! ### Runs -/

/-- A step reads its line as `readFrom` does, and counts it when it is inside a comment. -/
theorem exists_step (g : Grammar) (state : State) (number : Nat) (line : List Char) :
    ∃ inside : Bool, (step g state number line).count = state.count + inside.toNat ∧
      ∀ rest, readFrom g (state.block.map OpenBlock.closer) (line :: rest) =
        ⟨line, inside⟩ ::
          readFrom g ((step g state number line).block.map OpenBlock.closer) rest := by
  rcases state with ⟨found, count, _ | block⟩
  · simp only [step, readFrom, beginning, Option.map_none]
    -- Outside of comments the cases are those of `beginning`.
    by_cases blank : (trim line).isEmpty
    · simp only [blank, if_true]
      exact ⟨false, rfl, fun _ => rfl⟩
    by_cases marked : g.lineComments.any (·.toList.isPrefixOf (trim line))
    · simp only [blank, marked, if_true]
      exact ⟨true, rfl, fun _ => rfl⟩
    simp only [blank, marked]
    cases g.blockComments.find? fun (opener, _) => opener.toList.isPrefixOf (trim line) with
    | none => exact ⟨false, rfl, fun _ => rfl⟩
    | some pair =>
      obtain ⟨opener, closer⟩ := pair
      by_cases within : occursIn closer.toList ((trim line).drop opener.length)
      · simp only [within, if_true]
        exact ⟨true, rfl, fun _ => rfl⟩
      · simp only [within]
        exact ⟨true, rfl, fun _ => rfl⟩
  · simp only [step, readFrom, Option.map_some]
    by_cases closes : occursIn block.closer (trim line)
    · simp only [closes, if_true]
      exact ⟨true, rfl, fun _ => rfl⟩
    · simp only [closes]
      exact ⟨true, rfl, fun _ => rfl⟩

theorem count_run (g : Grammar) (state : State) (number : Nat) (lines : List (List Char)) :
    (run g state number lines).count = state.count +
      (readFrom g (state.block.map OpenBlock.closer) lines).countP ReadLine.inside := by
  induction lines generalizing state number with
  | nil => cases state.block <;> rfl
  | cons line rest ih =>
    obtain ⟨inside, counted, reads⟩ := exists_step g state number line
    rw [run, ih, counted, reads, List.countP_cons, Nat.add_assoc, Nat.add_comm inside.toNat]
    cases inside <;> rfl

/-! ### What is counted -/

private theorem countP_add_countP {p q r : ReadLine → Bool}
    (parted : ∀ line, (p line).toNat + (q line).toNat = (r line).toNat) (reading : List ReadLine) :
    reading.countP p + reading.countP q = reading.countP r := by
  induction reading with
  | nil => rfl
  | cons line reading ih =>
    have here := parted line
    have cast (b : Bool) : (if b then 1 else 0) = b.toNat := by cases b <;> rfl
    simp only [List.countP_cons, cast]
    omega

/-- The filled lines are those inside and those outside of comments. -/
theorem insideLines_add_outsideLines (reading : List ReadLine) :
    insideLines reading + outsideLines reading = reading.countP (!isBlankText ·.text) :=
  countP_add_countP (fun line => by cases line.inside <;> simp) reading

theorem insideLines_add_hollowLines (reading : List ReadLine) :
    insideLines reading + hollowLines reading = reading.countP ReadLine.inside :=
  countP_add_countP (fun line => by cases isBlankText line.text <;> simp) reading

theorem count_ofLines (g : Grammar) (lines : List (List Char)) :
    (ofLines g lines).2 =
      insideLines (readFrom g none lines) + hollowLines (readFrom g none lines) := by
  rw [insideLines_add_hollowLines]
  exact (count_run g {} 1 lines).trans (Nat.zero_add _)

end Comments

namespace Complexity

theorem filledLines_eq (content : List Char) :
    filledLines content = (lines content).countP (!isBlankText ·) := by
  rw [filledLines, linesOf]
  split
  next empty =>
    rw [List.isEmpty_iff.mp empty]
    rfl
  · rfl

theorem isShare_commentRatio {content : List Char} {commentLines : Nat}
    (le : commentLines ≤ filledLines content) :
    Number.IsShare (ofText content commentLines).commentRatio := by
  show Number.IsShare (if filledLines content == 0 then 0.0 else
    Number.roundTo 4 (Number.nearest false commentLines (filledLines content)))
  split
  · exact Nat.zero_le _
  next filled =>
    rw [beq_iff_eq] at filled
    exact Number.isShare_roundTo (Number.isShare_nearest le (Nat.pos_of_ne_zero filled))

/-- The comment lines and the code lines are the filled lines of a content that a reading has inside
and outside of comments. -/
structure Parts (measured : Complexity) (content : List Char)
    (reading : List Comments.ReadLine) : Prop where
  comment : measured.commentLines ≤ filledLines content
  whole : measured.codeLines + measured.commentLines = filledLines content
  code : measured.codeLines = Comments.outsideLines reading
  ratio : 0.0 ≤ measured.commentRatio ∧ measured.commentRatio ≤ 1.0

end Complexity

namespace Outline

open Comments

variable {config : OutlineConfig} {path content : String}

theorem analyze_complexity
    (outlined : (Grammar.ofLanguage (Language.ofPath path)).isEmpty = false) :
    (analyze config path content).complexity = Complexity.ofText content.toList
      (ofLines (Grammar.ofLanguage (Language.ofPath path)) (lines content.toList)).2 := by
  rw [analyze, if_neg (by rw [outlined]; exact Bool.false_ne_true)]
  rfl

theorem filledLines_eq_add {content : List Char} {reading : List ReadLine}
    (text : reading.map ReadLine.text = lines content) :
    Complexity.filledLines content = insideLines reading + outsideLines reading := by
  rw [insideLines_add_outsideLines, Complexity.filledLines_eq, ← text, List.countP_map]
  rfl

/-- A reading of a content tells what the measures of its file count. The measures part the filled
lines as the reading does just when no comment has a blank line in it. -/
theorem analyze_comment_lines
    (outlined : (Grammar.ofLanguage (Language.ofPath path)).isEmpty = false) :
    let g := Grammar.ofLanguage (Language.ofPath path)
    let measured := (analyze config path content).complexity
    ∃ reading, IsReading g reading ∧ reading.map ReadLine.text = lines content.toList ∧
      (∀ other, IsReading g other → other.map ReadLine.text = lines content.toList →
        other = reading) ∧
      measured.commentLines = insideLines reading + hollowLines reading ∧
      measured.codeLines = (outsideLines reading - hollowLines reading : ℕ) ∧
      (measured.Parts content.toList reading ↔ hollowLines reading = 0) := by
  intro g measured
  have measured_eq : measured = Complexity.ofText content.toList (ofLines g _).2 :=
    analyze_complexity outlined
  have reads := isReading_readFrom g (lines content.toList)
  have text := map_text_readFrom g none (lines content.toList)
  have counted := count_ofLines g (lines content.toList)
  -- From here on only what a reading is and what was counted matters.
  generalize readFrom g none (lines content.toList) = reading at reads text counted
  have filled := filledLines_eq_add text
  rw [counted] at measured_eq
  have comment : measured.commentLines = insideLines reading + hollowLines reading := by
    rw [measured_eq]
    rfl
  have code : measured.codeLines = (outsideLines reading - hollowLines reading : ℕ) := by
    rw [measured_eq]
    show ((Complexity.filledLines content.toList - _ : ℕ) : ℤ) = _
    rw [filled, Nat.add_sub_add_left]
  refine ⟨reading, reads, text, ?_, comment, code, ?_⟩
  · intro other reads' text'
    exact reads'.unique reads (text'.trans text.symm)
  constructor
  · rintro ⟨most, -, outside, -⟩
    rw [comment, filled] at most
    rw [code] at outside
    omega
  · intro filledOnly
    rw [filledOnly] at comment code measured_eq
    refine ⟨?_, ?_, ?_, ?_⟩
    · rw [comment, filled]
      omega
    · rw [comment, code, filled]
      omega
    · rw [code, Nat.sub_zero]
    · rw [measured_eq]
      exact (Complexity.isShare_commentRatio (by omega)).bounds

/-- A block comment of two filled lines before a line of code. -/
theorem analyze_comment_lines_filled :
    ∃ reading, IsReading (Grammar.ofLanguage (Language.ofPath "a.js")) reading ∧
      (analyze {} "a.js" "/* one\n two */\nx").complexity.Parts "/* one\n two */\nx".toList
        reading := by
  obtain ⟨reading, reads, text, -, -, -, parts⟩ :=
    @analyze_comment_lines {} "a.js" "/* one\n two */\nx" (by decide +kernel)
  have same := reads.eq_readFrom
  rw [text] at same
  refine ⟨reading, reads, parts.mpr ?_⟩
  rw [same]
  decide +kernel

/-- A block comment with a blank line in it has more lines than the content has filled ones. -/
theorem analyze_comment_lines_hollow :
    (analyze {} "a.js" "/*\n\n*/").complexity.commentLines = 3 ∧
      (analyze {} "a.js" "/*\n\n*/").complexity.codeLines = 0 ∧
      Complexity.filledLines "/*\n\n*/".toList = 2 := by
  rw [analyze_complexity (by decide +kernel)]
  decide +kernel

end Outline

end CodeAtlas
