import CodeAtlas.Proofs.Outline.Declared
import Mathlib.Data.List.Infix
import Mathlib.Data.List.Pairwise

/-!
# Functions with a body in braces

A function is written with a parameter list and a body in braces, as a declaration or as an arrow
function. Where the parameter list follows the name at once it is skipped, and the function ends on
the line of the brace that closes the body, whatever the parameter list holds. The parameter list of
an arrow function is not skipped: a brace or a semicolon in it is taken for the body or for the end
of the declaration, and then the function ends on the line of the list.

## Main results

`Outline.analyze_written`: the last line of a written function, for everything the patterns report.

## Proof strategy

Over text without quotes and comments the scan for a closing bracket only counts (`go_append`), so it
comes out of a balanced text as deep as it went in. What is left is to see where the scan starts
(`afterParameters_at_once`, `afterParameters_later`).
-/

namespace CodeAtlas

open Text

namespace Extent

/-! ### Written functions -/

/-- Text without quotes and without what starts a comment. -/
structure Plain (text : List Char) : Prop where
  unquoted : ∀ c ∈ text, isTextQuote c = false
  noLineComment : ¬ ['/', '/'] <:+: text
  noBlockComment : ¬ ['/', '*'] <:+: text

-- The characters are gone through along the text: there is another way to decide what holds of all
-- characters, and that one tries every character there is.
instance {text : List Char} : Decidable (Plain text) :=
  decidable_of_iff ((text.all fun c => !isTextQuote c) = true ∧ ¬ ['/', '/'] <:+: text ∧
    ¬ ['/', '*'] <:+: text)
    ⟨fun ⟨unquoted, line, block⟩ => ⟨by simpa using unquoted, line, block⟩,
      fun ⟨unquoted, line, block⟩ => ⟨by simpa using unquoted, line, block⟩⟩

/-- As many brackets are closed as are opened, and never more. -/
structure Brackets.Balanced (b : Brackets) (text : List Char) : Prop where
  front : ∀ part, part <+: text → part.count b.closer ≤ part.count b.opener
  whole : text.count b.closer = text.count b.opener

instance {b : Brackets} {text : List Char} : Decidable (b.Balanced text) :=
  decidable_of_iff ((∀ part ∈ text.inits, part.count b.closer ≤ part.count b.opener) ∧
    text.count b.closer = text.count b.opener)
    ⟨fun ⟨front, whole⟩ => ⟨fun part start => front part ((List.mem_inits _ _).mpr start), whole⟩,
      fun ⟨front, whole⟩ => ⟨fun part start => front part ((List.mem_inits _ _).mp start), whole⟩⟩

def parentheses : Brackets := ⟨'(', ')'⟩

def braces : Brackets := ⟨'\x7b', '\x7d'⟩

/-- The text between the parentheses of a parameter list on one line. -/
structure IsParameters (text : List Char) : Prop where
  plain : Plain text
  balanced : braces.Balanced text
  flat : '(' ∉ text ∧ ')' ∉ text
  inline : '\n' ∉ text

/-- The two ways to write a function with a body in braces. -/
inductive Form where
  /-- The parameter list follows the name. -/
  | declaration
  /-- The name is bound to an arrow function. -/
  | arrow
  deriving DecidableEq

/-- What stands between the name and the parameter list. -/
def Form.Front : Form → List Char → Prop
  | .declaration, front => isBlankText front = true
  | .arrow, front => ∃ gap gap', front = gap ++ '=' :: gap' ∧ isBlankText gap = true ∧
      isBlankText gap' = true

/-- What stands between the parameter list and the body. -/
def Form.Back : Form → List Char → Prop
  | .declaration, back => isBlankText back = true
  | .arrow, back => ∃ gap gap', back = gap ++ '=' :: '>' :: gap' ∧ isBlankText gap = true ∧
      isBlankText gap' = true

/-- A function that is written in a content. -/
structure Written (content : List Char) where
  form : Form
  before : List Char
  name : List Char
  front : List Char
  params : List Char
  back : List Char
  body : List Char
  after : List Char
  whole : content = before ++ (name ++ (front ++ '(' :: (params ++ ')' ::
    (back ++ '\x7b' :: (body ++ '\x7d' :: after)))))
  isFront : form.Front front
  isBack : form.Back back
  isParams : IsParameters params
  plainBody : Plain body
  balancedBody : braces.Balanced body

/-! ### The scan for a closing bracket -/

theorem after_code {c : Char} {rest : List Char} (unquoted : isTextQuote c = false)
    (noComment : c = '/' → rest.head? ≠ some '/' ∧ rest.head? ≠ some '*') :
    Mode.code.after c rest.head? = .code := by
  rw [Mode.after, unquoted, if_neg Bool.false_ne_true]
  by_cases slash : c = '/'
  · obtain ⟨one, two⟩ := noComment slash
    simp [one, two]
  · simp [slash]

/-- Text that does not make a comment of a slash before it. -/
def Calm (tail : List Char) : Prop :=
  tail.head? ≠ some '/' ∧ tail.head? ≠ some '*'

theorem Plain.tail {c : Char} {text : List Char} (plain : Plain (c :: text)) : Plain text where
  unquoted := fun d mem => plain.unquoted d (List.mem_cons_of_mem _ mem)
  noLineComment := fun inside => plain.noLineComment (inside.trans (List.suffix_cons _ _).isInfix)
  noBlockComment := fun inside => plain.noBlockComment (inside.trans (List.suffix_cons _ _).isInfix)

theorem Plain.after_head {c : Char} {text tail : List Char} (plain : Plain (c :: text))
    (calm : Calm tail) : Mode.code.after c (text ++ tail).head? = .code := by
  refine after_code (plain.unquoted c List.mem_cons_self) ?_
  rintro rfl
  cases text with
  | nil => exact calm
  | cons d text =>
    constructor
    · intro same
      obtain rfl : d = '/' := Option.some.inj same
      exact plain.noLineComment ⟨[], text, rfl⟩
    · intro same
      obtain rfl : d = '*' := Option.some.inj same
      exact plain.noBlockComment ⟨[], text, rfl⟩

/-- Brackets that differ and that no text or comment starts with. -/
structure Brackets.Ordinary (b : Brackets) : Prop where
  differ : b.opener ≠ b.closer
  opener : isTextQuote b.opener = false ∧ b.opener ≠ '/'
  closer : b.closer ≠ '/' ∧ b.closer ≠ '*'

theorem ordinary_parentheses : parentheses.Ordinary := by
  constructor <;> decide

theorem ordinary_braces : braces.Ordinary := by
  constructor <;> decide

variable {b : Brackets} {text tail : List Char}

theorem Brackets.Ordinary.calm (ordinary : b.Ordinary) (rest : List Char) :
    Calm (b.closer :: rest) :=
  ⟨fun same => ordinary.closer.1 (Option.some.inj same),
    fun same => ordinary.closer.2 (Option.some.inj same)⟩

theorem closing?_cons (ordinary : b.Ordinary) (offset : Nat) (rest : List Char) :
    closing? b offset (b.opener :: rest) = closing?.go b .code 1 (offset + 1) rest := by
  have goes : Mode.code.after b.opener rest.head? = .code :=
    after_code ordinary.opener.1 fun slash => absurd slash ordinary.opener.2
  rw [closing?, closing?.go, if_neg (by simp [ordinary.differ]), goes]
  congr 1
  simp [Brackets.depthAfter]

/-- How deep a text leads. -/
def Brackets.rise (b : Brackets) (text : List Char) : Int :=
  (text.count b.opener : Int) - text.count b.closer

theorem Brackets.rise_cons (differ : b.opener ≠ b.closer) (depth : Int) (c : Char)
    (text : List Char) :
    b.depthAfter .code depth c + b.rise text = depth + b.rise (c :: text) := by
  rw [depthAfter, if_neg (by decide), rise, rise, List.count_cons, List.count_cons]
  by_cases opens : c = b.opener
  · subst opens
    simp [differ]
    omega
  · by_cases closes : c = b.closer
    · subst closes
      simp [opens]
      omega
    · simp [opens, closes]

/-- Over plain text that never closes the first bracket the scan only counts. -/
theorem go_append (differ : b.opener ≠ b.closer) {depth : Int} {offset : Nat} (plain : Plain text)
    (calm : Calm tail) (opened : ∀ part, part <+: text → 0 < depth + b.rise part) :
    closing?.go b .code depth offset (text ++ tail) =
      closing?.go b .code (depth + b.rise text) (offset + text.length) tail := by
  induction text generalizing depth offset with
  | nil => simp [Brackets.rise]
  | cons c text ih =>
    have next (part : List Char) := Brackets.rise_cons differ depth c part
    have opened' (part : List Char) (start : part <+: text) :
        0 < b.depthAfter .code depth c + b.rise part := by
      rw [next]
      exact opened _ ((List.prefix_cons_inj c).mpr start)
    have positive := opened' [] List.nil_prefix
    rw [Brackets.rise, List.count_nil, List.count_nil, Int.sub_self, Int.add_zero] at positive
    -- The scan ends where the depth is zero, and here it stays above.
    have inside : (b.depthAfter .code depth c == 0) = false :=
      beq_eq_false_iff_ne.mpr (Int.ne_of_gt positive)
    rw [List.cons_append, closing?.go, inside, Bool.and_false, if_neg Bool.false_ne_true, plain.after_head calm,
      ih plain.tail opened', next, List.length_cons, Nat.add_right_comm, Nat.add_assoc]

theorem Brackets.Balanced.rise_eq (balanced : b.Balanced text) : b.rise text = 0 := by
  rw [rise, balanced.whole, Int.sub_self]

/-- A bracket that opens a balanced plain text is closed by the bracket behind it. -/
theorem closing?_balanced (ordinary : b.Ordinary) (plain : Plain text)
    (balanced : b.Balanced text) (offset : Nat) (rest : List Char) :
    closing? b offset (b.opener :: (text ++ b.closer :: rest)) =
      some (offset + 1 + text.length, rest) := by
  -- The bracket that opened the text adds one to every depth in it.
  have opened (part : List Char) (start : part <+: text) : 0 < 1 + b.rise part := by
    have := balanced.front part start
    rw [Brackets.rise]
    omega
  rw [closing?_cons ordinary, go_append ordinary.differ plain (ordinary.calm rest) opened,
    balanced.rise_eq, closing?.go, if_pos]
  simp [Brackets.depthAfter, ordinary.differ.symm]

/-- Plain text that closes more brackets than it opens holds the bracket that closes the first. -/
theorem exists_go (differ : b.opener ≠ b.closer) {depth : Int} (offset : Nat) (plain : Plain text)
    (calm : Calm tail) (opened : 0 < depth) (closed : depth + b.rise text ≤ 0) :
    ∃ close rest, closing?.go b .code depth offset (text ++ tail) = some (close, rest) ∧
      offset ≤ close ∧ close < offset + text.length := by
  induction text generalizing depth offset with
  | nil =>
    simp [Brackets.rise] at closed
    omega
  | cons c text ih =>
    rw [List.cons_append, closing?.go]
    split
    · exact ⟨_, _, rfl, Nat.le_refl _, by simp⟩
    next goesOn =>
      rw [plain.after_head calm]
      have next := Brackets.rise_cons differ depth c text
      -- Only a closing bracket at depth one leads out, and that is where the scan ends.
      have opened' : 0 < b.depthAfter .code depth c := by
        rw [Brackets.depthAfter, if_neg (by decide)] at goesOn ⊢
        split
        · omega
        · split
          next opens closes =>
            simp [closes, opens] at goesOn
            omega
          · exact opened
      obtain ⟨close, rest, found, least, most⟩ :=
        @ih _ (offset + 1) plain.tail opened' (by omega)
      refine ⟨close, rest, found, by omega, ?_⟩
      rw [List.length_cons]
      omega

/-! ### Where the scan starts -/

theorem ne_of_isBlankText {gap : List Char} (blank : isBlankText gap = true) {c : Char}
    (shown : isBlank c = false) : c ∉ gap := by
  intro mem
  rw [isBlankText, List.all_eq_true] at blank
  exact absurd (blank c mem) (by rw [shown]; exact Bool.false_ne_true)

theorem IsParameters.parentheses_balanced {params : List Char} (isParams : IsParameters params) :
    parentheses.Balanced params where
  front := by
    intro part start
    have unclosed : part.count ')' = 0 :=
      List.count_eq_zero.mpr fun mem => isParams.flat.2 (start.subset mem)
    exact unclosed ▸ Nat.zero_le _
  whole := by
    rw [parentheses, List.count_eq_zero.mpr isParams.flat.1, List.count_eq_zero.mpr isParams.flat.2]

/-- A parameter list that follows at once is skipped. -/
theorem afterParameters_at_once {gap params rest : List Char} (blank : isBlankText gap = true)
    (isParams : IsParameters params) (offset : Nat) :
    afterParameters offset (gap ++ '(' :: (params ++ ')' :: rest)) =
      (offset + gap.length + 1 + params.length + 1, rest) := by
  have before : ∀ c ∈ gap, (c != '(') = true := by
    intro c mem
    rw [bne_iff_ne]
    rintro rfl
    exact ne_of_isBlankText blank (by decide) mem
  have front : (gap ++ '(' :: (params ++ ')' :: rest)).takeWhile (· != '(') = gap := by
    rw [List.takeWhile_append_of_pos before]
    simp
  have back : (gap ++ '(' :: (params ++ ')' :: rest)).dropWhile (· != '(') =
      '(' :: (params ++ ')' :: rest) := by
    rw [List.dropWhile_append_of_pos before]
    simp
  have closed := closing?_balanced ordinary_parentheses isParams.plain
    isParams.parentheses_balanced (offset + gap.length) rest
  rw [afterParameters.eq_def]
  simp only [front, back, blank, if_true]
  rw [show closing? ⟨'(', ')'⟩ (offset + gap.length) ('(' :: (params ++ ')' :: rest)) = _ from
    closed]

/-- Nothing is skipped when something else comes before the next parenthesis. -/
theorem afterParameters_later {gap rest : List Char} {c : Char} (blank : isBlankText gap = true)
    (shown : isBlank c = false) (other : c ≠ '(') (offset : Nat) :
    afterParameters offset (gap ++ c :: rest) = (offset, gap ++ c :: rest) := by
  have before : ∀ d ∈ gap ++ [c], (d != '(') = true := by
    intro d mem
    rw [bne_iff_ne]
    rintro rfl
    rcases List.mem_append.mp mem with mem | mem
    · exact ne_of_isBlankText blank (by decide) mem
    · exact other (List.mem_singleton.mp mem).symm
  have filled : isBlankText ((gap ++ c :: rest).takeWhile (· != '(')) = false := by
    rw [← List.singleton_append, ← List.append_assoc, List.takeWhile_append_of_pos before]
    simp [isBlankText, shown]
  rw [afterParameters.eq_def]
  simp only [filled]
  split <;> rfl

/-! ### The body -/

variable {content : List Char} {name : Cursor} {startLine offset : Nat}

theorem findIdx?_here {lead : List Char} {c : Char} (rest : List Char) (free : c ∉ lead) :
    (lead ++ c :: rest).findIdx? (· == c) = some lead.length := by
  have notBefore : lead.findIdx? (· == c) = none := by
    rw [List.findIdx?_eq_none_iff]
    intro d mem
    rw [beq_eq_false_iff_ne]
    rintro rfl
    exact free mem
  rw [List.findIdx?_append, notBefore, List.findIdx?_cons]
  simp

theorem findIdx?_later {lead : List Char} {c d : Char} (rest : List Char) (free : d ∉ lead)
    (other : c ≠ d) {place : Nat}
    (found : (lead ++ c :: rest).findIdx? (· == d) = some place) : lead.length < place := by
  obtain ⟨inside, there, -⟩ := List.findIdx?_eq_some_iff_getElem.mp found
  rw [beq_iff_eq] at there
  refine Nat.lt_of_not_le fun early => ?_
  rcases Nat.lt_or_eq_of_le early with less | rfl
  · rw [List.getElem_append_left less] at there
    exact free (there ▸ List.getElem_mem less)
  · exact other (by simpa using there)

theorem braceEnd_brace {lead rest : List Char}
    (skipped : afterParameters name.offset name.rest = (offset, lead ++ '\x7b' :: rest))
    (free : '\x7b' ∉ lead ∧ ';' ∉ lead) :
    braceEnd (Source.of content) name startLine =
      (Source.of content).lineAt (closingOffset braces content.length (offset + lead.length)
        ('\x7b' :: rest)) := by
  have closes : braceEnd.closeLine (Source.of content) offset (lead ++ '\x7b' :: rest) lead.length =
      (Source.of content).lineAt (closingOffset braces content.length (offset + lead.length)
        ('\x7b' :: rest)) := by
    rw [braceEnd.closeLine, List.drop_left]
    rfl
  simp only [braceEnd, skipped, findIdx?_here rest free.1]
  split
  · next missing _ => cases missing
  · next missing _ => cases missing
  · next same _ =>
    cases same
    exact closes
  · next same found =>
    cases same
    rw [if_neg (Nat.lt_asymm (findIdx?_later rest free.2 (by decide) found))]
    exact closes

theorem braceEnd_semicolon {lead rest : List Char}
    (skipped : afterParameters name.offset name.rest = (offset, lead ++ ';' :: rest))
    (free : '\x7b' ∉ lead ∧ ';' ∉ lead) :
    braceEnd (Source.of content) name startLine =
      (Source.of content).lineAt (offset + lead.length) := by
  simp only [braceEnd, skipped, findIdx?_here rest free.2]
  split
  · next missing => cases missing
  · next same =>
    cases same
    rfl
  · next missing => cases missing
  · next found same =>
    cases same
    rw [if_pos (findIdx?_later rest free.1 (by decide) found)]

theorem braceEnd_body {lead body after : List Char}
    (skipped : afterParameters name.offset name.rest =
      (offset, lead ++ '\x7b' :: (body ++ '\x7d' :: after)))
    (free : '\x7b' ∉ lead ∧ ';' ∉ lead) (plain : Plain body) (balanced : braces.Balanced body) :
    braceEnd (Source.of content) name startLine =
      (Source.of content).lineAt (offset + lead.length + 1 + body.length) := by
  have closed := closing?_balanced ordinary_braces plain balanced (offset + lead.length) after
  rw [braceEnd_brace skipped free, closingOffset]
  rw [show closing? braces (offset + lead.length) ('\x7b' :: (body ++ '\x7d' :: after)) = _ from
    closed]

theorem Plain.of_append (text : List Char) {text' : List Char} (plain : Plain (text ++ text')) :
    Plain text' where
  unquoted := fun c mem => plain.unquoted c (List.mem_append_right _ mem)
  noLineComment := fun inside =>
    plain.noLineComment (inside.trans (List.suffix_append _ _).isInfix)
  noBlockComment := fun inside =>
    plain.noBlockComment (inside.trans (List.suffix_append _ _).isInfix)

/-- The first brace of a balanced text is closed in what follows. -/
theorem Brackets.Balanced.rise_behind {front more : List Char} (differ : b.opener ≠ b.closer)
    (balanced : b.Balanced (front ++ b.opener :: more)) (first : b.opener ∉ front) :
    1 + b.rise more ≤ 0 := by
  have unclosed := balanced.front front (List.prefix_append _ _)
  rw [List.count_eq_zero.mpr first] at unclosed
  have whole := balanced.whole
  rw [List.count_append, List.count_append, List.count_cons_of_ne differ, List.count_cons_self,
    List.count_eq_zero.mpr first] at whole
  rw [rise]
  omega

/-- A brace or a semicolon in a parameter list that is not skipped ends the declaration in it. -/
theorem exists_braceEnd {lead params tail : List Char}
    (skipped : afterParameters name.offset name.rest = (offset, lead ++ (params ++ tail)))
    (free : '\x7b' ∉ lead ∧ ';' ∉ lead) (plain : Plain params) (balanced : braces.Balanced params)
    (calm : Calm tail) (misled : '\x7b' ∈ params ∨ ';' ∈ params) :
    ∃ place < params.length, braceEnd (Source.of content) name startLine =
      (Source.of content).lineAt (offset + lead.length + place) := by
  -- The first brace or semicolon decides.
  obtain ⟨c, found⟩ : ∃ c, params.find? (fun c => c == '\x7b' || c == ';') = some c := by
    rw [← Option.isSome_iff_exists, List.find?_isSome]
    rcases misled with mem | mem
    · exact ⟨_, mem, rfl⟩
    · exact ⟨_, mem, rfl⟩
  obtain ⟨mark, front, more, rfl, others⟩ := List.find?_eq_some_iff_append.mp found
  have free' : '\x7b' ∉ lead ++ front ∧ ';' ∉ lead ++ front := by
    constructor
    · intro mem
      rcases List.mem_append.mp mem with mem | mem
      · exact free.1 mem
      · simpa using others _ mem
    · intro mem
      rcases List.mem_append.mp mem with mem | mem
      · exact free.2 mem
      · simpa using others _ mem
  have skipped : afterParameters name.offset name.rest =
      (offset, (lead ++ front) ++ c :: (more ++ tail)) := by
    rw [skipped, List.append_assoc, List.append_assoc, List.cons_append]
  rw [Bool.or_eq_true, beq_iff_eq, beq_iff_eq] at mark
  rcases mark with rfl | rfl
  · have behind : Plain more := (plain.of_append front).tail
    have closes := balanced.rise_behind ordinary_braces.differ fun mem =>
      free'.1 (List.mem_append_right _ mem)
    obtain ⟨close, rest, closed, least, most⟩ := exists_go ordinary_braces.differ
      (offset + (lead ++ front).length + 1) behind calm Int.one_pos closes
    refine ⟨close - offset - lead.length, ?_, ?_⟩
    · simp only [List.length_append, List.length_cons] at least most ⊢
      omega
    · rw [braceEnd_brace skipped free', closingOffset]
      rw [show closing? braces (offset + (lead ++ front).length) ('\x7b' :: (more ++ tail)) = _ from
        (closing?_cons ordinary_braces _ _).trans closed]
      simp only [List.length_append] at least ⊢
      congr 1
      omega
  · refine ⟨front.length, by simp, ?_⟩
    rw [braceEnd_semicolon skipped free', List.length_append, Nat.add_assoc]

/-! ### Lines of a written function -/

namespace Written

variable (w : Written content)

def nameLine : Nat :=
  w.before.count '\n' + 1

/-- The line of the parameter list. -/
def listLine : Nat :=
  (w.before ++ (w.name ++ w.front)).count '\n' + 1

/-- The line of the brace that closes the body. -/
def closingLine : Nat :=
  (w.before ++ (w.name ++ (w.front ++ '(' :: (w.params ++ ')' ::
    (w.back ++ '\x7b' :: w.body))))).count '\n' + 1

/-- The parameter list of an arrow function holds a brace or a semicolon. -/
def Misleads : Prop :=
  w.form = .arrow ∧ ('\x7b' ∈ w.params ∨ ';' ∈ w.params)

instance : Decidable w.Misleads :=
  inferInstanceAs (Decidable (_ ∧ _))

def behind : List Char :=
  w.front ++ '(' :: (w.params ++ ')' :: (w.back ++ '\x7b' :: (w.body ++ '\x7d' :: w.after)))

theorem lineAt_eq {front back : List Char} (split : content = front ++ back) :
    (Source.of content).lineAt front.length = front.count '\n' + 1 := by
  rw [Source.lineAt, Source.of, split, lineOf_length]

theorem lineAt_closing : (Source.of content).lineAt (w.before.length + w.name.length +
    w.front.length + 1 + w.params.length + 1 + w.back.length + 1 + w.body.length) =
      w.closingLine := by
  have split := w.whole
  rw [show w.before ++ (w.name ++ (w.front ++ '(' :: (w.params ++ ')' ::
      (w.back ++ '\x7b' :: (w.body ++ '\x7d' :: w.after))))) =
    (w.before ++ (w.name ++ (w.front ++ '(' :: (w.params ++ ')' ::
      (w.back ++ '\x7b' :: w.body))))) ++ '\x7d' :: w.after by simp] at split
  rw [closingLine, ← lineAt_eq split]
  simp only [List.length_append, List.length_cons]
  congr 1
  omega

theorem lineAt_params {place : Nat} (inside : place < w.params.length) :
    (Source.of content).lineAt (w.before.length + w.name.length + w.front.length + 1 + place) =
      w.listLine := by
  have split := w.whole
  rw [show w.before ++ (w.name ++ (w.front ++ '(' :: (w.params ++ ')' ::
      (w.back ++ '\x7b' :: (w.body ++ '\x7d' :: w.after))))) =
    (w.before ++ (w.name ++ w.front) ++ '(' :: w.params.take place) ++ (w.params.drop place ++
      ')' :: (w.back ++ '\x7b' :: (w.body ++ '\x7d' :: w.after))) by
        simp [← List.append_assoc (w.params.take place)]] at split
  -- The list has no newline, so any place in it is on the line where it starts.
  have inline : (w.params.take place).count '\n' = 0 :=
    List.count_eq_zero.mpr fun mem => w.isParams.inline (List.mem_of_mem_take mem)
  have line := lineAt_eq split
  rw [List.count_append, List.count_cons_of_ne (by decide), inline] at line
  rw [listLine, ← Nat.add_zero (List.count _ _), ← line]
  simp only [List.length_append, List.length_cons, List.length_take]
  congr 1
  omega

theorem bare {gap : List Char} (blank : isBlankText gap = true) : '\x7b' ∉ gap ∧ ';' ∉ gap :=
  ⟨ne_of_isBlankText blank (by decide), ne_of_isBlankText blank (by decide)⟩

variable {w} (stands : name.offset = w.before.length + w.name.length) (rest : name.rest = w.behind)

include stands rest

theorem braceEnd_declaration (form : w.form = .declaration) :
    braceEnd (Source.of content) name startLine = w.closingLine := by
  have isFront := w.isFront
  have isBack := w.isBack
  rw [form] at isFront isBack
  have skipped : afterParameters name.offset name.rest =
      (name.offset + w.front.length + 1 + w.params.length + 1,
        w.back ++ '\x7b' :: (w.body ++ '\x7d' :: w.after)) := by
    rw [rest, behind, afterParameters_at_once isFront w.isParams]
  rw [braceEnd_body skipped (bare isBack) w.plainBody w.balancedBody, stands, w.lineAt_closing]

section Arrow

variable (form : w.form = .arrow)

include form

omit stands in
theorem afterParameters_arrow :
    afterParameters name.offset name.rest = (name.offset, w.behind) ∧
      '\x7b' ∉ w.front ∧ ';' ∉ w.front := by
  have isFront := w.isFront
  rw [form] at isFront
  obtain ⟨gap, gap', front_eq, blank, blank'⟩ := isFront
  constructor
  · rw [rest, behind, front_eq, List.append_assoc]
    exact afterParameters_later blank (by decide) (by decide) _
  · rw [front_eq]
    simp [bare blank, bare blank']

theorem braceEnd_misled (misled : '\x7b' ∈ w.params ∨ ';' ∈ w.params) :
    braceEnd (Source.of content) name startLine = w.listLine := by
  obtain ⟨skipped, free⟩ := afterParameters_arrow rest form
  have skipped : afterParameters name.offset name.rest = (name.offset, (w.front ++ ['(']) ++
      (w.params ++ ')' :: (w.back ++ '\x7b' :: (w.body ++ '\x7d' :: w.after)))) := by
    rw [skipped, behind, List.append_assoc, List.singleton_append]
  obtain ⟨place, inside, found⟩ := exists_braceEnd skipped (by simpa using free) w.isParams.plain
    w.isParams.balanced (ordinary_parentheses.calm _) misled
  rw [found, ← w.lineAt_params inside, stands, List.length_append, List.length_singleton,
    Nat.add_assoc _ w.front.length]

theorem braceEnd_arrow (clear : '\x7b' ∉ w.params ∧ ';' ∉ w.params) :
    braceEnd (Source.of content) name startLine = w.closingLine := by
  obtain ⟨skipped, free⟩ := afterParameters_arrow rest form
  have isBack := w.isBack
  rw [form] at isBack
  obtain ⟨gap, gap', back_eq, blank, blank'⟩ := isBack
  have skipped : afterParameters name.offset name.rest = (name.offset,
      (w.front ++ '(' :: (w.params ++ ')' :: w.back)) ++ '\x7b' ::
        (w.body ++ '\x7d' :: w.after)) := by
    rw [skipped, behind]
    simp
  -- What the list holds is searched too, and it does not matter here.
  have free : '\x7b' ∉ w.front ++ '(' :: (w.params ++ ')' :: w.back) ∧
      ';' ∉ w.front ++ '(' :: (w.params ++ ')' :: w.back) := by
    rw [back_eq]
    simp [free, clear, bare blank, bare blank']
  rw [braceEnd_body skipped free w.plainBody w.balancedBody, ← w.lineAt_closing, stands]
  simp only [List.length_append, List.length_cons]
  congr 1
  omega

end Arrow

theorem braceEnd_eq : braceEnd (Source.of content) name startLine =
    if w.Misleads then w.listLine else w.closingLine := by
  split
  next misleads => exact braceEnd_misled stands rest misleads.1 misleads.2
  next straight =>
    cases form : w.form with
    | declaration => exact braceEnd_declaration stands rest form
    | arrow => exact braceEnd_arrow stands rest form (by simpa [Misleads, form] using straight)

end Written

end Extent

namespace Outline

/-! ### What is reported -/

/-- Every declaration that some patterns find. -/
def matched (patterns : List Pattern) (s : Extent.Source) : List Declared :=
  patterns.flatMap fun pattern => (pattern.findAll s.content).filterMap fun m =>
    (m.group? "name").map fun span =>
      ⟨String.ofList span.text, span.stop, s.lineAt span.start.offset⟩

def Declared.SameKey (d e : Declared) : Prop :=
  d.name = e.name ∧ d.line = e.line

section

variable {patterns : List Pattern} {s : Extent.Source} {d e : Declared}

theorem mem_matched_iff : d ∈ matched patterns s ↔
    ∃ p ∈ patterns, ∃ m ∈ p.findAll s.content, ∃ span, m.group? "name" = some span ∧
      d = ⟨String.ofList span.text, span.stop, s.lineAt span.start.offset⟩ := by
  simp only [matched, List.mem_flatMap, List.mem_filterMap, Option.map_eq_some_iff,
    eq_comm (a := d)]

theorem exists_mem_foldl_note {found : List Declared} (seen : List Declared)
    (mem : d ∈ found ∨ ∃ e ∈ seen, d.SameKey e) :
    ∃ e ∈ found.foldl declared.note seen, d.SameKey e := by
  induction found generalizing seen with
  | nil => simpa using mem
  | cons x found ih =>
    refine ih _ ?_
    rcases mem with mem | ⟨e, known, same⟩
    · rcases List.mem_cons.mp mem with rfl | mem
      · right
        rw [declared.note]
        split
        next known =>
          obtain ⟨e, mem, same⟩ := List.any_eq_true.mp known
          rw [Bool.and_eq_true, beq_iff_eq, beq_iff_eq] at same
          exact ⟨e, mem, same.1.symm, same.2.symm⟩
        · exact ⟨d, List.mem_cons_self, rfl, rfl⟩
      · exact .inl mem
    · right
      rw [declared.note]
      split
      · exact ⟨e, known, same⟩
      · exact ⟨e, List.mem_cons_of_mem _ known, same⟩

theorem pairwise_foldl_note {found seen : List Declared}
    (apart : seen.Pairwise fun d e => ¬ d.SameKey e) :
    (found.foldl declared.note seen).Pairwise fun d e => ¬ d.SameKey e := by
  induction found generalizing seen with
  | nil => exact apart
  | cons x found ih =>
    refine ih ?_
    rw [declared.note]
    split
    · exact apart
    next unknown =>
      refine List.pairwise_cons.mpr ⟨fun e mem same => unknown ?_, apart⟩
      exact List.any_eq_true.mpr ⟨e, mem, by simp [same.1, same.2]⟩

/-- Of all declarations of a name on a line one is kept. -/
theorem exists_declared (found : d ∈ matched patterns s) :
    ∃ e ∈ declared patterns s, d.SameKey e := by
  obtain ⟨e, mem, same⟩ := exists_mem_foldl_note [] (.inl found)
  exact ⟨e, List.mem_reverse.mpr mem, same⟩

theorem eq_of_sameKey (mem : d ∈ declared patterns s) (mem' : e ∈ declared patterns s)
    (same : d.SameKey e) : d = e := by
  have apart : (declared patterns s).Pairwise fun d e => ¬ e.SameKey d :=
    List.pairwise_reverse.mpr (pairwise_foldl_note List.Pairwise.nil)
  have : Std.Symm fun d e : Declared => ¬ e.SameKey d :=
    ⟨fun d e other same => other ⟨same.1.symm, same.2.symm⟩⟩
  by_contra differ
  exact apart.forall mem' mem (Ne.symm differ) same

theorem mem_functionsOf_iff {g : Grammar} {f : FunctionSpan} : f ∈ functionsOf g s ↔
    ∃ d ∈ declared g.functions s, d.name ∉ Grammar.controlKeywords ∧
      f = ⟨d.name, d.line, Extent.lastLine g s d.stop d.line,
        Complexity.cyclomaticOf (linesText s d.line (Extent.lastLine g s d.stop d.line))⟩ := by
  simp only [functionsOf, List.mem_mergeSort, List.mem_map, List.mem_filter, Bool.not_eq_true',
    List.contains_eq_mem, decide_eq_false_iff_not, and_assoc, eq_comm (a := f)]

end

/-- A name that the patterns find where a function is written is the name of that function. -/
theorem matched_written {content : List Char} {patterns : List Pattern} {d : Declared}
    (declare : ∀ p ∈ patterns, p.Declares) (found : d ∈ matched patterns (.of content))
    (w : Extent.Written content) (named : d.name = String.ofList w.name)
    (stands : d.stop.offset = w.before.length + w.name.length) :
    d.line = w.nameLine ∧ d.stop.rest = w.behind := by
  obtain ⟨p, ofPattern, m, ofMatch, span, under, rfl⟩ := mem_matched_iff.mp found
  obtain ⟨before, part, split, text, -, -, startAt, stopAt⟩ :=
    exists_parts_of_places (declare p ofPattern) (Pattern.findAll_places ofMatch) under
  obtain rfl : part = w.name := text.symm.trans (String.ofList_injective named)
  have size : before.length = w.before.length := by
    dsimp only at stands
    omega
  -- The content is parted at one place in two ways, so the parts are the same.
  obtain ⟨rfl, behind⟩ := List.append_inj (split.symm.trans w.whole) size
  constructor
  · rw [Extent.Written.nameLine, ← Extent.Written.lineAt_eq w.whole, ← startAt]
  · exact List.append_cancel_left behind

theorem functions_analyze {config : OutlineConfig} {path content : String}
    (outlined : (Grammar.ofLanguage (Language.ofPath path)).isEmpty = false) :
    (analyze config path content).functions =
      functionsOf (Grammar.ofLanguage (Language.ofPath path)) (.of content.toList) := by
  rw [analyze, if_neg (by rw [outlined]; exact Bool.false_ne_true)]
  rfl

/-- The last line of a written function that is reported. -/
theorem analyze_written {config : OutlineConfig} {path content : String}
    (script : Language.ofPath path = .javascript ∨ Language.ofPath path = .typescript)
    (w : Extent.Written content.toList) {d : Declared}
    (found : d ∈ matched (Grammar.ofLanguage (Language.ofPath path)).functions
      (.of content.toList))
    (named : d.name = String.ofList w.name)
    (stands : d.stop.offset = w.before.length + w.name.length)
    (free : d.name ∉ Grammar.controlKeywords) :
    (∃ f ∈ (analyze config path content).functions, f.name = d.name ∧ f.startLine = w.nameLine) ∧
      (d ∈ declared (Grammar.ofLanguage (Language.ofPath path)).functions (.of content.toList) →
        ∀ f ∈ (analyze config path content).functions, f.name = d.name →
          f.startLine = w.nameLine →
          f.endLine = (if w.Misleads then w.listLine else w.closingLine : Nat)) := by
  obtain ⟨outlined, byBraces⟩ : (Grammar.ofLanguage (Language.ofPath path)).isEmpty = false ∧
      (Grammar.ofLanguage (Language.ofPath path)).endsByIndent = false := by
    rcases script with script | script <;> rw [script] <;> decide
  rw [functions_analyze outlined]
  obtain ⟨line, rest⟩ := matched_written (Grammar.functions_declare _) found w named stands
  constructor
  · obtain ⟨e, kept, name, line'⟩ := exists_declared found
    refine ⟨_, mem_functionsOf_iff.mpr ⟨e, kept, name ▸ free, rfl⟩, name.symm, ?_⟩
    rw [← line, line']
  · intro kept f mem name start
    obtain ⟨e, kept', -, rfl⟩ := mem_functionsOf_iff.mp mem
    -- Of one name and line only one declaration is kept, so it is this one.
    obtain rfl : d = e :=
      eq_of_sameKey kept kept' ⟨name.symm, line.trans (Int.ofNat_inj.mp start).symm⟩
    rw [Extent.lastLine, byBraces, if_neg Bool.false_ne_true,
      Extent.Written.braceEnd_eq stands rest]

theorem mem_matched_of_mem_declared {patterns : List Pattern} {s : Extent.Source} {d : Declared}
    (mem : d ∈ declared patterns s) : d ∈ matched patterns s :=
  (mem_of_mem_foldl_note (List.mem_reverse.mp mem)).resolve_right List.not_mem_nil

/-- A default value in braces. -/
def defaultInBraces : List Char :=
  "a = \x7b\x7d".toList

theorem isParameters_defaultInBraces : Extent.IsParameters defaultInBraces where
  plain := by decide +kernel
  balanced := by decide +kernel
  flat := by decide +kernel
  inline := by decide +kernel

def declarationText : String :=
  "function f(a = \x7b\x7d) \x7b\n  return a\n\x7d\n"

def declarationWritten : Extent.Written declarationText.toList where
  form := .declaration
  before := "function ".toList
  name := ['f']
  front := []
  params := defaultInBraces
  back := [' ']
  body := "\n  return a\n".toList
  after := ['\n']
  whole := by decide +kernel
  isFront := rfl
  isBack := rfl
  isParams := isParameters_defaultInBraces
  plainBody := by decide +kernel
  balancedBody := by decide +kernel

/-- A declaration whose parameter has a default value in braces ends where its body does. -/
theorem analyze_written_declaration :
    ∃ f ∈ (analyze {} "a.js" declarationText).functions,
      f.name = "f" ∧ f.startLine = 1 ∧ f.endLine = 3 := by
  obtain ⟨d, kept, named, stands, free⟩ :
      ∃ d ∈ declared (Grammar.ofLanguage (Language.ofPath "a.js")).functions
          (.of declarationText.toList),
        d.name = String.ofList declarationWritten.name ∧
          d.stop.offset = declarationWritten.before.length + declarationWritten.name.length ∧
          d.name ∉ Grammar.controlKeywords := by decide +kernel
  obtain ⟨⟨f, mem, name, start⟩, ends⟩ := @analyze_written {} "a.js" declarationText
    (.inl (by decide +kernel)) declarationWritten d (mem_matched_of_mem_declared kept) named stands
    free
  refine ⟨f, mem, (name.trans named).trans (by decide +kernel), start, ?_⟩
  rw [ends kept f mem name start]
  decide +kernel

def arrowText : String :=
  "const f = (a = \x7b\x7d) => \x7b\n  return a\n\x7d\n"

def arrowWritten : Extent.Written arrowText.toList where
  form := .arrow
  before := "const ".toList
  name := ['f']
  front := " = ".toList
  params := defaultInBraces
  back := " => ".toList
  body := "\n  return a\n".toList
  after := ['\n']
  whole := by decide +kernel
  isFront := ⟨[' '], [' '], by decide, by decide, by decide⟩
  isBack := ⟨[' '], [' '], by decide, by decide, by decide⟩
  isParams := isParameters_defaultInBraces
  plainBody := by decide +kernel
  balancedBody := by decide +kernel

/-- An arrow function with that parameter ends before its body does. -/
theorem analyze_written_misled :
    (∃ d ∈ matched (Grammar.ofLanguage (Language.ofPath "a.js")).functions (.of arrowText.toList),
      d.name = String.ofList arrowWritten.name ∧
        d.stop.offset = arrowWritten.before.length + arrowWritten.name.length ∧
        d.name ∉ Grammar.controlKeywords) ∧
      arrowWritten.closingLine = 3 ∧
      (analyze {} "a.js" arrowText).functions.map (fun f => (f.name, f.startLine, f.endLine)) =
        [("f", 1, 1)] := by
  refine ⟨by decide +kernel, by decide +kernel, ?_⟩
  rw [functions_analyze (by decide +kernel)]
  decide +kernel

end Outline

end CodeAtlas
