import CodeAtlas.Proofs.Log.Event
import CodeAtlas.Proofs.Log.Seams

/-!
# Bearer tokens in a log

The rule of bearer tokens goes by the word before a token, and it sees what three earlier rules have
left. So a token is taken out just when that word is still there by then, and was not itself taken
as the value of a credential, as part of a home directory or as a token.

## Main results

`text_bearer_iff`: a text does not hang on its token exactly when the word before it is kept.
`lines_bearer`: where the words before them are kept, tokens do not influence what a log writes.

## Proof strategy

The text is cut behind the word and behind the token. The earlier rules are gentle: they go over the
parts one by one. The rule of bearer tokens either comes to the word, and takes the token with it,
or has nothing to take at the cut.
-/

namespace CodeAtlas.Redaction

open Text (isBlank)

variable {a b t : List Char}

/-! ## The word before a token -/

section Cut

variable {word blanks token rest : List Char}

theorem Bears.append (bears : Bears a word blanks token rest) (apart : IsApart b) :
    Bears (a ++ b) word blanks token (rest ++ b) where
  whole := by rw [bears.whole]; simp only [List.append_assoc]
  word := bears.word
  blanks := by
    refine ⟨bears.blanks.filled, bears.blanks.accepted, ?_⟩
    obtain ⟨c, token, rfl⟩ := List.exists_cons_of_ne_nil bears.token.filled
    exact bears.blanks.ends
  token := bears.token.append fun c head => by simp [apart c head]

/-- A token behind a cut belongs to a word in front of it that is alone there. -/
theorem Bears.cut (bears : Bears (a ++ b) word blanks token rest) (apart : IsApart b)
    (solid : ∀ c ∈ a.getLast?, isBlank c = false) :
    a = word ∨ ∃ rest', Bears a word blanks token rest' ∧ rest = rest' ++ b := by
  obtain ⟨whole, isWord, areBlank, isToken⟩ := bears
  have token_plain : ∀ c ∈ token, isBlank c = false := fun c mem => by
    simpa using isToken.accepted c mem
  obtain ⟨a₁, rfl, behind₁⟩ := cut_behind_plain (isWord.spaceless (by decide)) apart whole
  rcases cut_blanks areBlank.accepted behind₁.symm with allBlank | ⟨a₂, rfl, behind₂⟩
  · rcases List.eq_nil_or_concat a₁ with rfl | ⟨a₁, c, rfl⟩
    · exact .inl (List.append_nil word)
    · -- The text would end in a blank.
      rw [List.concat_eq_append] at solid allBlank
      rw [← List.append_assoc, List.getLast?_concat] at solid
      have blank := allBlank c (by simp)
      rw [solid c rfl] at blank
      cases blank
  · obtain ⟨rest', rfl, rfl⟩ := cut_behind_plain token_plain apart behind₂.symm
    refine .inr ⟨rest', ⟨rfl, isWord, ?_, isToken.ends_of_split⟩, rfl⟩
    rw [← List.append_assoc] at areBlank
    exact areBlank.ends_of_split

/-- What follows a blank does not matter to the rule, but behind the word alone. -/
theorem bearerRule_append {before : Option Char} (apart : IsApart b)
    (solid : ∀ c ∈ a.getLast?, isBlank c = false) (noWord : ¬IsWord "bearer" a) :
    bearerRule before (a ++ b) = bearerRule before a := by
  refine Option.ext fun hit => ?_
  rw [bearerRule_eq_some_iff, bearerRule_eq_some_iff]
  constructor
  · rintro ⟨word, blanks, token, rest, bears, rfl⟩
    rcases bears.cut apart solid with rfl | ⟨rest', bears', rfl⟩
    · exact absurd bears.word noWord
    · exact ⟨word, blanks, token, rest', bears', rfl⟩
  · rintro ⟨word, blanks, token, rest, bears, rfl⟩
    exact ⟨word, blanks, token, rest ++ b, bears.append apart, rfl⟩

/-- A text without blanks has no token. -/
theorem bearerRule_plain {before : Option Char} (plain : ∀ c ∈ t, isBlank c = false) :
    bearerRule before t = none := by
  refine Option.eq_none_iff_forall_ne_some.mpr fun hit found => ?_
  obtain ⟨word, blanks, token, rest, bears, rfl⟩ := bearerRule_eq_some_iff.mp found
  obtain ⟨c, blanks, rfl⟩ := List.exists_cons_of_ne_nil bears.blanks.filled
  have blank := bears.blanks.accepted c List.mem_cons_self
  rw [plain c (by simp [bears.whole])] at blank
  cases blank

end Cut

/-- The scan of a text comes to the word before a token at its end, and takes a token behind it. -/
def Takes (skip : Nat) (a : List Char) : Prop :=
  ∃ front word, IsWord "bearer" word ∧ Rule.apply.go bearerRule skip none a = front ++ word ∧
    ∀ token b, token ≠ [] → (∀ c ∈ token, isBlank c = false) → IsApart b →
      Rule.apply.go bearerRule skip none (a ++ ' ' :: (token ++ b)) =
        front ++ ("Bearer [TOKEN_REDACTED]".toList ++ bearerRule.apply b)

/-- The scan of a text comes to no such word at its end, and goes on behind a blank as at a
start. -/
def Passes (skip : Nat) (a : List Char) : Prop :=
  (∀ word, IsWord "bearer" word → ¬word <:+ Rule.apply.go bearerRule skip none a) ∧
    ∀ b, Rule.apply.go bearerRule skip none (a ++ ' ' :: b) =
      Rule.apply.go bearerRule skip none a ++ ' ' :: bearerRule.apply b

theorem IsWord.filled {word : List Char} (is : IsWord "bearer" word) : word ≠ [] := by
  rintro rfl
  cases is

theorem takes_word {word : List Char} (is : IsWord "bearer" word) : Takes 0 word := by
  have plain := is.spaceless (by decide)
  refine ⟨[], word, is, ?_, ?_⟩
  · exact Rule.go_of_miss fun s _ suffix before =>
      bearerRule_plain fun c mem => plain c (suffix.subset mem)
  · intro token b filled plain' apart
    have found : bearerRule none ((word ++ ' ' :: token) ++ b) =
        some ⟨"Bearer [TOKEN_REDACTED]".toList, (word ++ ' ' :: token).length⟩ := by
      refine bearerRule_eq_some_iff.mpr ⟨word, [' '], token, b, ⟨by simp, is, ?_, ?_⟩, by simp⟩
      · refine ⟨by simp, by decide, ?_⟩
        obtain ⟨c, token, rfl⟩ := List.exists_cons_of_ne_nil filled
        simpa using plain' c List.mem_cons_self
      · exact ⟨filled, fun c mem => by simp [plain' c mem], fun c head => by simp [apart c head]⟩
    have taken := Rule.go_take (by simp) found
    rw [List.append_assoc, List.cons_append] at taken
    rw [taken, Rule.go_blind blind_bearer _, List.nil_append, Rule.apply]

theorem bearerRule_blank {before : Option Char} {c : Char} (blank : isBlank c = true) :
    bearerRule before (c :: t) = none := by
  refine Option.eq_none_iff_forall_ne_some.mpr fun hit found => ?_
  obtain ⟨word, blanks, token, rest, bears, -⟩ := bearerRule_eq_some_iff.mp found
  rw [isBlank_of_starts bears.word.filled (bears.word.spaceless (by decide)) bears.whole] at blank
  cases blank

/-- A step of the scan that writes `written` leaves the end of the text as it is. -/
theorem takes_or_passes_of_step {skip : Nat} (skip' : Nat) (written : List Char)
    (step : ∀ b, IsApart b → Rule.apply.go bearerRule skip none (a ++ b) =
      written ++ Rule.apply.go bearerRule skip' none (t ++ b))
    (ends : ∀ word, IsWord "bearer" word →
      word <:+ written ++ Rule.apply.go bearerRule skip' none t →
        word <:+ Rule.apply.go bearerRule skip' none t)
    (later : Takes skip' t ∨ Passes skip' t) : Takes skip a ∨ Passes skip a := by
  have alone : Rule.apply.go bearerRule skip none a =
      written ++ Rule.apply.go bearerRule skip' none t := by
    simpa using step [] (by simp [IsApart])
  rcases later with ⟨front, word, isWord, whole, takes⟩ | ⟨noWord, passes⟩
  · refine .inl ⟨written ++ front, word, isWord, ?_, fun token b filled plain after => ?_⟩
    · rw [alone, whole, List.append_assoc]
    · rw [step _ (isApart_space _), takes token b filled plain after, List.append_assoc]
  · refine .inr ⟨fun word isWord suffix => ?_, fun b => ?_⟩
    · rw [alone] at suffix
      exact noWord word isWord (ends word isWord suffix)
    · rw [step _ (isApart_space _), passes, alone, List.append_assoc]

/-- Induction on the text: it goes on with a skip, a hit, the word alone, or a character that is
kept. -/
theorem takes_or_passes {skip : Nat} (inside : skip ≤ a.length)
    (solid : ∀ c ∈ a.getLast?, isBlank c = false) : Takes skip a ∨ Passes skip a := by
  induction a generalizing skip with
  | nil =>
    obtain rfl : skip = 0 := Nat.le_zero.mp inside
    refine .inr ⟨fun word is suffix => is.filled (List.suffix_nil.mp suffix), fun b => ?_⟩
    rw [List.nil_append, Rule.go_miss (bearerRule_blank Text.isBlank_of_space),
      Rule.go_blind blind_bearer _]
    rfl
  | cons c a ih =>
    have solid' : ∀ d ∈ a.getLast?, isBlank d = false := fun d last =>
      solid d (by rw [List.getLast?_cons, Option.mem_def.mp last]; rfl)
    cases skip with
    | succ skip =>
      refine takes_or_passes_of_step skip [] (fun b _ => ?_) (fun _ _ => id)
        (ih (Nat.le_of_succ_le_succ inside) solid')
      rw [List.cons_append, Rule.go_succ, Rule.go_blind blind_bearer (some c), List.nil_append]
    | zero =>
      by_cases isWord : IsWord "bearer" (c :: a)
      · exact .inl (takes_word isWord)
      have same (b : List Char) (apart : IsApart b) :
          bearerRule none (c :: (a ++ b)) = bearerRule none (c :: a) :=
        bearerRule_append apart solid isWord
      cases found : bearerRule none (c :: a) with
      | some hit =>
        have taken := bounded_bearer _ _ _ found
        rw [List.length_cons] at taken
        refine takes_or_passes_of_step (hit.length - 1) hit.written (fun b apart => ?_)
          (fun word is => ?_) (ih (by omega) solid')
        · rw [List.cons_append, Rule.go_hit ((same b apart).trans found),
            Rule.go_blind blind_bearer (some c)]
        · have unmarked : ']' ∉ word := is.not_mem (by decide) (by decide)
          exact Rule.suffix_of_suffix_append (closes_bearer _ _ _ found) unmarked
      | none =>
        refine takes_or_passes_of_step 0 [c] (fun b apart => ?_) (fun word is suffix => ?_)
          (ih (Nat.zero_le _) solid')
        · rw [List.cons_append, Rule.go_miss ((same b apart).trans found),
            Rule.go_blind blind_bearer (some c)]
          rfl
        · rcases List.suffix_cons_iff.mp suffix with rfl | later
          · -- A word has no closing bracket, so it would be the text as it was.
            have unmarked : ']' ∉ Rule.apply.go bearerRule 0 none a := fun mem =>
              is.not_mem (by decide) (by decide) (List.mem_cons_of_mem c mem)
            rw [Rule.go_eq_drop closes_bearer unmarked] at is
            exact absurd is isWord
          · exact later

/-! ## Texts that differ in a token -/

/-- The word before a token is still there when the rule of bearer tokens comes to it. -/
def KeepsMark (p : String) : Prop :=
  "Bearer".toList <:+ bearerRule.apply (early (p ++ "Bearer").toList)

instance (p : String) : Decidable (KeepsMark p) :=
  inferInstanceAs (Decidable (_ <:+ _))

/-- A token in front of `q`: it has no blanks, and does not open a credential that `q` gives. -/
structure IsToken (q t : String) : Prop where
  filled : t ≠ ""
  plain : ∀ c ∈ t.toList, isBlank c = false
  closed : q ≠ "" → ¬Opens t.toList

/-- Texts that differ in a token behind a word that is kept. -/
def DifferInToken (s s' : String) : Prop :=
  ∃ p q t t', KeepsMark p ∧ IsApart q.toList ∧ IsToken q t ∧ IsToken q t' ∧
    s = p ++ "Bearer " ++ t ++ q ∧ s' = p ++ "Bearer " ++ t' ++ q

section Text

variable {p q t t' : String}

theorem last_word (p : String) : (p ++ "Bearer").toList.getLast? = some 'r' := by
  rw [String.toList_append, List.getLast?_append_of_ne_nil _ (by decide)]
  rfl

/-- The earlier rules go over the text up to the word, the token and the rest one by one. -/
theorem early_token (apart : IsApart q.toList) (isToken : IsToken q t) :
    early (p ++ "Bearer " ++ t ++ q).toList =
      early (p ++ "Bearer").toList ++ ' ' :: (early t.toList ++ early q.toList) := by
  have parts : (p ++ "Bearer " ++ t ++ q).toList =
      (p ++ "Bearer").toList ++ ' ' :: (t.toList ++ q.toList) := by
    simp only [String.toList_append, List.append_assoc]
    rfl
  have closed : ¬Opens (p ++ "Bearer").toList :=
    not_opens_of_last (last_word p) (by decide) (by decide)
  rw [parts, early, reduced_append gentle_earlyRules closed (isApart_space _),
    reduced_blank gentle_earlyRules Text.isBlank_of_space]
  by_cases rest : q = ""
  · subst rest
    rw [early, early, early, String.toList_empty, reduced_nil, List.append_nil, List.append_nil]
  · rw [reduced_append gentle_earlyRules (isToken.closed rest) apart]
    rfl

theorem solid_early (p : String) :
    ∀ c ∈ (early (p ++ "Bearer").toList).getLast?, isBlank c = false := by
  refine reduced_solid gentle_earlyRules fun c last => ?_
  rw [last_word] at last
  obtain rfl := Option.some.inj last
  decide

/-- The word that is still there behind the earlier rules is the one of the text. -/
theorem eq_of_suffix_early {word : List Char} (is : IsWord "bearer" word)
    (suffix : word <:+ early (p ++ "Bearer").toList) : word = "Bearer".toList := by
  have ours : "Bearer".toList <:+ (p ++ "Bearer").toList := by
    rw [String.toList_append]
    exact List.suffix_append _ _
  have theirs := suffix_of_reduced gentle_earlyRules (is.not_mem (by decide) (by decide)) suffix
  have lengths : word.length = "Bearer".toList.length := is.length
  exact (List.suffix_of_suffix_length_le theirs ours lengths.le).eq_of_length lengths

/-- Where the word is kept, the text does not hang on the token. -/
theorem text_eq_of_keepsMark (kept : KeepsMark p) (apart : IsApart q.toList) (is : IsToken q t)
    (is' : IsToken q t') :
    text (p ++ "Bearer " ++ t ++ q) = text (p ++ "Bearer " ++ t' ++ q) := by
  rcases takes_or_passes (Nat.zero_le _) (solid_early p) with takes | ⟨noWord, -⟩
  · -- The scan comes to the word, and takes either token with it.
    obtain ⟨front, word, -, -, takes⟩ := takes
    have taken {t : String} (is : IsToken q t) :
        bearerRule.apply (early (p ++ "Bearer " ++ t ++ q).toList) =
          front ++ ("Bearer [TOKEN_REDACTED]".toList ++ bearerRule.apply (early q.toList)) := by
      rw [early_token apart is]
      refine takes _ _ (reduced_ne_nil gentle_earlyRules ?_)
        (reduced_plain gentle_earlyRules is.plain) (reduced_apart gentle_earlyRules apart)
      exact fun empty => is.filled (String.toList_eq_nil_iff.mp empty)
    apply String.toList_injective
    rw [toList_text, toList_text, taken is, taken is']
  · exact absurd kept (noWord _ (by decide))

theorem keyRule_none {before : Option Char} {c : Char} {rest : List Char} (other : c ≠ 's') :
    keyRule before (c :: rest) = none := by
  refine Option.eq_none_iff_forall_ne_some.mpr fun hit found => ?_
  obtain ⟨-, key, rest', whole, -⟩ := keyRule_eq_some_iff.mp found
  exact other (List.cons.inj whole).1

/-- Where it is not, a token that is a letter shows. -/
theorem toList_text_letter {c : Char} (lost : ¬KeepsMark p) (apart : IsApart q.toList)
    (letter : c = 'a' ∨ c = 'c') : IsToken q (String.singleton c) ∧ ∃ rest,
      (text (p ++ "Bearer " ++ String.singleton c ++ q)).toList =
        keyRule.apply (bearerRule.apply (early (p ++ "Bearer").toList)) ++ ' ' :: c :: rest := by
  have isToken : IsToken q (String.singleton c) := by
    refine ⟨by simp, ?_, fun _ => not_opens_of_last (c := c) (by simp) ?_ ?_⟩
    · rcases letter with rfl | rfl <;> decide
    · rcases letter with rfl | rfl <;> decide
    · rcases letter with rfl | rfl <;> decide
  -- No rule has a start with one of these letters.
  have stays : early (String.singleton c).toList = [c] := by
    rcases letter with rfl | rfl <;> decide
  have noWord (rest : List Char) : bearerRule none (c :: rest) = none := by
    refine Option.eq_none_iff_forall_ne_some.mpr fun hit found => ?_
    obtain ⟨word, blanks, token, rest', bears, -⟩ := bearerRule_eq_some_iff.mp found
    have starts := bears.word.head?_append (by decide) (blanks ++ (token ++ rest'))
    rw [← bears.whole, List.head?_cons, Option.map_some] at starts
    rcases letter with rfl | rfl <;> exact absurd starts (by decide)
  refine ⟨isToken, ?_⟩
  rcases takes_or_passes (Nat.zero_le _) (solid_early p) with takes | ⟨-, passes⟩
  · -- The word that the scan comes to would be the one in front of the token.
    obtain ⟨front, word, isWord, whole, -⟩ := takes
    refine absurd ?_ lost
    have suffix : word <:+ bearerRule.apply (early (p ++ "Bearer").toList) :=
      ⟨front, whole.symm⟩
    have same := eq_of_suffix_early isWord
      (Rule.suffix_of_go closes_bearer (isWord.not_mem (by decide) (by decide)) suffix)
    rwa [same] at suffix
  · have scanned : bearerRule.apply (early (p ++ "Bearer " ++ String.singleton c ++ q).toList) =
        bearerRule.apply (early (p ++ "Bearer").toList) ++
          ' ' :: c :: bearerRule.apply (early q.toList) := by
      rw [early_token apart isToken, stays, Rule.apply, passes, List.singleton_append,
        Rule.apply, Rule.go_miss (noWord _), Rule.go_blind blind_bearer (some c)]
      rfl
    have noKey : c ≠ 's' := by rcases letter with rfl | rfl <;> decide
    refine ⟨Rule.apply.go keyRule 0 (some c) (bearerRule.apply (early q.toList)), ?_⟩
    rw [toList_text, scanned, Rule.apply,
      Rule.go_append bounded_key (seam_key (isApart_space _)) (Nat.zero_le _),
      Rule.go_miss (keyRule_none (by decide)), Rule.go_miss (keyRule_none noKey)]
    rfl

/-- A text does not hang on its token exactly when the word before it is kept. -/
theorem text_bearer_iff (apart : IsApart q.toList) :
    (∀ t t', IsToken q t → IsToken q t' →
      text (p ++ "Bearer " ++ t ++ q) = text (p ++ "Bearer " ++ t' ++ q)) ↔ KeepsMark p := by
  constructor
  · intro equal
    by_contra lost
    obtain ⟨isToken, rest, shown⟩ := toList_text_letter lost apart (.inl rfl)
    obtain ⟨isToken', rest', shown'⟩ := toList_text_letter lost apart (.inr rfl)
    rw [equal _ _ isToken isToken', shown'] at shown
    have letters := List.append_cancel_left shown
    simp at letters
  · exact fun kept t t' is is' => text_eq_of_keepsMark kept apart is is'

end Text

/-! ## Words that are kept -/

/-- A text in front of the word in which no rule finds a start. -/
structure IsHarmless (p : String) : Prop where
  users : ¬"/Users/".toList <:+: p.toList
  home : ¬"/home/".toList <:+: p.toList
  names : ∀ name, IsName name → ¬name <:+: p.toList
  words : ∀ word, IsWord "bearer" word → ¬word <:+: p.toList

/-- What ends in a character that is not in the second part lies in the first. -/
theorem infix_of_last {w rest tail : List Char} (filled : w ≠ [])
    (last : ∀ c ∈ w.getLast?, c ∉ tail) (suffix : w ++ rest <:+ a ++ tail) : w <:+: a := by
  obtain ⟨front, whole⟩ := suffix
  rw [← List.append_assoc] at whole
  rcases List.append_eq_append_iff.mp whole with ⟨x, rfl, -⟩ | ⟨x, ends, rfl⟩
  · exact ⟨front, x, rfl⟩
  · rcases List.eq_nil_or_concat x with rfl | ⟨x, c, rfl⟩
    · rw [List.append_nil] at ends
      exact ⟨front, [], by rw [List.append_nil, ends]⟩
    · have lasts := congrArg List.getLast? ends
      rw [List.getLast?_append_of_ne_nil _ filled, List.concat_eq_append, ← List.append_assoc,
        List.getLast?_concat] at lasts
      exact absurd (by simp) (last c lasts)

/-- A rule leaves the word and what stands before it, where a start that each of its hits has does
not end in the word and is not in what stands before. -/
theorem apply_of_outside {rule : Rule} {p : String} (starts : ∀ before s hit,
    rule before s = some hit → ∃ w rest, s = w ++ rest ∧ w ≠ [] ∧
      (∀ c ∈ w.getLast?, c ∉ "Bearer".toList) ∧ ¬w <:+: p.toList) :
    rule.apply (p ++ "Bearer").toList = (p ++ "Bearer").toList := by
  refine Rule.go_of_miss fun s _ suffix before =>
    Option.eq_none_iff_forall_ne_some.mpr fun hit found => ?_
  obtain ⟨w, rest, rfl, filled, last, outside⟩ := starts before s hit found
  rw [String.toList_append] at suffix
  exact outside (infix_of_last filled last suffix)

theorem home_of_outside {p parent : String} (isParent : parent.toList.getLast? = some '/')
    (outside : ¬parent.toList <:+: p.toList) :
    (homeRule parent).apply (p ++ "Bearer").toList = (p ++ "Bearer").toList := by
  refine apply_of_outside fun before s hit found => ?_
  obtain ⟨name, rest, rfl, -, -⟩ := homeRule_eq_some_iff.mp found
  refine ⟨parent.toList, _, rfl, fun empty => ?_, fun c last => ?_, outside⟩
  · rw [empty] at isParent
    cases isParent
  · rw [isParent] at last
    obtain rfl := Option.some.inj last
    decide

theorem credential_of_outside {p : String} (outside : ∀ name, IsName name → ¬name <:+: p.toList) :
    credentialRule.apply (p ++ "Bearer").toList = (p ++ "Bearer").toList := by
  refine apply_of_outside fun before s hit found => ?_
  obtain ⟨name, sign, value, rest, ⟨rfl, isName, -, -⟩, -⟩ := credentialRule_eq_some_iff.mp found
  refine ⟨name, _, rfl, isName.filled, fun c last mem => ?_, outside name isName⟩
  obtain ⟨word, listed, isWord⟩ := isName
  have folded : word.toList.getLast? = some (Pattern.foldCase c) := by
    rw [← show name.map Pattern.foldCase = word.toList from isWord, List.getLast?_map, last]
    rfl
  have others : ∀ word ∈ credentialNames, ∀ c ∈ "Bearer".toList,
      word.toList.getLast? ≠ some (Pattern.foldCase c) := by decide
  exact others word listed c mem folded

theorem bearer_of_outside {p : String} (outside : ∀ word, IsWord "bearer" word →
    ¬word <:+: p.toList) : bearerRule.apply (p ++ "Bearer").toList = (p ++ "Bearer").toList := by
  refine apply_of_outside fun before s hit found => ?_
  obtain ⟨word, blanks, token, rest, ⟨rfl, isWord, areBlank, -⟩, -⟩ :=
    bearerRule_eq_some_iff.mp found
  refine ⟨word ++ blanks, _, (List.append_assoc ..).symm, by simp [areBlank.filled], ?_,
    fun within => outside word isWord ((List.infix_append [] word blanks).trans within)⟩
  -- Behind the last word there is no blank.
  rw [List.getLast?_append_of_ne_nil _ areBlank.filled]
  intro c last mem
  have blank := areBlank.accepted c (List.mem_of_getLast? last)
  have plain : ∀ c ∈ "Bearer".toList, isBlank c = false := by decide
  rw [plain c mem] at blank
  cases blank

theorem keepsMark_of_isHarmless {p : String} (harmless : IsHarmless p) : KeepsMark p := by
  have unchanged : early (p ++ "Bearer").toList = (p ++ "Bearer").toList := by
    refine reduced_preserves (P := fun t => t = (p ++ "Bearer").toList) ?_ rfl
    simp only [earlyRules, List.mem_cons, List.not_mem_nil, or_false, forall_eq_or_imp, forall_eq]
    exact ⟨home_of_outside (by decide) harmless.users, home_of_outside (by decide) harmless.home,
      credential_of_outside harmless.names⟩
  rw [KeepsMark, unchanged, bearer_of_outside harmless.words, String.toList_append]
  exact List.suffix_append _ _

/-! ## Tokens in a log -/

/-- A text does not hang on a token exactly when the word before it is kept, as it is where no rule
finds a start in front of it; and tokens at any depth of events and fields do not influence what a
log writes where their words are kept. -/
theorem lines_bearer (p q : String) (v w : Value) (threshold logger : String)
    (calls calls' : List Log.Call) :
    (IsApart q.toList → ((∀ t t', IsToken q t → IsToken q t' →
      text (p ++ "Bearer " ++ t ++ q) = text (p ++ "Bearer " ++ t' ++ q)) ↔ KeepsMark p)) ∧
    (IsHarmless p → KeepsMark p) ∧
    (Alike DifferInToken v w → value v = value w) ∧
    (List.Forall₂ (Log.Call.Alike DifferInToken) calls calls' →
      Log.lines threshold logger calls = Log.lines threshold logger calls') := by
  have equal : ∀ s s', DifferInToken s s' → text s = text s' := by
    rintro _ _ ⟨p, q, t, t', kept, apart, is, is', rfl, rfl⟩
    exact text_eq_of_keepsMark kept apart is is'
  refine ⟨text_bearer_iff, keepsMark_of_isHarmless, ?_, ?_⟩
  · intro alike
    exact value_eq_of_alike equal alike
  · intro alike
    exact Log.lines_eq_of_alike equal threshold logger alike

/-- A header with a token, and one within a field of a call. -/
theorem lines_bearer_header :
    text "Authorization: Bearer abc" = text "Authorization: Bearer xyz" ∧
      Log.lines "INFO" "" [⟨"info", .text "sent", [("via", .list [.text "Bearer abc"])]⟩] =
        Log.lines "INFO" "" [⟨"info", .text "sent", [("via", .list [.text "Bearer xyz"])]⟩] := by
  have first : IsToken "" "abc" := ⟨by decide, by decide, fun rest => absurd rfl rest⟩
  have second : IsToken "" "xyz" := ⟨by decide, by decide, fun rest => absurd rfl rest⟩
  have apart : IsApart "".toList := by simp [IsApart]
  constructor
  · have kept : KeepsMark "Authorization: " := by decide +kernel
    have bearer := lines_bearer "Authorization: " "" .null .null "" "" [] []
    exact (bearer.1 apart).mpr kept "abc" "xyz" first second
  · have kept : KeepsMark "" := by decide +kernel
    have differ : DifferInToken "Bearer abc" "Bearer xyz" :=
      ⟨"", "", "abc", "xyz", kept, apart, first, second, by decide, by decide⟩
    have headers :
        Alike DifferInToken (.list [.text "Bearer abc"]) (.list [.text "Bearer xyz"]) := by
      refine .list rfl fun v w mem => ?_
      obtain ⟨rfl, rfl⟩ := Prod.mk.inj (List.mem_singleton.mp mem)
      exact .text differ
    refine (lines_bearer "" "" .null .null "INFO" "" _ _).2.2.2 ?_
    exact .cons ⟨rfl, .same _, .cons ⟨rfl, headers⟩ .nil⟩ .nil

/-- A credential whose value is the word takes it from the token. -/
theorem text_bearer_lost :
    text ("token: " ++ "Bearer " ++ "abc" ++ "") = "token=[REDACTED] abc" ∧
      text ("token: " ++ "Bearer " ++ "xyz" ++ "") = "token=[REDACTED] xyz" := by
  decide +kernel

end CodeAtlas.Redaction
