import CodeAtlas.Proofs.Log.Event
import CodeAtlas.Proofs.Log.Seams

/-!
# Quoted credentials in a log

The value of a credential goes up to a quote or a blank, so of a value in quotes just the first word
is taken, and what follows it is left to the other rules. A text does not hang on that word.

## Main results

`toList_text_credential`: what is left of a text with a credential in quotes.
`lines_credential`: the first words of such values do not influence what a log writes.

## Proof strategy

The rules of home directories find nothing before the word, and put another word in its place. The
rule of credentials finds nothing before the name, since it would have to reach a mark, and takes
the name, the sign and the word. What is left then does not hang on the word any more.
-/

namespace CodeAtlas.Redaction

open Text (isBlank)

variable {h p k w rest : List Char} {parent : String}

/-- The parents of home directories. -/
def homeParents : List String :=
  ["/Users/", "/home/"]

/-- The first word of a value in quotes, in front of a blank or of the closing quote. A home
directory would take the quote with it. -/
structure FirstWord (w rest : List Char) : Prop where
  filled : w ≠ []
  plain : ∀ c ∈ w, isValueChar c = true
  ends : (∃ c rest', rest = c :: rest' ∧ isBlank c = true) ∨
    (∃ rest', rest = '\x22' :: rest') ∧ ∀ parent ∈ homeParents, ¬parent.toList <:+: w

theorem homeRule_none {before : Option Char} {c : Char} (isParent : parent ∈ homeParents)
    (other : c ≠ '/') : homeRule parent before (c :: rest) = none := by
  refine Option.eq_none_iff_forall_ne_some.mpr fun hit found => other ?_
  obtain ⟨name, rest', whole, -, -⟩ := homeRule_eq_some_iff.mp found
  have starts : ∀ parent ∈ homeParents, parent.toList.head? = some '/' := by decide
  have head := starts parent isParent
  obtain ⟨d, parent', split⟩ : ∃ d parent', parent.toList = d :: parent' := by
    cases split : parent.toList with
    | nil => rw [split] at head; cases head
    | cons d parent' => exact ⟨d, parent', rfl⟩
  rw [split] at head whole
  obtain rfl := Option.some.inj head
  exact (List.cons.inj whole).1

theorem home_cons {c : Char} (isParent : parent ∈ homeParents) (other : c ≠ '/') :
    (homeRule parent).apply (c :: rest) = c :: (homeRule parent).apply rest := by
  rw [Rule.apply, Rule.go_miss (homeRule_none isParent other), Rule.go_blind (blind_home parent) _]
  rfl

theorem home_append (isParent : parent ∈ homeParents) (slashless : ∀ c ∈ h, c ≠ '/') :
    (homeRule parent).apply (h ++ rest) = h ++ (homeRule parent).apply rest := by
  induction h with
  | nil => rfl
  | cons c h ih =>
    obtain ⟨other, later⟩ := List.forall_mem_cons.mp slashless
    rw [List.cons_append, home_cons isParent other, ih later, List.cons_append]

/-- A rule of home directories puts another first word in the place of one. -/
theorem home_firstWord (isParent : parent ∈ homeParents) (first : FirstWord w rest) :
    ∃ w', FirstWord w' ((homeRule parent).apply rest) ∧
      (homeRule parent).apply (w ++ rest) = w' ++ (homeRule parent).apply rest := by
  rcases first.ends with ⟨c, rest, rfl, blank⟩ | ⟨⟨rest, rfl⟩, outside⟩
  · -- The word and what follows the blank are read on their own.
    have other : c ≠ '/' := by
      rintro rfl
      exact absurd blank (by decide)
    have apart : IsApart (c :: rest) := by
      intro d head
      obtain rfl := Option.some.inj head
      exact blank
    have spaceless : ∀ parent ∈ homeParents, ∀ c ∈ parent.toList, isBlank c = false := by decide
    refine ⟨(homeRule parent).apply w, ⟨?_, ?_, .inl ⟨c, _, home_cons isParent other, blank⟩⟩, ?_⟩
    · exact Rule.go_ne_nil (closes_home parent) first.filled
    · refine Rule.forall_go first.plain fun before s hit _ found => ?_
      obtain ⟨name, rest, -, -, rfl⟩ := homeRule_eq_some_iff.mp found
      show ∀ c ∈ "[HOME_REDACTED]".toList, isValueChar c = true
      decide
    · exact Rule.apply_append (bounded_home parent) (blind_home parent)
        (seam_home (spaceless parent isParent) apart)
  · -- No parent reaches over the quote, and none is within the word.
    refine ⟨w, ⟨first.filled, first.plain, .inr ⟨⟨_, home_cons isParent (by decide)⟩, outside⟩⟩, ?_⟩
    rw [Rule.apply, Rule.go_append_of_miss, Rule.go_blind (blind_home parent) _]
    · rfl
    · intro s _ suffix before
      refine Option.eq_none_iff_forall_ne_some.mpr fun hit found => outside parent isParent ?_
      obtain ⟨name, rest', whole, -, -⟩ := homeRule_eq_some_iff.mp found
      have quoteless : ∀ parent ∈ homeParents, ∀ c ∈ parent.toList, (c != '\x22') = true := by
        decide
      obtain ⟨s', rfl, -⟩ := cut_behind (quoteless parent isParent) (by simp) whole
      exact (List.prefix_append _ _).isInfix.trans suffix.isInfix

/-! ## The name of a credential -/

theorem append_cons_inj {accepts : Char → Bool} {x y xs ys : List Char} {c d : Char}
    (before : ∀ c ∈ x, accepts c = false) (before' : ∀ c ∈ y, accepts c = false)
    (accepted : accepts c = true) (accepted' : accepts d = true)
    (same : x ++ c :: xs = y ++ d :: ys) : x = y := by
  rcases List.append_eq_append_iff.mp same with ⟨z, rfl, rest⟩ | ⟨z, rfl, rest⟩
  · cases z with
    | nil => exact (List.append_nil x).symm
    | cons e z =>
      obtain ⟨rfl, -⟩ := List.cons.inj rest
      rw [before' c (by simp)] at accepted
      cases accepted
  · cases z with
    | nil => exact List.append_nil y
    | cons e z =>
      obtain ⟨rfl, -⟩ := List.cons.inj rest
      rw [before d (by simp)] at accepted'
      cases accepted'

theorem isMark_of_isQuote {c : Char} (quote : isQuote c = true) : isMark c = false := by
  cases mark : isMark c with
  | false => rfl
  | true => exact absurd (plain_of_isMark mark).2 (by simp [quote])

theorem isMark_of_isBlank {c : Char} (blank : isBlank c = true) : isMark c = false := by
  cases mark : isMark c with
  | false => rfl
  | true => exact absurd (plain_of_isMark mark).1 (by simp [blank])

theorem IsName.slashless (is : IsName k) : ∀ c ∈ k, c ≠ '/' := by
  obtain ⟨word, listed, isWord⟩ := is
  have slashless : ∀ word ∈ credentialNames, '/' ∉ word.toList := by decide
  exact fun c mem => ne_of_mem_of_not_mem mem (isWord.not_mem (by decide) (slashless word listed))

/-- The names end differently. -/
theorem IsName.eq_nil_of_append {s : List Char} (is : IsName (s ++ k)) (is' : IsName k) :
    s = [] := by
  obtain ⟨word, listed, isWord⟩ := is
  obtain ⟨word', listed', isWord'⟩ := is'
  -- One name would end in another, and then they are equally long.
  have ends : ∀ word ∈ credentialNames, ∀ word' ∈ credentialNames,
      word'.toList <:+ word.toList → word'.toList.length = word.toList.length := by decide
  have suffix : word'.toList <:+ word.toList := by
    rw [← show (s ++ k).map Pattern.foldCase = word.toList from isWord,
      ← show k.map Pattern.foldCase = word'.toList from isWord', List.map_append]
    exact List.suffix_append _ _
  have lengths := ends word listed word' listed' suffix
  rw [← isWord.length, ← isWord'.length, List.length_append] at lengths
  exact List.eq_nil_of_length_eq_zero (by omega)

/-- In front of a sign a credential is read from its name on. -/
theorem credentialRule_before {s : List Char} {before : Option Char} {mark : Char}
    (unmarked : ∀ c ∈ s, isMark c = false) (isName : IsName k) (isMarked : isMark mark = true)
    (filled : s ≠ []) : credentialRule before (s ++ (k ++ mark :: rest)) = none := by
  refine Option.eq_none_iff_forall_ne_some.mpr fun hit found => filled ?_
  obtain ⟨name, _, value, rest', ⟨whole, isName', ⟨quote, blanks, mark', blanks', quote', is, rfl⟩,
    -⟩, -⟩ := credentialRule_eq_some_iff.mp found
  have ofName {name : List Char} (is : IsName name) : ∀ c ∈ name, isMark c = false := by
    intro c mem
    have plain := is.plain c mem
    simp only [isSignChar, Bool.or_eq_false_iff] at plain
    exact plain.2
  have ofQuote : ∀ c ∈ quote, isQuote c = true := by
    rcases is.quote with rfl | ⟨c, rfl, quoted⟩
    · simp
    · simpa using quoted
  -- Both readings have their first mark at the same place.
  have header : s ++ k = name ++ (quote ++ blanks) := by
    refine append_cons_inj (?_ : ∀ c ∈ s ++ k, isMark c = false) ?_ isMarked is.mark
      (by simpa using whole)
    · exact List.forall_mem_append.mpr ⟨unmarked, ofName isName⟩
    · exact List.forall_mem_append.mpr ⟨ofName isName', List.forall_mem_append.mpr
        ⟨fun c mem => isMark_of_isQuote (ofQuote c mem),
          fun c mem => isMark_of_isBlank (is.blanks c mem)⟩⟩
  have signs : ∀ c ∈ quote ++ blanks, isSignChar c = true :=
    List.forall_mem_append.mpr ⟨fun c mem => by simp [isSignChar, ofQuote c mem],
      fun c mem => by simp [isSignChar, is.blanks c mem]⟩
  -- The header ends in a name, so nothing stands between the name that is read and the mark.
  have none_between : quote ++ blanks = [] := by
    rcases List.eq_nil_or_concat (quote ++ blanks) with empty | ⟨tail, c, ends⟩
    · exact empty
    · rw [ends, List.concat_eq_append] at header signs
      have lasts := congrArg List.getLast? header
      rw [List.getLast?_append_of_ne_nil _ isName.filled, ← List.append_assoc,
        List.getLast?_concat] at lasts
      have plain := isName.plain c (List.mem_of_getLast? lasts)
      rw [signs c (by simp)] at plain
      cases plain
  rw [none_between, List.append_nil] at header
  rw [← header] at isName'
  exact isName'.eq_nil_of_append isName

/-- In front of a word in quotes, a text where no mark stands has no credential. -/
theorem credential_firstWord (unmarked : ∀ c ∈ p, isMark c = false) (isName : IsName k)
    (first : FirstWord w rest) :
    credentialRule.apply (p ++ (k ++ ("=\x22".toList ++ (w ++ rest)))) =
      p ++ (k ++ ("=[REDACTED]".toList ++ credentialRule.apply rest)) := by
  have ends : ∀ c ∈ rest.head?, isValueChar c = false := by
    rcases first.ends with ⟨c, rest, rfl, blank⟩ | ⟨⟨rest, rfl⟩, -⟩
    · simp [isValueChar, blank]
    · simp [isValueChar, isQuote]
  have gives : Gives (k ++ ("=\x22".toList ++ w) ++ rest) k "=\x22".toList w rest :=
    ⟨by simp only [List.append_assoc], isName, ⟨[], [], '=', [], ['\x22'],
      ⟨.inl rfl, by simp, rfl, by simp, .inr ⟨_, rfl, rfl⟩⟩, rfl⟩, first.filled, first.plain, ends⟩
  have found (before : Option Char) : credentialRule before (k ++ ("=\x22".toList ++ w) ++ rest) =
      some ⟨k ++ "=[REDACTED]".toList, (k ++ ("=\x22".toList ++ w)).length⟩ :=
    credentialRule_eq_some_iff.mpr ⟨_, _, _, _, gives, rfl⟩
  rw [Rule.apply, Rule.go_append_of_miss]
  · have taken := Rule.go_take (by simp [isName.filled]) (found (p.getLast?.or none))
    simp only [List.append_assoc] at taken
    rw [taken, Rule.go_blind blind_credential _]
    rfl
  · intro s filled suffix before
    exact credentialRule_before (fun c mem => unmarked c (suffix.subset mem)) isName rfl filled

/-! ## Texts that differ in a credential -/

/-- A value in quotes: it starts with a word, has no quote, and when it is no more than that word,
no home directory either. -/
structure IsValue (v : String) : Prop where
  starts : ∃ c ∈ v.toList.head?, isBlank c = false
  quoteless : ∀ c ∈ v.toList, isQuote c = false
  homeless : (∀ c ∈ v.toList, isBlank c = false) → ∀ parent ∈ homeParents,
    ¬parent.toList <:+: v.toList

/-- What follows the first word of a value. -/
def remainder (v : String) : List Char :=
  v.toList.dropWhile fun c => !isBlank c

/-- Texts that differ in the first word of a credential given in quotes. -/
def DifferInValue (s s' : String) : Prop :=
  ∃ p k q v v', (∀ c ∈ p.toList, c ≠ '/' ∧ isMark c = false) ∧ IsName k.toList ∧
    IsValue v ∧ IsValue v' ∧ remainder v = remainder v' ∧
    s = p ++ k ++ "=\x22" ++ v ++ "\x22" ++ q ∧ s' = p ++ k ++ "=\x22" ++ v' ++ "\x22" ++ q

section Text

variable {p k q v : String}

/-- A value is its first word and the remainder. -/
theorem IsValue.split (is : IsValue v) (q : List Char) : ∃ w, v.toList = w ++ remainder v ∧
    FirstWord w (remainder v ++ '\x22' :: q) := by
  obtain ⟨first, head, plain⟩ := is.starts
  have whole : v.toList = v.toList.takeWhile (fun c => !isBlank c) ++ remainder v :=
    List.takeWhile_append_dropWhile.symm
  refine ⟨_, whole, ?_, ?_, ?_⟩
  · cases split : v.toList with
    | nil =>
      rw [split] at head
      cases head
    | cons c rest =>
      rw [split] at head
      obtain rfl := Option.some.inj head
      simp [plain]
  · intro c mem
    have quoteless := is.quoteless c ((List.takeWhile_prefix _).subset mem)
    have spaceless := List.mem_takeWhile_imp mem
    simp only [isValueChar, quoteless, Bool.not_false, Bool.true_and]
    exact spaceless
  · cases remains : remainder v with
    | cons c rest =>
      have blank := List.head?_dropWhile_not (fun c => !isBlank c) v.toList
      rw [show v.toList.dropWhile (fun c => !isBlank c) = c :: rest from remains] at blank
      exact .inl ⟨c, _, rfl, by simpa using blank⟩
    | nil =>
      rw [remains, List.append_nil] at whole
      rw [← whole]
      refine .inr ⟨⟨q, rfl⟩, is.homeless fun c mem => ?_⟩
      rw [whole] at mem
      simpa using List.mem_takeWhile_imp mem

/-- Of a value in quotes just the first word is taken, and what follows it is read on its own. -/
theorem toList_text_credential (plain : ∀ c ∈ p.toList, c ≠ '/' ∧ isMark c = false)
    (isName : IsName k.toList) (is : IsValue v) :
    (text (p ++ k ++ "=\x22" ++ v ++ "\x22" ++ q)).toList =
      keyRule.apply (bearerRule.apply (p.toList ++ (k.toList ++ ("=[REDACTED]".toList ++
        early (remainder v ++ '\x22' :: q.toList))))) := by
  -- The rules of home directories leave a first word, whichever it is, for that of credentials.
  obtain ⟨w, whole, first⟩ := is.split q.toList
  obtain ⟨w₁, first₁, home₁⟩ := home_firstWord (show "/Users/" ∈ homeParents by decide) first
  obtain ⟨w₂, first₂, home₂⟩ := home_firstWord (show "/home/" ∈ homeParents by decide) first₁
  have slashless : ∀ c ∈ p.toList ++ (k.toList ++ "=\x22".toList), c ≠ '/' := by
    refine List.forall_mem_append.mpr ⟨fun c mem => (plain c mem).1, ?_⟩
    exact List.forall_mem_append.mpr ⟨fun c mem => isName.slashless c mem, by decide⟩
  have parts : (p ++ k ++ "=\x22" ++ v ++ "\x22" ++ q).toList =
      (p.toList ++ (k.toList ++ "=\x22".toList)) ++ (w ++ (remainder v ++ '\x22' :: q.toList)) := by
    simp only [String.toList_append, whole, List.append_assoc]
    rfl
  rw [toList_text, parts, early, early, reduced, reduced, earlyRules]
  simp only [List.foldl_cons, List.foldl_nil]
  rw [home_append (by decide) slashless, home₁, home_append (by decide) slashless, home₂,
    List.append_assoc, List.append_assoc,
    credential_firstWord (fun c mem => (plain c mem).2) isName first₂]

end Text

/-- A text does not hang on the first word of a credential in quotes, and neither does what a log
writes, at any depth of its events and fields. -/
theorem lines_credential (p k q v s s' : String) (threshold logger : String)
    (calls calls' : List Log.Call) :
    ((∀ c ∈ p.toList, c ≠ '/' ∧ isMark c = false) → IsName k.toList → IsValue v →
      (text (p ++ k ++ "=\x22" ++ v ++ "\x22" ++ q)).toList =
        keyRule.apply (bearerRule.apply (p.toList ++ (k.toList ++ ("=[REDACTED]".toList ++
          early (remainder v ++ '\x22' :: q.toList)))))) ∧
    (DifferInValue s s' → text s = text s') ∧
    (List.Forall₂ (Log.Call.Alike DifferInValue) calls calls' →
      Log.lines threshold logger calls = Log.lines threshold logger calls') := by
  have equal : ∀ s s', DifferInValue s s' → text s = text s' := by
    rintro _ _ ⟨p, k, q, v, v', plain, isName, is, is', same, rfl, rfl⟩
    apply String.toList_injective
    rw [toList_text_credential plain isName is, toList_text_credential plain isName is', same]
  refine ⟨toList_text_credential, equal s s', ?_⟩
  intro alike
  exact Log.lines_eq_of_alike equal threshold logger alike

/-- Two passwords of one word, and two phrases that go on alike. -/
theorem lines_credential_password :
    text "user Password=\x22hunter2\x22, ok" = text "user Password=\x22s3cret\x22, ok" ∧
      Log.lines "INFO" "" [⟨"info", .text "api-key=\x22abc de\x22", []⟩] =
        Log.lines "INFO" "" [⟨"info", .text "api-key=\x22xyz de\x22", []⟩] := by
  have word : IsValue "hunter2" := ⟨⟨'h', rfl, by decide⟩, by decide, fun _ => by decide +kernel⟩
  have word' : IsValue "s3cret" := ⟨⟨'s', rfl, by decide⟩, by decide, fun _ => by decide +kernel⟩
  have phrase : IsValue "abc de" := ⟨⟨'a', rfl, by decide⟩, by decide, fun _ => by decide +kernel⟩
  have phrase' : IsValue "xyz de" := ⟨⟨'x', rfl, by decide⟩, by decide, fun _ => by decide +kernel⟩
  constructor
  · refine (lines_credential "" "" "" "" _ _ "" "" [] []).2.1 ?_
    exact ⟨"user ", "Password", ", ok", "hunter2", "s3cret", by decide, by decide, word, word',
      by decide, by decide, by decide⟩
  · have differ : DifferInValue "api-key=\x22abc de\x22" "api-key=\x22xyz de\x22" :=
      ⟨"", "api-key", "", "abc de", "xyz de", by decide, by decide, phrase, phrase', by decide,
        by decide, by decide⟩
    refine (lines_credential "" "" "" "" "" "" "INFO" "" _ _).2.2 ?_
    exact .cons ⟨rfl, .text differ, .nil⟩ .nil

/-- What follows the first word of a value stays. -/
theorem text_credential_phrase :
    text ("" ++ "password" ++ "=\x22" ++ "correct horse" ++ "\x22" ++ "") =
        "password=[REDACTED] horse\x22" ∧
      text ("" ++ "password" ++ "=\x22" ++ "correct battery" ++ "\x22" ++ "") =
        "password=[REDACTED] battery\x22" := by
  decide +kernel

end CodeAtlas.Redaction
