import CodeAtlas.Proofs.Log.Scan
import Mathlib.Data.List.TakeWhile

/-!
# What the rules of redaction hit

Each rule reads a text from a place on: a home directory by its parent and a name, a credential by
its name, a sign and a value, a bearer token by the word before it and blanks, a secret key by its
start. The parts of a reading are said here without the order in which a rule looks for them.

## Main results

`homeRule_eq_some_iff`, `credentialRule_eq_some_iff`, `bearerRule_eq_some_iff` and
`keyRule_eq_some_iff`: a rule hits just where there is such a reading.
-/

namespace CodeAtlas.Redaction

open Text (isBlank)

variable {text a b : List Char} {before : Option Char} {hit : Hit}

-- What is to hold of the characters of a text is decided along the text, not along all characters.
instance decidableForallMem (P : Char → Prop) [DecidablePred P] (text : List Char) :
    Decidable (∀ c ∈ text, P c) :=
  List.decidableBAll P text

/-! ## Runs -/

/-- The longest run of accepted characters in front of the rest. -/
structure IsRun (accepts : Char → Bool) (run rest : List Char) : Prop where
  filled : run ≠ []
  accepted : ∀ c ∈ run, accepts c = true
  ends : ∀ c ∈ rest.head?, accepts c = false

section Runs

variable {accepts : Char → Bool} {run rest : List Char}

theorem dropWhile_append_of_all (accepted : ∀ c ∈ run, accepts c = true)
    (ends : ∀ c ∈ rest.head?, accepts c = false) : (run ++ rest).dropWhile accepts = rest := by
  rw [List.dropWhile_append_of_pos accepted]
  cases rest with
  | nil => rfl
  | cons c rest => rw [List.dropWhile_cons_of_neg (by simp [ends c rfl])]

theorem IsRun.takeWhile (filled : text.takeWhile accepts ≠ []) :
    IsRun accepts (text.takeWhile accepts) (text.dropWhile accepts) where
  filled := filled
  accepted := fun _ mem => List.mem_takeWhile_imp mem
  ends := by
    intro c head
    have stops := List.head?_dropWhile_not accepts text
    rw [Option.mem_def.mp head] at stops
    simpa using stops

theorem skipRun?_eq_some_iff :
    skipRun? accepts text = some rest ↔ ∃ run, text = run ++ rest ∧ IsRun accepts run rest := by
  constructor
  · intro found
    rw [skipRun?, Option.ite_none_right_eq_some] at found
    obtain ⟨starts, dropped⟩ := found
    obtain rfl := Option.some.inj dropped
    refine ⟨text.takeWhile accepts, List.takeWhile_append_dropWhile.symm, IsRun.takeWhile ?_⟩
    cases text with
    | nil => simp at starts
    | cons c text => simp_all
  · rintro ⟨run, rfl, filled, accepted, ends⟩
    rw [skipRun?, dropWhile_append_of_all accepted ends, if_pos]
    obtain ⟨c, run, rfl⟩ := List.exists_cons_of_ne_nil filled
    simpa using accepted c List.mem_cons_self

/-- A run goes on to be one when more follows that it does not accept. -/
theorem IsRun.append (is : IsRun accepts run rest) (apart : ∀ c ∈ b.head?, accepts c = false) :
    IsRun accepts run (rest ++ b) where
  filled := is.filled
  accepted := is.accepted
  ends := by
    cases rest with
    | nil => exact apart
    | cons c rest => exact is.ends

/-- A run does not reach into what it does not accept. -/
theorem cut_behind (accepted : ∀ c ∈ run, accepts c = true)
    (apart : ∀ c ∈ b.head?, accepts c = false) (whole : a ++ b = run ++ rest) :
    ∃ rest', a = run ++ rest' ∧ rest = rest' ++ b := by
  rcases List.append_eq_append_iff.mp whole with ⟨x, rfl, rfl⟩ | ⟨x, rfl, rfl⟩
  · -- What the run would have of `b` starts with a character that it does not accept.
    cases x with
    | nil => exact ⟨[], by simp, by simp⟩
    | cons c x =>
      have refused := apart c rfl
      rw [accepted c (by simp)] at refused
      cases refused
  · exact ⟨x, rfl, rfl⟩

theorem IsRun.ends_of_split {rest' : List Char} (is : IsRun accepts run (rest' ++ b)) :
    IsRun accepts run rest' where
  filled := is.filled
  accepted := is.accepted
  ends := by
    cases rest' with
    | nil => simp
    | cons c rest' => exact is.ends

end Runs

/-! ## Home directories -/

theorem dropStart?_eq_some_iff {start rest : List Char} :
    Text.dropStart? start text = some rest ↔ text = start ++ rest := by
  rw [Text.dropStart?, Option.ite_none_right_eq_some, List.isPrefixOf_iff_prefix]
  constructor
  · rintro ⟨⟨rest', rfl⟩, dropped⟩
    rw [List.drop_left] at dropped
    rw [Option.some.inj dropped]
  · rintro rfl
    exact ⟨List.prefix_append start rest, by rw [List.drop_left]⟩

/-- The characters of the name of a home directory. -/
def isNameChar (c : Char) : Bool :=
  c != '/' && !isBlank c

theorem homeRule_eq_some_iff {parent : String} :
    homeRule parent before text = some hit ↔ ∃ name rest, text = parent.toList ++ (name ++ rest) ∧
      IsRun isNameChar name rest ∧
      hit = ⟨"[HOME_REDACTED]".toList, (parent.toList ++ name).length⟩ := by
  rw [homeRule]
  simp only [bind, Option.bind_eq_some_iff, pure, Option.some.injEq, dropStart?_eq_some_iff,
    skipRun?_eq_some_iff]
  constructor
  · rintro ⟨_, rfl, rest, ⟨name, rfl, is⟩, rfl⟩
    refine ⟨name, rest, rfl, is, ?_⟩
    congr 1
    simp only [List.length_append]
    omega
  · rintro ⟨name, rest, rfl, is, rfl⟩
    refine ⟨_, rfl, rest, ⟨name, rfl, is⟩, ?_⟩
    congr 1
    simp only [List.length_append]
    omega

/-! ## Words in any case -/

/-- A text is a word, whatever the case of its letters. -/
def IsWord (word : String) (written : List Char) : Prop :=
  written.map Pattern.foldCase = word.toList

instance (word : String) (written : List Char) : Decidable (IsWord word written) :=
  inferInstanceAs (Decidable (_ = _))

theorem IsWord.length {word : String} {written : List Char} (is : IsWord word written) :
    written.length = word.toList.length := by
  rw [← show written.map Pattern.foldCase = word.toList from is, List.length_map]

theorem afterWord?_eq_some_iff {word : String} {rest : List Char} :
    afterWord? word.toList text = some rest ↔ ∃ written, IsWord word written ∧
      text = written ++ rest := by
  simp only [afterWord?, Option.ite_none_right_eq_some, beq_iff_eq]
  constructor
  · rintro ⟨is, dropped⟩
    refine ⟨_, is, ?_⟩
    rw [← Option.some.inj dropped, List.take_append_drop]
  · rintro ⟨written, is, rfl⟩
    rw [← is.length, List.take_left, List.drop_left]
    exact ⟨is, rfl⟩

theorem foldCase_eq_iff {c d : Char} (joins : d = '_' ∨ d = '-') :
    Pattern.foldCase c = d ↔ c = d := by
  constructor
  · intro folded
    unfold Pattern.foldCase at folded
    split at folded
    · rcases joins with rfl | rfl <;> cases folded
    · split at folded
      · rcases joins with rfl | rfl <;> cases folded
      · split at folded
        · rcases joins with rfl | rfl <;> cases folded
        · unfold Char.toLower at folded
          split at folded
          · next capital =>
            -- Only capitals are changed, and to letters.
            obtain ⟨least, most⟩ := capital
            simp only [ge_iff_le, UInt32.le_iff_toNat_le] at least most
            have value := congrArg (·.val.toNat) folded
            rcases joins with rfl | rfl
            · simp [UInt32.toNat_add] at least most value
              omega
            · simp [UInt32.toNat_add] at least most value
              omega
          · exact folded
  · rintro rfl
    rcases joins with rfl | rfl <;> decide

theorem apiKey_eq_some_iff {rest : List Char} :
    ((afterWord? "api".toList text).bind fun rest =>
      afterWord? "key".toList (skipOne (fun c => c == '_' || c == '-') rest)) = some rest ↔
      ∃ name, (IsWord "api_key" name ∨ IsWord "api-key" name ∨ IsWord "apikey" name) ∧
        text = name ++ rest := by
  simp only [Option.bind_eq_some_iff, afterWord?_eq_some_iff]
  constructor
  · rintro ⟨middle, ⟨api, isApi, rfl⟩, key, isKey, found⟩
    -- What joins the two words decides which of the names it is.
    cases middle with
    | nil =>
      obtain ⟨rfl, -⟩ := List.append_eq_nil_iff.mp found.symm
      cases isKey
    | cons c middle =>
      rw [skipOne] at found
      split at found
      · next joint =>
        refine ⟨api ++ c :: key, ?_, by simp [found]⟩
        simp only [IsWord, List.map_append, List.map_cons] at isApi isKey ⊢
        rw [isApi, isKey]
        rcases Bool.or_eq_true _ _ |>.mp joint with same | same
        · rw [beq_iff_eq.mp same]
          exact .inl rfl
        · rw [beq_iff_eq.mp same]
          exact .inr (.inl rfl)
      · refine ⟨api ++ key, .inr (.inr ?_), by simp [found]⟩
        rw [IsWord, List.map_append, isApi, isKey]
        rfl
  · -- A joint has no case, so it stands in the name as in the word.
    have split {word : String} {name : List Char} (c : Char) (joins : c = '_' ∨ c = '-')
      (is : IsWord word name) (parts : word.toList = "api".toList ++ c :: "key".toList) :
        ∃ api key, name = api ++ c :: key ∧ IsWord "api" api ∧ IsWord "key" key := by
      obtain ⟨api, key, rfl, isApi, isKey⟩ := List.map_eq_append_iff.mp (is.trans parts)
      obtain ⟨d, key, rfl, joint, isKey⟩ := List.map_eq_cons_iff.mp isKey
      rw [foldCase_eq_iff joins] at joint
      exact ⟨api, key, joint ▸ rfl, isApi, isKey⟩
    rintro ⟨name, is | is | is, rfl⟩
    · obtain ⟨api, key, rfl, isApi, isKey⟩ := split '_' (.inl rfl) is rfl
      exact ⟨_, ⟨api, isApi, List.append_assoc ..⟩, key, isKey, rfl⟩
    · obtain ⟨api, key, rfl, isApi, isKey⟩ := split '-' (.inr rfl) is rfl
      exact ⟨_, ⟨api, isApi, List.append_assoc ..⟩, key, isKey, rfl⟩
    · obtain ⟨api, key, rfl, isApi, isKey⟩ :=
        List.map_eq_append_iff.mp (is.trans (rfl : _ = "api".toList ++ "key".toList))
      refine ⟨_, ⟨api, isApi, List.append_assoc ..⟩, key, isKey, ?_⟩
      obtain ⟨d, key, rfl, letter, -⟩ := List.map_eq_cons_iff.mp isKey
      rw [List.cons_append, skipOne, if_neg]
      rintro joint
      rcases Bool.or_eq_true _ _ |>.mp joint with same | same
      · rw [beq_iff_eq.mp same] at letter
        cases letter
      · rw [beq_iff_eq.mp same] at letter
        cases letter

theorem IsWord.head?_append {word : String} {written : List Char} (is : IsWord word written)
    (filled : word ≠ "") (rest : List Char) :
    (written ++ rest).head?.map Pattern.foldCase = word.toList.head? := by
  rw [← show written.map Pattern.foldCase = word.toList from is]
  cases written with
  | nil => exact absurd (String.toList_eq_nil_iff.mp is.symm) filled
  | cons c written => rfl

/-- The names under which credentials are given. -/
def credentialNames : List String :=
  ["api_key", "api-key", "apikey", "token", "password", "secret"]

/-- A text is the name of a credential, whatever the case of its letters. -/
def IsName (name : List Char) : Prop :=
  ∃ word ∈ credentialNames, IsWord word name

instance (name : List Char) : Decidable (IsName name) :=
  inferInstanceAs (Decidable (∃ word ∈ credentialNames, IsWord word name))

theorem isName_iff {name : List Char} : IsName name ↔
    (IsWord "api_key" name ∨ IsWord "api-key" name ∨ IsWord "apikey" name) ∨
      IsWord "token" name ∨ IsWord "password" name ∨ IsWord "secret" name := by
  simp [IsName, credentialNames, or_assoc]

theorem credentialName?_eq_some_iff {rest : List Char} :
    credentialName? text = some rest ↔ ∃ name, IsName name ∧ text = name ++ rest := by
  rw [credentialName?]
  constructor
  · intro found
    simp only [Option.or_eq_some_iff, apiKey_eq_some_iff, afterWord?_eq_some_iff] at found
    rcases found with ((⟨name, is, whole⟩ | ⟨-, name, is, whole⟩) | ⟨-, name, is, whole⟩) |
      ⟨-, name, is, whole⟩
    · exact ⟨name, isName_iff.mpr (.inl is), whole⟩
    · exact ⟨name, isName_iff.mpr (.inr (.inl is)), whole⟩
    · exact ⟨name, isName_iff.mpr (.inr (.inr (.inl is))), whole⟩
    · exact ⟨name, isName_iff.mpr (.inr (.inr (.inr is))), whole⟩
  · rintro ⟨name, is, rfl⟩
    -- The words start with different letters, so a word that is not there is not found.
    have absent {word : String} (word' : String) (is : IsWord word name) (filled : word ≠ "")
        (filled' : word' ≠ "") (other : word.toList.head? ≠ word'.toList.head?) :
        afterWord? word'.toList (name ++ rest) = none := by
      rw [Option.eq_none_iff_forall_ne_some]
      intro rest' found
      obtain ⟨name', is', same⟩ := afterWord?_eq_some_iff.mp found
      exact other (by rw [← is.head?_append filled rest, same, is'.head?_append filled'])
    have noKey {word : String} (is : IsWord word name) (filled : word ≠ "")
        (other : word.toList.head? ≠ some 'a') :
        ((afterWord? "api".toList (name ++ rest)).bind fun rest =>
          afterWord? "key".toList (skipOne (fun c => c == '_' || c == '-') rest)) = none := by
      rw [absent "api" is filled (by decide) other]
      rfl
    rcases isName_iff.mp is with is | is | is | is
    · rw [apiKey_eq_some_iff.mpr ⟨name, is, rfl⟩]
      rfl
    · rw [noKey is (by decide) (by decide), afterWord?_eq_some_iff.mpr ⟨name, is, rfl⟩]
      rfl
    · rw [noKey is (by decide) (by decide),
        absent "token" is (by decide) (by decide) (by decide),
        afterWord?_eq_some_iff.mpr ⟨name, is, rfl⟩]
      rfl
    · rw [noKey is (by decide) (by decide),
        absent "token" is (by decide) (by decide) (by decide),
        absent "password" is (by decide) (by decide) (by decide),
        afterWord?_eq_some_iff.mpr ⟨name, is, rfl⟩]
      rfl

/-! ## Credentials -/

/-- At most one character, which is accepted. -/
def IsOptional (accepts : Char → Bool) (part : List Char) : Prop :=
  part = [] ∨ ∃ c, part = [c] ∧ accepts c = true

section Optional

variable {accepts : Char → Bool} {part rest : List Char}

theorem exists_skipOne (accepts : Char → Bool) (text : List Char) :
    ∃ part, IsOptional accepts part ∧ text = part ++ skipOne accepts text := by
  cases text with
  | nil => exact ⟨[], .inl rfl, rfl⟩
  | cons c text =>
    by_cases accepted : accepts c = true
    · exact ⟨[c], .inr ⟨c, rfl, accepted⟩, by rw [skipOne, if_pos accepted]; rfl⟩
    · exact ⟨[], .inl rfl, by rw [skipOne, if_neg accepted]; rfl⟩

theorem skipOne_append (is : IsOptional accepts part)
    (apart : ∀ c ∈ rest.head?, accepts c = false) :
    skipOne accepts (part ++ rest) = rest := by
  rcases is with rfl | ⟨c, rfl, accepted⟩
  · cases rest with
    | nil => rfl
    | cons c rest => rw [List.nil_append, skipOne, if_neg (by simp [apart c rfl])]
  · rw [List.singleton_append, skipOne, if_pos accepted]

end Optional

/-- A colon or an equals sign. -/
def isMark (c : Char) : Bool :=
  c == ':' || c == '='

/-- The characters of the value of a credential. -/
def isValueChar (c : Char) : Bool :=
  !isQuote c && !isBlank c

theorem isBlank_of_isQuote {c : Char} (quote : isQuote c = true) : isBlank c = false := by
  rcases Bool.or_eq_true _ _ |>.mp quote with same | same
  · rw [beq_iff_eq.mp same]
    decide
  · rw [beq_iff_eq.mp same]
    decide

theorem isQuote_of_isBlank {c : Char} (blank : isBlank c = true) : isQuote c = false := by
  cases quote : isQuote c with
  | false => rfl
  | true => exact absurd blank (by simp [isBlank_of_isQuote quote])

theorem plain_of_isMark {c : Char} (mark : isMark c = true) :
    isBlank c = false ∧ isQuote c = false := by
  rcases Bool.or_eq_true _ _ |>.mp mark with same | same
  · rw [beq_iff_eq.mp same]
    decide
  · rw [beq_iff_eq.mp same]
    decide

/-- What stands between the name of a credential and its value: a mark among blanks, perhaps with a
quote on either side. -/
structure IsSign (quote blanks : List Char) (mark : Char) (blanks' quote' : List Char) : Prop where
  quote : IsOptional isQuote quote
  blanks : ∀ c ∈ blanks, isBlank c = true
  mark : isMark mark = true
  blanks' : ∀ c ∈ blanks', isBlank c = true
  quote' : IsOptional isQuote quote'

/-- A text gives a credential: its name, a sign and its value, in front of a rest. -/
structure Gives (text name sign value rest : List Char) : Prop where
  whole : text = name ++ (sign ++ (value ++ rest))
  name : IsName name
  sign : ∃ quote blanks mark blanks' quote', IsSign quote blanks mark blanks' quote' ∧
    sign = quote ++ (blanks ++ mark :: (blanks' ++ quote'))
  value : IsRun isValueChar value rest

/-- What is left of a text in front of which a run of blanks stands. -/
theorem dropWhile_blanks {blanks rest : List Char} (areBlank : ∀ c ∈ blanks, isBlank c = true)
    {c : Char} (ends : isBlank c = false) :
    (blanks ++ c :: rest).dropWhile isBlank = c :: rest :=
  dropWhile_append_of_all areBlank (by simpa using ends)

theorem exists_blanks (text : List Char) : ∃ blanks, (∀ c ∈ blanks, isBlank c = true) ∧
    text = blanks ++ text.dropWhile isBlank :=
  ⟨_, fun _ mem => List.mem_takeWhile_imp mem, List.takeWhile_append_dropWhile.symm⟩

theorem isQuote_of_head {blanks rest : List Char} (areBlank : ∀ c ∈ blanks, isBlank c = true)
    {c d : Char} (ends : isQuote c = false) (head : d ∈ (blanks ++ c :: rest).head?) :
    isQuote d = false := by
  cases blanks with
  | nil =>
    obtain rfl := Option.some.inj head
    exact ends
  | cons b blanks =>
    obtain rfl := Option.some.inj head
    exact isQuote_of_isBlank (areBlank _ List.mem_cons_self)

theorem credentialRule_eq_some_iff :
    credentialRule before text = some hit ↔ ∃ name sign value rest,
      Gives text name sign value rest ∧
        hit = ⟨name ++ "=[REDACTED]".toList, (name ++ (sign ++ value)).length⟩ := by
  rw [credentialRule]
  simp only [bind, Option.bind_eq_some_iff, pure, credentialName?_eq_some_iff]
  constructor
  · rintro ⟨after, ⟨name, isName, rfl⟩, found⟩
    -- Each step of the rule takes its part off the front of what is left.
    obtain ⟨quote, quoted, opens⟩ := exists_skipOne isQuote after
    obtain ⟨blanks, areBlank, gap⟩ := exists_blanks (skipOne isQuote after)
    generalize (skipOne isQuote after).dropWhile isBlank = marked at found gap
    split at found
    case isFalse => cases found
    case isTrue isMarked =>
      obtain ⟨mark, given, rfl⟩ : ∃ mark given, marked = mark :: given := by
        cases marked with
        | nil => cases isMarked
        | cons mark given => exact ⟨mark, given, rfl⟩
      rw [Option.bind_some] at found
      obtain ⟨blanks', areBlank', gap'⟩ := exists_blanks given
      obtain ⟨quote', quoted', opens'⟩ := exists_skipOne isQuote (given.dropWhile isBlank)
      rw [List.tail_cons] at found
      generalize skipOne isQuote (given.dropWhile isBlank) = valued at found opens'
      simp only [Option.bind_eq_some_iff, skipRun?_eq_some_iff, Option.some.injEq] at found
      obtain ⟨rest, ⟨value, rfl, isValue⟩, rfl⟩ := found
      obtain rfl : after = quote ++ (blanks ++ mark :: (blanks' ++ quote')) ++ (value ++ rest) := by
        rw [opens, gap, gap', opens']
        simp only [List.append_assoc, List.cons_append]
      refine ⟨name, _, value, rest, ⟨rfl, isName, ⟨quote, blanks, mark, blanks', quote',
        ⟨quoted, areBlank, isMarked, areBlank', quoted'⟩, rfl⟩, isValue⟩, ?_⟩
      congr 1
      · simp
      · simp
        omega
  · rintro ⟨name, _, value, rest, ⟨rfl, isName, ⟨quote, blanks, mark, blanks', quote', is, rfl⟩,
      isValue⟩, rfl⟩
    -- The value starts with neither a quote nor a blank, so what is skipped ends in front of it.
    obtain ⟨first, value', rfl⟩ := List.exists_cons_of_ne_nil isValue.filled
    have starts : isQuote first = false ∧ isBlank first = false := by
      simpa [isValueChar] using isValue.accepted first List.mem_cons_self
    have afterName : skipOne isQuote (quote ++ (blanks ++ mark :: (blanks' ++ quote')) ++
        (first :: value' ++ rest)) =
          blanks ++ mark :: (blanks' ++ (quote' ++ first :: (value' ++ rest))) := by
      rw [List.append_assoc, List.append_assoc, List.cons_append, List.append_assoc]
      refine skipOne_append is.quote fun c head => ?_
      exact isQuote_of_head is.blanks (plain_of_isMark is.mark).2 head
    have afterMark : skipOne isQuote
        ((blanks' ++ (quote' ++ first :: (value' ++ rest))).dropWhile isBlank) =
          first :: (value' ++ rest) := by
      rw [dropWhile_append_of_all is.blanks', skipOne_append is.quote' (by simpa using starts.1)]
      rcases is.quote' with rfl | ⟨c, rfl, quoted⟩
      · simpa using starts.2
      · simpa using isBlank_of_isQuote quoted
    have isMarked : (mark == ':' || mark == '=') = true := is.mark
    have afterValue : skipRun? (fun c => !isQuote c && !isBlank c) (first :: (value' ++ rest)) =
        some rest := skipRun?_eq_some_iff.mpr ⟨first :: value', rfl, isValue⟩
    refine ⟨_, ⟨name, isName, rfl⟩, ?_⟩
    rw [afterName, dropWhile_blanks is.blanks (plain_of_isMark is.mark).1, List.head?_cons,
      Option.any_some, if_pos isMarked, Option.bind_some, List.tail_cons, afterMark, afterValue,
      Option.bind_some]
    congr 2
    · simp
    · simp
      omega

/-! ## Bearer tokens -/

/-- A text gives a bearer token: the word before it, blanks and the token, in front of a rest. -/
structure Bears (text word blanks token rest : List Char) : Prop where
  whole : text = word ++ (blanks ++ (token ++ rest))
  word : IsWord "bearer" word
  blanks : IsRun isBlank blanks (token ++ rest)
  token : IsRun (fun c => !isBlank c) token rest

theorem bearerRule_eq_some_iff :
    bearerRule before text = some hit ↔ ∃ word blanks token rest,
      Bears text word blanks token rest ∧
        hit = ⟨"Bearer [TOKEN_REDACTED]".toList, (word ++ (blanks ++ token)).length⟩ := by
  rw [bearerRule]
  simp only [bind, Option.bind_eq_some_iff, pure, Option.some.injEq, skipRun?_eq_some_iff]
  constructor
  · rintro ⟨_, found, _, ⟨blanks, rfl, areBlank⟩, rest, ⟨token, rfl, isToken⟩, rfl⟩
    obtain ⟨word, isWord, rfl⟩ := afterWord?_eq_some_iff.mp found
    refine ⟨word, blanks, token, rest, ⟨rfl, isWord, areBlank, isToken⟩, ?_⟩
    congr 1
    simp only [List.length_append]
    omega
  · rintro ⟨word, blanks, token, rest, ⟨rfl, isWord, areBlank, isToken⟩, rfl⟩
    refine ⟨_, afterWord?_eq_some_iff.mpr ⟨word, isWord, rfl⟩, _, ⟨blanks, rfl, areBlank⟩, rest,
      ⟨token, rfl, isToken⟩, ?_⟩
    congr 1
    simp only [List.length_append]
    omega

/-! ## Secret keys -/

theorem keyRule_eq_some_iff :
    keyRule before text = some hit ↔ before.any Text.isWordChar = false ∧ ∃ key rest,
      text = "sk-".toList ++ (key ++ rest) ∧ IsRun isKeyChar key rest ∧ keyLength ≤ key.length ∧
        hit = ⟨"[KEY_REDACTED]".toList, ("sk-".toList ++ key).length⟩ := by
  rw [keyRule]
  constructor
  · intro found
    split at found
    · cases found
    · next starts =>
      simp only [bind, Option.bind_eq_some_iff, dropStart?_eq_some_iff,
        Option.ite_none_left_eq_some, Option.some.injEq] at found
      obtain ⟨after, rfl, long, rfl⟩ := found
      -- The rule measures a key by what is left behind it.
      have whole := List.takeWhile_append_dropWhile (p := isKeyChar) (l := after)
      have lengths := congrArg List.length whole
      rw [List.length_append] at lengths
      refine ⟨by simpa using starts, after.takeWhile isKeyChar, after.dropWhile isKeyChar,
        congrArg _ whole.symm, ?_, ?_, ?_⟩
      · refine IsRun.takeWhile (List.ne_nil_of_length_pos ?_)
        rw [keyLength] at long
        omega
      · omega
      · congr 1
        simp only [List.length_append]
        omega
  · rintro ⟨starts, key, rest, rfl, isKey, long, rfl⟩
    simp only [bind, starts, Bool.false_eq_true, if_false, Option.bind_eq_some_iff]
    refine ⟨_, dropStart?_eq_some_iff.mpr rfl, ?_⟩
    rw [dropWhile_append_of_all isKey.accepted isKey.ends, if_neg]
    · congr 2
      simp only [List.length_append]
      omega
    · simp only [List.length_append]
      omega

end CodeAtlas.Redaction
