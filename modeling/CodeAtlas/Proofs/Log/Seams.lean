import CodeAtlas.Proofs.Log.Rules
import CodeAtlas.Proofs.Text.Line

/-!
# Where a text may be cut

No reading of a rule crosses a blank, except that of a credential between its name and its value and
that of a bearer token behind its word. So in front of a blank a text may be cut for the rules of
home directories, and for that of credentials as long as what stands before does not open one.

The rules of home directories and of credentials are gentle: they go over a text part by part, where
the parts are set off by blanks and none opens a credential. So do several of them in a row.

## Main results

`seam_home`, `seam_credential`: a blank is a seam.
`not_opens_go`: a rule does not open a credential that was not open.
`gentle_earlyRules`: the rules before that of bearer tokens are gentle.
`reduced_append`, `reduced_preserves`: what gentle rules do, all of them do.
-/

namespace CodeAtlas.Redaction

open Text (isBlank)

variable {rule : Rule} {text a b w : List Char} {before : Option Char} {parent : String}

/-! ## The hits of the rules -/

theorem bounded_home (parent : String) : (homeRule parent).Bounded := by
  intro before text hit found
  obtain ⟨name, rest, rfl, isName, rfl⟩ := homeRule_eq_some_iff.mp found
  have filled := List.length_pos_of_ne_nil isName.filled
  simp only [List.length_append]
  omega

theorem closes_home (parent : String) : (homeRule parent).Closes := by
  intro before text hit found
  obtain ⟨name, rest, -, -, rfl⟩ := homeRule_eq_some_iff.mp found
  rfl

theorem bounded_credential : credentialRule.Bounded := by
  intro before text hit found
  obtain ⟨name, sign, value, rest, gives, rfl⟩ := credentialRule_eq_some_iff.mp found
  have filled := List.length_pos_of_ne_nil gives.value.filled
  rw [gives.whole]
  simp only [List.length_append]
  omega

theorem closes_credential : credentialRule.Closes := by
  intro before text hit found
  obtain ⟨name, sign, value, rest, -, rfl⟩ := credentialRule_eq_some_iff.mp found
  rw [List.getLast?_append_of_ne_nil _ (by decide)]
  decide

theorem bounded_bearer : bearerRule.Bounded := by
  intro before text hit found
  obtain ⟨word, blanks, token, rest, bears, rfl⟩ := bearerRule_eq_some_iff.mp found
  have filled := List.length_pos_of_ne_nil bears.token.filled
  rw [bears.whole]
  simp only [List.length_append]
  omega

theorem closes_bearer : bearerRule.Closes := by
  intro before text hit found
  obtain ⟨word, blanks, token, rest, -, rfl⟩ := bearerRule_eq_some_iff.mp found
  rfl

theorem bounded_key : keyRule.Bounded := by
  intro before text hit found
  obtain ⟨-, key, rest, rfl, isKey, -, rfl⟩ := keyRule_eq_some_iff.mp found
  have filled := List.length_pos_of_ne_nil isKey.filled
  simp only [List.length_append]
  omega

theorem blind_home (parent : String) : (homeRule parent).Blind :=
  fun _ _ => rfl

theorem blind_credential : credentialRule.Blind :=
  fun _ _ => rfl

theorem blind_bearer : bearerRule.Blind :=
  fun _ _ => rfl

/-! ## Blanks -/

/-- A text is empty or starts with a blank. -/
def IsApart (text : List Char) : Prop :=
  ∀ c ∈ text.head?, isBlank c = true

theorem isApart_space (text : List Char) : IsApart (' ' :: text) := by
  intro c head
  obtain rfl := Option.some.inj head
  exact Text.isBlank_of_space

/-- A character without case is in a text only if it is in the word. -/
theorem IsWord.not_mem {word : String} {x : Char} (is : IsWord word w)
    (caseless : Pattern.foldCase x = x) (outside : x ∉ word.toList) : x ∉ w := by
  intro mem
  have folded : Pattern.foldCase x ∈ word.toList := by
    rw [← show w.map Pattern.foldCase = word.toList from is]
    exact List.mem_map_of_mem mem
  rw [caseless] at folded
  exact outside folded

theorem IsWord.refuses {word : String} {accepts : Char → Bool} (is : IsWord word w)
    (caseless : ∀ c, accepts c = true → Pattern.foldCase c = c)
    (refused : ∀ c ∈ word.toList, accepts c = false) : ∀ c ∈ w, accepts c = false := by
  intro c mem
  by_contra accepted
  rw [Bool.not_eq_false] at accepted
  have outside : c ∉ word.toList := fun inside => by simp [refused c inside] at accepted
  exact is.not_mem (caseless c accepted) outside mem

theorem IsWord.spaceless {word : String} (is : IsWord word w)
    (spaceless : ∀ c ∈ word.toList, isBlank c = false) : ∀ c ∈ w, isBlank c = false :=
  is.refuses (fun _ => Text.foldCase_of_isBlank) spaceless

/-- The characters of a sign. -/
def isSignChar (c : Char) : Bool :=
  isQuote c || isBlank c || isMark c

theorem foldCase_of_isSignChar {c : Char} (sign : isSignChar c = true) :
    Pattern.foldCase c = c := by
  simp only [isSignChar, isQuote, isMark, Bool.or_eq_true, beq_iff_eq] at sign
  rcases sign with ((rfl | rfl) | blank) | rfl | rfl
  · decide
  · decide
  · exact Text.foldCase_of_isBlank blank
  · decide
  · decide

theorem IsName.plain (is : IsName w) : ∀ c ∈ w, isSignChar c = false := by
  obtain ⟨word, listed, isWord⟩ := is
  have plain : ∀ word ∈ credentialNames, ∀ c ∈ word.toList, isSignChar c = false := by decide
  exact isWord.refuses (fun _ => foldCase_of_isSignChar) (plain word listed)

theorem IsName.spaceless (is : IsName w) : ∀ c ∈ w, isBlank c = false := by
  intro c mem
  have plain := is.plain c mem
  simp only [isSignChar, Bool.or_eq_false_iff] at plain
  exact plain.1.2

theorem IsName.filled (is : IsName w) : w ≠ [] := by
  rintro rfl
  obtain ⟨word, listed, isWord⟩ := is
  have filled : ∀ word ∈ credentialNames, word.toList ≠ [] := by decide
  exact filled word listed isWord.symm

/-- What has no blank does not reach behind a cut in front of one. -/
theorem cut_behind_plain {run rest : List Char} (spaceless : ∀ c ∈ run, isBlank c = false)
    (apart : IsApart b) (whole : a ++ b = run ++ rest) :
    ∃ rest', a = run ++ rest' ∧ rest = rest' ++ b := by
  have accepted : ∀ c ∈ run, (!isBlank c) = true := fun c mem => by simp [spaceless c mem]
  have refused : ∀ c ∈ b.head?, (!isBlank c) = false := fun c head => by simp [apart c head]
  exact cut_behind accepted refused whole

/-- A cut lies within a run of blanks or behind it. -/
theorem cut_blanks {blanks rest : List Char} (areBlank : ∀ c ∈ blanks, isBlank c = true)
    (whole : a ++ b = blanks ++ rest) :
    (∀ c ∈ a, isBlank c = true) ∨ ∃ rest', a = blanks ++ rest' ∧ rest = rest' ++ b := by
  rcases List.append_eq_append_iff.mp whole with ⟨x, rfl, rfl⟩ | ⟨x, rfl, rfl⟩
  · exact .inl fun c mem => areBlank c (List.mem_append_left x mem)
  · exact .inr ⟨x, rfl, rfl⟩

/-- The name of a home directory reaches up to a blank at most. -/
theorem seam_home (spaceless : ∀ c ∈ parent.toList, isBlank c = false) (apart : IsApart b) :
    (homeRule parent).Seam a b := by
  intro s _ _ before
  refine Option.ext fun hit => ?_
  rw [homeRule_eq_some_iff, homeRule_eq_some_iff]
  constructor
  · rintro ⟨name, rest, whole, isName, rfl⟩
    have plain : ∀ c ∈ name, isBlank c = false := by
      intro c mem
      have accepted := isName.accepted c mem
      simp only [isNameChar, Bool.and_eq_true, Bool.not_eq_true'] at accepted
      exact accepted.2
    obtain ⟨s₁, rfl, behind⟩ := cut_behind_plain spaceless apart whole
    obtain ⟨rest', rfl, rfl⟩ := cut_behind_plain plain apart behind.symm
    exact ⟨name, rest', rfl, isName.ends_of_split, rfl⟩
  · rintro ⟨name, rest, rfl, isName, rfl⟩
    refine ⟨name, rest ++ b, by simp only [List.append_assoc], isName.append ?_, rfl⟩
    intro c head
    simp [isNameChar, apart c head]

/-- Nor does a secret key reach further. -/
theorem seam_key (apart : IsApart b) : keyRule.Seam a b := by
  intro s _ _ before
  have blank_no_key {c : Char} (blank : isBlank c = true) : isKeyChar c = false :=
    Text.forall_blank (P := fun c => isKeyChar c = false) (by decide) blank
  refine Option.ext fun hit => ?_
  rw [keyRule_eq_some_iff, keyRule_eq_some_iff]
  refine and_congr_right fun _ => ?_
  constructor
  · rintro ⟨key, rest, whole, isKey, long, rfl⟩
    obtain ⟨s₁, rfl, behind⟩ := cut_behind_plain (by decide) apart whole
    obtain ⟨rest', rfl, rfl⟩ := cut_behind isKey.accepted
      (fun c head => blank_no_key (apart c head)) behind.symm
    exact ⟨key, rest', rfl, isKey.ends_of_split, long, rfl⟩
  · rintro ⟨key, rest, rfl, isKey, long, rfl⟩
    refine ⟨key, rest ++ b, by simp only [List.append_assoc], isKey.append ?_, long, rfl⟩
    exact fun c head => blank_no_key (apart c head)

/-! ## Open credentials -/

/-- The start of a credential: its name and as much of a sign as there is, up to the blanks behind
the mark. -/
def IsOpening (w : List Char) : Prop :=
  ∃ name quote blanks mark blanks', IsName name ∧ IsOptional isQuote quote ∧
    (∀ c ∈ blanks, isBlank c = true) ∧ IsOptional isMark mark ∧
    (∀ c ∈ blanks', isBlank c = true) ∧ w = name ++ (quote ++ (blanks ++ (mark ++ blanks')))

/-- A text ends in the start of a credential. -/
def Opens (text : List Char) : Prop :=
  ∃ w, IsOpening w ∧ w <:+ text

theorem Opens.of_suffix (opens : Opens a) (suffix : a <:+ b) : Opens b := by
  obtain ⟨w, isOpening, within⟩ := opens
  exact ⟨w, isOpening, within.trans suffix⟩

theorem spaceless_of_isOptional {accepts : Char → Bool} (is : IsOptional accepts w)
    (spaceless : ∀ c, accepts c = true → isBlank c = false) : ∀ c ∈ w, isBlank c = false := by
  rcases is with rfl | ⟨c, rfl, accepted⟩
  · simp
  · simpa using spaceless c accepted

section Credential

variable {name sign value rest : List Char}

theorem Gives.append (gives : Gives a name sign value rest) (apart : IsApart b) :
    Gives (a ++ b) name sign value (rest ++ b) where
  whole := by rw [gives.whole]; simp only [List.append_assoc]
  name := gives.name
  sign := gives.sign
  value := gives.value.append fun c head => by simp [isValueChar, apart c head]

/-- A blank within a credential is part of its sign, and what stands before it is an opening. -/
theorem Gives.cut (gives : Gives (a ++ b) name sign value rest) (closed : ¬Opens a)
    (apart : IsApart b) : ∃ rest', Gives a name sign value rest' ∧ rest = rest' ++ b := by
  obtain ⟨whole, isName, ⟨quote, blanks, mark, blanks', quote', is, rfl⟩, isValue⟩ := gives
  simp only [List.append_assoc, List.cons_append] at whole
  have mark_plain : ∀ c ∈ [mark], isBlank c = false := by
    simpa using (plain_of_isMark is.mark).1
  have quote_plain {quote : List Char} (is : IsOptional isQuote quote) :
      ∀ c ∈ quote, isBlank c = false :=
    spaceless_of_isOptional is fun _ => isBlank_of_isQuote
  have value_plain : ∀ c ∈ value, isBlank c = false := by
    intro c mem
    have accepted := isValue.accepted c mem
    simp only [isValueChar, Bool.and_eq_true, Bool.not_eq_true'] at accepted
    exact accepted.2
  -- The cut is behind each part in turn; within blanks it would have an opening before it.
  obtain ⟨a₁, rfl, behind₁⟩ := cut_behind_plain isName.spaceless apart whole
  obtain ⟨a₂, rfl, behind₂⟩ := cut_behind_plain (quote_plain is.quote) apart behind₁.symm
  rcases cut_blanks is.blanks behind₂.symm with areBlank | ⟨a₃, rfl, behind₃⟩
  · exact absurd ⟨_, ⟨name, quote, a₂, [], [], isName, is.quote, areBlank, .inl rfl, by simp,
      by simp⟩, List.suffix_rfl⟩ closed
  rw [← List.singleton_append] at behind₃
  obtain ⟨a₄, rfl, behind₄⟩ := cut_behind_plain mark_plain apart behind₃.symm
  rcases cut_blanks is.blanks' behind₄.symm with areBlank | ⟨a₅, rfl, behind₅⟩
  · exact absurd ⟨_, ⟨name, quote, blanks, [mark], a₄, isName, is.quote, is.blanks,
      .inr ⟨mark, rfl, is.mark⟩, areBlank, rfl⟩, List.suffix_rfl⟩ closed
  obtain ⟨a₆, rfl, behind₆⟩ := cut_behind_plain (quote_plain is.quote') apart behind₅.symm
  obtain ⟨rest', rfl, rfl⟩ := cut_behind_plain value_plain apart behind₆.symm
  refine ⟨rest', ⟨?_, isName, ⟨quote, blanks, mark, blanks', quote', is, rfl⟩,
    isValue.ends_of_split⟩, rfl⟩
  simp only [List.append_assoc, List.cons_append, List.nil_append]

end Credential

theorem seam_credential (closed : ¬Opens a) (apart : IsApart b) : credentialRule.Seam a b := by
  intro s _ suffix before
  refine Option.ext fun hit => ?_
  rw [credentialRule_eq_some_iff, credentialRule_eq_some_iff]
  constructor
  · rintro ⟨name, sign, value, rest, gives, rfl⟩
    obtain ⟨rest', gives', rfl⟩ := gives.cut (fun opens => closed (opens.of_suffix suffix)) apart
    exact ⟨name, sign, value, rest', gives', rfl⟩
  · rintro ⟨name, sign, value, rest, gives, rfl⟩
    exact ⟨name, sign, value, rest ++ b, gives.append apart, rfl⟩

/-! ## Closed texts -/

/-- An opening is a name and characters of a sign. -/
theorem IsOpening.exists (is : IsOpening w) :
    ∃ name tail, IsName name ∧ (∀ c ∈ tail, isSignChar c = true) ∧ w = name ++ tail := by
  obtain ⟨name, quote, blanks, mark, blanks', isName, quoted, areBlank, marked, areBlank', rfl⟩ :=
    is
  refine ⟨name, _, isName, ?_, rfl⟩
  have one {accepts : Char → Bool} {part : List Char} (is : IsOptional accepts part)
      (into : ∀ c, accepts c = true → isSignChar c = true) : ∀ c ∈ part, isSignChar c = true := by
    rcases is with rfl | ⟨c, rfl, accepted⟩
    · simp
    · simpa using into c accepted
  have ofBlanks {part : List Char} (areBlank : ∀ c ∈ part, isBlank c = true) :
      ∀ c ∈ part, isSignChar c = true := fun c mem => by simp [isSignChar, areBlank c mem]
  simp only [List.forall_mem_append]
  exact ⟨one quoted fun c is => by simp [isSignChar, is], ofBlanks areBlank,
    one marked fun c is => by simp [isSignChar, is], ofBlanks areBlank'⟩

theorem IsOpening.unmarked (is : IsOpening w) : ']' ∉ w := by
  obtain ⟨name, tail, ⟨word, listed, isWord⟩, ofSign, rfl⟩ := is.exists
  rw [List.mem_append, not_or]
  constructor
  · have unmarked : ∀ word ∈ credentialNames, ']' ∉ word.toList := by decide
    exact isWord.not_mem (by decide) (unmarked word listed)
  · intro mem
    exact absurd (ofSign _ mem) (by decide)

/-- A text is closed by a character that neither ends a name nor belongs to a sign. -/
theorem not_opens_of_last {c : Char} (last : text.getLast? = some c) (noSign : isSignChar c = false)
    (noName : ∀ word ∈ credentialNames, word.toList.getLast? ≠ some (Pattern.foldCase c)) :
    ¬Opens text := by
  rintro ⟨w, isOpening, front, rfl⟩
  obtain ⟨name, tail, ⟨word, listed, isWord⟩, ofSign, rfl⟩ := isOpening.exists
  -- The last character is that of the name, or one of the sign behind it.
  rcases List.eq_nil_or_concat tail with rfl | ⟨tail, d, rfl⟩
  · rw [List.append_nil, List.getLast?_append_of_ne_nil _ (IsName.filled ⟨word, listed, isWord⟩)]
      at last
    apply noName word listed
    rw [← show name.map Pattern.foldCase = word.toList from isWord, List.getLast?_map, last]
    rfl
  · rw [List.concat_eq_append] at last ofSign
    rw [← List.append_assoc, ← List.append_assoc, List.getLast?_concat] at last
    obtain rfl := Option.some.inj last
    rw [ofSign d (by simp)] at noSign
    cases noSign

/-- What hits write does not open a credential. -/
theorem not_opens_go (closes : rule.Closes) (closed : ¬Opens text) {skip : Nat} :
    ¬Opens (Rule.apply.go rule skip before text) := by
  rintro ⟨w, isOpening, suffix⟩
  exact closed ⟨w, isOpening, Rule.suffix_of_go closes isOpening.unmarked suffix⟩

/-! ## Gentle rules -/

variable {t : List Char}

/-- A rule that goes over a text part by part, where the parts are set off by blanks and none opens
a credential, and that keeps blanks and writes none. -/
structure Rule.Gentle (rule : Rule) : Prop where
  bounded : rule.Bounded
  closes : rule.Closes
  blind : rule.Blind
  seam : ∀ a b, ¬Opens a → IsApart b → rule.Seam a b
  starts : ∀ before c t, isBlank c = true → rule before (c :: t) = none
  plain : ∀ before t hit, (∀ c ∈ t, isBlank c = false) → rule before t = some hit →
    ∀ c ∈ hit.written, isBlank c = false

theorem isBlank_of_starts {c : Char} {w rest : List Char} (filled : w ≠ [])
    (spaceless : ∀ c ∈ w, isBlank c = false) (whole : c :: t = w ++ rest) : isBlank c = false := by
  obtain ⟨d, w, rfl⟩ := List.exists_cons_of_ne_nil filled
  obtain ⟨rfl, -⟩ := List.cons.inj whole
  exact spaceless c List.mem_cons_self

theorem gentle_home (filled : parent.toList ≠ [])
    (spaceless : ∀ c ∈ parent.toList, isBlank c = false) : (homeRule parent).Gentle where
  bounded := bounded_home parent
  closes := closes_home parent
  blind := blind_home parent
  seam := fun _ _ _ apart => seam_home spaceless apart
  starts := by
    intro before c t blank
    refine Option.eq_none_iff_forall_ne_some.mpr fun hit found => ?_
    obtain ⟨name, rest, whole, -, -⟩ := homeRule_eq_some_iff.mp found
    rw [isBlank_of_starts filled spaceless whole] at blank
    contradiction
  plain := by
    intro before t hit _ found
    obtain ⟨name, rest, -, -, rfl⟩ := homeRule_eq_some_iff.mp found
    show ∀ c ∈ "[HOME_REDACTED]".toList, isBlank c = false
    decide

theorem gentle_credential : credentialRule.Gentle where
  bounded := bounded_credential
  closes := closes_credential
  blind := blind_credential
  seam := fun _ _ closed apart => seam_credential closed apart
  starts := by
    intro before c t blank
    refine Option.eq_none_iff_forall_ne_some.mpr fun hit found => ?_
    obtain ⟨name, sign, value, rest, gives, -⟩ := credentialRule_eq_some_iff.mp found
    rw [isBlank_of_starts gives.name.filled gives.name.spaceless gives.whole] at blank
    contradiction
  plain := by
    intro before t hit _ found
    obtain ⟨name, sign, value, rest, gives, rfl⟩ := credentialRule_eq_some_iff.mp found
    exact List.forall_mem_append.mpr ⟨gives.name.spaceless, by decide⟩

/-- The rules before that of bearer tokens. -/
def earlyRules : List Rule :=
  [homeRule "/Users/", homeRule "/home/", credentialRule]

theorem gentle_earlyRules : ∀ rule ∈ earlyRules, rule.Gentle := by
  simp only [earlyRules, List.mem_cons, List.not_mem_nil, or_false, forall_eq_or_imp, forall_eq]
  exact ⟨gentle_home (by decide) (by decide), gentle_home (by decide) (by decide),
    gentle_credential⟩

/-- A text after some rules. -/
def reduced (rules : List Rule) (t : List Char) : List Char :=
  rules.foldl (fun t rule => rule.apply t) t

/-- What the rules before that of bearer tokens leave of a text. -/
def early (t : List Char) : List Char :=
  reduced earlyRules t

theorem toList_text (s : String) :
    (Redaction.text s).toList = keyRule.apply (bearerRule.apply (early s.toList)) :=
  String.toList_ofList

namespace Rule.Gentle

theorem apply_blank (gentle : rule.Gentle) {c : Char} (blank : isBlank c = true) :
    rule.apply (c :: t) = c :: rule.apply t := by
  rw [Rule.apply, Rule.go_miss (gentle.starts _ _ _ blank), Rule.go_blind gentle.blind (some c),
    Rule.apply]

theorem apply_apart (gentle : rule.Gentle) (apart : IsApart b) : IsApart (rule.apply b) := by
  cases b with
  | nil => exact apart
  | cons c b =>
    rw [gentle.apply_blank (apart c rfl)]
    exact apart

end Rule.Gentle

section Reduced

variable {rules : List Rule}

/-- What each rule preserves, all of them do. -/
theorem reduced_preserves {P : List Char → Prop}
    (step : ∀ rule ∈ rules, ∀ t, P t → P (rule.apply t)) (start : P t) : P (reduced rules t) := by
  induction rules generalizing t with
  | nil => exact start
  | cons rule rules ih =>
    obtain ⟨first, later⟩ := List.forall_mem_cons.mp step
    exact ih later (first t start)

theorem reduced_nil (rules : List Rule) : reduced rules [] = [] := by
  refine reduced_preserves (P := fun t => t = []) (fun rule _ t empty => ?_) rfl
  rw [empty, Rule.apply, Rule.go_nil]

variable (gentle : ∀ rule ∈ rules, rule.Gentle)
include gentle

theorem reduced_append (closed : ¬Opens a) (apart : IsApart b) :
    reduced rules (a ++ b) = reduced rules a ++ reduced rules b := by
  induction rules generalizing a b with
  | nil => rfl
  | cons rule rules ih =>
    obtain ⟨first, later⟩ := List.forall_mem_cons.mp gentle
    simp only [reduced, List.foldl_cons] at ih ⊢
    -- The first rule leaves two parts that are set off in the same way.
    rw [Rule.apply_append first.bounded first.blind (first.seam a b closed apart)]
    exact ih later (not_opens_go first.closes closed) (first.apply_apart apart)

theorem reduced_blank {c : Char} (blank : isBlank c = true) :
    reduced rules (c :: t) = c :: reduced rules t := by
  induction rules generalizing t with
  | nil => rfl
  | cons rule rules ih =>
    obtain ⟨first, later⟩ := List.forall_mem_cons.mp gentle
    simp only [reduced, List.foldl_cons] at ih ⊢
    rw [first.apply_blank blank]
    exact ih later

theorem reduced_apart (apart : IsApart b) : IsApart (reduced rules b) :=
  reduced_preserves (fun rule mem _ apart => (gentle rule mem).apply_apart apart) apart

theorem reduced_plain (plain : ∀ c ∈ t, isBlank c = false) :
    ∀ c ∈ reduced rules t, isBlank c = false :=
  reduced_preserves (P := fun t => ∀ c ∈ t, isBlank c = false)
    (fun rule mem _ plain => Rule.forall_go plain (gentle rule mem).plain) plain

theorem reduced_ne_nil (filled : t ≠ []) : reduced rules t ≠ [] :=
  reduced_preserves (P := fun t => t ≠ [])
    (fun rule mem _ filled => Rule.go_ne_nil (gentle rule mem).closes filled) filled

/-- A text that does not end in a blank goes on to end so. -/
theorem reduced_solid (solid : ∀ c ∈ t.getLast?, isBlank c = false) :
    ∀ c ∈ (reduced rules t).getLast?, isBlank c = false := by
  refine reduced_preserves (P := fun t => ∀ c ∈ t.getLast?, isBlank c = false) ?_ solid
  intro rule mem t solid c last
  cases ends : t.getLast? with
  | none =>
    rw [List.getLast?_eq_none_iff] at ends
    rw [ends, Rule.apply, Rule.go_nil] at last
    cases last
  | some d =>
    -- A rule keeps the last character or writes a closing bracket in its place.
    have ending : (rule.apply t).getLast? = some d ∨ (rule.apply t).getLast? = some ']' :=
      Rule.getLast?_go (gentle rule mem).closes ends
    rcases ending with same | closing
    · rw [same] at last
      exact solid c (ends ▸ last)
    · rw [closing] at last
      obtain rfl := Option.some.inj last
      decide

theorem suffix_of_reduced {w : List Char} (unmarked : ']' ∉ w) (suffix : w <:+ reduced rules t) :
    w <:+ t := by
  refine reduced_preserves (P := fun u => w <:+ u → w <:+ t) ?_ id suffix
  exact fun rule mem u back suffix =>
    back (Rule.suffix_of_go (gentle rule mem).closes unmarked suffix)

end Reduced

end CodeAtlas.Redaction
