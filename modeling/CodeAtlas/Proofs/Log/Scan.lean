import CodeAtlas.Log.Redaction
import Mathlib.Data.List.Basic

/-!
# How a rule goes over a text

A rule is tried at one place after another, and where it hits, the scan goes on behind what the hit
takes. So a text may be cut where no hit crosses the cut, and what ends a redacted text without a
closing bracket has been there all along.

## Main results

`Rule.go_append`: at a seam the two parts are redacted one by one.
`Rule.suffix_of_go`: what a redacted text ends with, once no hit wrote it, the text ends with.

## Proof strategy

Every statement is about the scan with some characters left to skip, and goes by induction on the
text with the two equations of the scan.
-/

namespace CodeAtlas.Redaction.Rule

variable {rule : Rule} {text a b : List Char} {before : Option Char} {skip : Nat}

/-- A hit takes something, and no more than there is. -/
def Bounded (rule : Rule) : Prop :=
  ∀ before text hit, rule before text = some hit → 0 < hit.length ∧ hit.length ≤ text.length

/-- A hit writes a text that ends in a closing bracket. -/
def Closes (rule : Rule) : Prop :=
  ∀ before text hit, rule before text = some hit → hit.written.getLast? = some ']'

/-- What stands before a place does not matter to the rule. -/
def Blind (rule : Rule) : Prop :=
  ∀ before text, rule before text = rule none text

/-- No hit that starts in `a` depends on what follows `a`. -/
def Seam (rule : Rule) (a b : List Char) : Prop :=
  ∀ s, s ≠ [] → s <:+ a → ∀ before, rule before (s ++ b) = rule before s

/-! ## The scan -/

@[simp] theorem go_nil : apply.go rule skip before [] = [] := by
  cases skip <;> rfl

@[simp] theorem go_succ (c : Char) :
    apply.go rule (skip + 1) before (c :: text) = apply.go rule skip (some c) text := rfl

theorem go_hit {c : Char} {hit : Hit} (found : rule before (c :: text) = some hit) :
    apply.go rule 0 before (c :: text) =
      hit.written ++ apply.go rule (hit.length - 1) (some c) text := by
  rw [apply.go, found]

theorem go_miss {c : Char} (missed : rule before (c :: text) = none) :
    apply.go rule 0 before (c :: text) = c :: apply.go rule 0 (some c) text := by
  rw [apply.go, missed]

/-- Skipping passes over just what is skipped. -/
theorem go_skip (a b : List Char) (before : Option Char) :
    apply.go rule a.length before (a ++ b) = apply.go rule 0 (a.getLast?.or before) b := by
  induction a generalizing before with
  | nil => rfl
  | cons c a ih =>
    rw [List.length_cons, List.cons_append, go_succ, ih, List.getLast?_cons]
    cases a.getLast? <;> rfl

/-- A hit that takes `a` writes its text in place of `a`. -/
theorem go_take {written : List Char} (filled : a ≠ [])
    (found : rule before (a ++ b) = some ⟨written, a.length⟩) :
    apply.go rule 0 before (a ++ b) = written ++ apply.go rule 0 (a.getLast?.or before) b := by
  obtain ⟨c, a, rfl⟩ := List.exists_cons_of_ne_nil filled
  rw [List.cons_append] at found ⊢
  rw [go_hit found, List.length_cons, Nat.add_sub_cancel, go_skip, List.getLast?_cons]
  cases a.getLast? <;> rfl

/-- At a seam the two parts are redacted one by one. -/
theorem go_append (bounded : rule.Bounded) (seam : rule.Seam a b) (inside : skip ≤ a.length) :
    apply.go rule skip before (a ++ b) =
      apply.go rule skip before a ++ apply.go rule 0 (a.getLast?.or before) b := by
  induction a generalizing skip before with
  | nil =>
    obtain rfl : skip = 0 := Nat.le_zero.mp inside
    rfl
  | cons c a ih =>
    have later : rule.Seam a b := fun s filled suffix =>
      seam s filled (suffix.trans (List.suffix_cons c a))
    have last : (c :: a).getLast?.or before = a.getLast?.or (some c) := by
      rw [List.getLast?_cons]
      cases a.getLast? <;> rfl
    rw [last, List.cons_append]
    cases skip with
    | succ skip =>
      rw [go_succ, go_succ]
      exact ih later (Nat.le_of_succ_le_succ inside)
    | zero =>
      have same := seam (c :: a) (List.cons_ne_nil c a) List.suffix_rfl before
      rw [List.cons_append] at same
      cases found : rule before (c :: a) with
      | none =>
        rw [go_miss (same.trans found), go_miss found, ih later (Nat.zero_le _), List.cons_append]
      | some hit =>
        -- The hit stays in the first part, so what is left to skip does too.
        have taken := bounded _ _ _ found
        rw [List.length_cons] at taken
        rw [go_hit (same.trans found), go_hit found, ih later (by omega), List.append_assoc]

/-- A part where nothing hits is left as it is. -/
theorem go_append_of_miss (missed : ∀ s, s ≠ [] → s <:+ a → ∀ before, rule before (s ++ b) = none) :
    apply.go rule 0 before (a ++ b) = a ++ apply.go rule 0 (a.getLast?.or before) b := by
  induction a generalizing before with
  | nil => rfl
  | cons c a ih =>
    have here := missed (c :: a) (List.cons_ne_nil c a) List.suffix_rfl before
    rw [List.cons_append] at here ⊢
    rw [go_miss here, ih fun s filled suffix =>
      missed s filled (suffix.trans (List.suffix_cons c a)), List.getLast?_cons]
    cases a.getLast? <;> rfl

theorem go_of_miss (missed : ∀ s, s ≠ [] → s <:+ a → ∀ before, rule before s = none) :
    apply.go rule 0 before a = a := by
  have all : apply.go rule 0 before (a ++ []) = a ++ apply.go rule 0 (a.getLast?.or before) [] :=
    go_append_of_miss (by simpa using missed)
  simpa using all

theorem go_blind (blind : rule.Blind) (before : Option Char) :
    apply.go rule skip before text = apply.go rule skip none text := by
  induction text generalizing skip before with
  | nil => simp
  | cons c text ih =>
    cases skip with
    | succ skip => simp [ih]
    | zero =>
      cases found : rule none (c :: text) with
      | none => rw [go_miss ((blind _ _).trans found), go_miss found]
      | some hit => rw [go_hit ((blind _ _).trans found), go_hit found]

/-- To a rule that does not look back both parts are texts of their own. -/
theorem apply_append (bounded : rule.Bounded) (blind : rule.Blind) (seam : rule.Seam a b) :
    rule.apply (a ++ b) = rule.apply a ++ rule.apply b := by
  rw [apply, apply, apply, go_append bounded seam (Nat.zero_le _),
    go_blind blind (a.getLast?.or none)]

/-! ## What comes out -/

/-- A property that holds of a text and of all that hits write holds of what comes out. -/
theorem forall_go {P : Char → Prop} (ofText : ∀ c ∈ text, P c)
    (ofHits : ∀ before s hit, (∀ c ∈ s, P c) → rule before s = some hit → ∀ c ∈ hit.written, P c) :
    ∀ c ∈ apply.go rule skip before text, P c := by
  induction text generalizing skip before with
  | nil => simp
  | cons c text ih =>
    obtain ⟨ofFirst, ofRest⟩ := List.forall_mem_cons.mp ofText
    cases skip with
    | succ skip => exact ih ofRest
    | zero =>
      cases found : rule before (c :: text) with
      | none =>
        rw [go_miss found]
        exact List.forall_mem_cons.mpr ⟨ofFirst, ih ofRest⟩
      | some hit =>
        rw [go_hit found]
        exact List.forall_mem_append.mpr ⟨ofHits _ _ _ ofText found, ih ofRest⟩

theorem go_ne_nil (closes : rule.Closes) (filled : text ≠ []) :
    apply.go rule 0 before text ≠ [] := by
  obtain ⟨c, text, rfl⟩ := List.exists_cons_of_ne_nil filled
  cases found : rule before (c :: text) with
  | none =>
    rw [go_miss found]
    exact List.cons_ne_nil _ _
  | some hit =>
    rw [go_hit found]
    intro nothing
    have last := closes _ _ _ found
    rw [(List.append_eq_nil_iff.mp nothing).1] at last
    cases last

section Unmarked

variable {w : List Char}

/-- Without a closing bracket in what comes out there was no hit. -/
theorem go_eq_drop (closes : rule.Closes) (unmarked : ']' ∉ apply.go rule skip before text) :
    apply.go rule skip before text = text.drop skip := by
  induction text generalizing skip before with
  | nil => simp
  | cons c text ih =>
    cases skip with
    | succ skip => exact ih unmarked
    | zero =>
      cases found : rule before (c :: text) with
      | none =>
        rw [go_miss found] at unmarked ⊢
        rw [ih fun mem => unmarked (List.mem_cons_of_mem c mem)]
        rfl
      | some hit =>
        rw [go_hit found] at unmarked
        have mark := List.mem_of_getLast? (closes _ _ _ found)
        exact absurd (List.mem_append_left _ mark) unmarked

/-- An end without a closing bracket lies behind a part that ends in one. -/
theorem suffix_of_suffix_append {x y : List Char} (last : x.getLast? = some ']')
    (unmarked : ']' ∉ w) (suffix : w <:+ x ++ y) : w <:+ y := by
  rcases List.suffix_or_suffix_of_suffix suffix (List.suffix_append x y) with inside | ⟨t, rfl⟩
  · exact inside
  · -- Whatever of `x` belongs to the end has the last character of `x`.
    have part : t <:+ x := by
      obtain ⟨front, whole⟩ := suffix
      rw [← List.append_assoc] at whole
      exact ⟨front, List.append_cancel_right whole⟩
    rcases List.eq_nil_or_concat t with rfl | ⟨t, c, rfl⟩
    · exact List.suffix_rfl
    · obtain ⟨front, rfl⟩ := part
      rw [List.concat_eq_append, ← List.append_assoc, List.getLast?_concat] at last
      obtain rfl := Option.some.inj last
      simp at unmarked

/-- What a redacted text ends with, once no hit wrote it, the text ends with. -/
theorem suffix_of_go (closes : rule.Closes) (unmarked : ']' ∉ w)
    (suffix : w <:+ apply.go rule skip before text) : w <:+ text := by
  induction text generalizing skip before with
  | nil => simpa using suffix
  | cons c text ih =>
    cases skip with
    | succ skip => exact (ih suffix).trans (List.suffix_cons c text)
    | zero =>
      cases found : rule before (c :: text) with
      | none =>
        rw [go_miss found] at suffix
        rcases List.suffix_cons_iff.mp suffix with rfl | later
        · -- All of it is without a closing bracket, so nothing hit behind either.
          have same := go_eq_drop closes fun mem => unmarked (List.mem_cons_of_mem c mem)
          exact ⟨[], by simp [same]⟩
        · exact (ih later).trans (List.suffix_cons c text)
      | some hit =>
        rw [go_hit found] at suffix
        have later := suffix_of_suffix_append (closes _ _ _ found) unmarked suffix
        exact (ih later).trans (List.suffix_cons c text)

end Unmarked

/-- A redacted text ends as the text does, or in a closing bracket. -/
theorem getLast?_go (closes : rule.Closes) {c : Char} (last : text.getLast? = some c) :
    (apply.go rule 0 before text).getLast? = some c ∨
      (apply.go rule 0 before text).getLast? = some ']' := by
  have filled : text ≠ [] := by
    rintro rfl
    cases last
  have remains : apply.go rule 0 before text ≠ [] := go_ne_nil closes filled
  obtain ⟨front, d, whole⟩ := (List.eq_nil_or_concat _).resolve_left remains
  rw [List.concat_eq_append] at whole
  rw [whole, List.getLast?_concat]
  by_cases closing : d = ']'
  · exact .inr (congrArg some closing)
  · have suffix : [d] <:+ text :=
      suffix_of_go closes (by simpa using Ne.symm closing) ⟨front, whole.symm⟩
    obtain ⟨front, rfl⟩ := suffix
    rw [List.getLast?_concat] at last
    exact .inl last

end CodeAtlas.Redaction.Rule
