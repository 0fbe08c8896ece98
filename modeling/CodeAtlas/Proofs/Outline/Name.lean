import CodeAtlas.Outline.Analysis
import CodeAtlas.Proofs.Outline.Declared
import CodeAtlas.Proofs.Pattern.Spelling
import CodeAtlas.Proofs.Text.Line

/-!
# Names show

The name of a function or a class has no blank and is not empty, in every language. So the line
where a declaration stands is not blank.

## Main results

`Outline.shows_analyze`: the names of an outline have a character that is no blank.
-/

namespace CodeAtlas

namespace Pattern

variable {Q : Char → Prop} {p : Pattern} {c d : Cursor} {new : Captures}

/-- Every match is made of characters with `Q`. -/
def Within (Q : Char → Prop) : Pattern → Prop
  | one accepts => ∀ c, accepts c = true → Q c
  | run _ _ accepts => ∀ c, accepts c = true → Q c
  | seq first second => first.Within Q ∧ second.Within Q
  | either first second => first.Within Q ∧ second.Within Q
  | many body => body.Within Q
  | capture _ body => body.Within Q
  | _ => True

theorem Spells.within {w : List Char} (spells : p.Spells w) (within : p.Within Q) :
    ∀ x ∈ w, Q x := by
  induction p generalizing w with
  | one accepts =>
    obtain ⟨x, rfl, accepted⟩ := spells
    simpa using within x accepted
  | seq first second ihFirst ihSecond =>
    obtain ⟨u, v, rfl, first, second⟩ := spells
    exact List.forall_mem_append.mpr ⟨ihFirst first within.1, ihSecond second within.2⟩
  | either first second ihFirst ihSecond =>
    rcases spells with spells | spells
    · exact ihFirst spells within.1
    · exact ihSecond spells within.2
  | run preference limit accepts => exact fun x mem => within x (spells.1 x mem)
  | many body ih =>
    obtain ⟨rounds, rfl, spelled⟩ := spells
    intro x mem
    obtain ⟨u, round, inside⟩ := List.mem_flatten.mp mem
    exact ih (spelled u round) within x inside
  | capture name body ih => exact ih spells within
  | _ =>
    obtain rfl : w = [] := spells
    exact fun _ mem => absurd mem List.not_mem_nil

theorem Yields.within (yields : p.Yields c d new) (within : p.Within Q) :
    ∃ passed, c.Passes passed d ∧ ∀ x ∈ passed, Q x := by
  obtain ⟨w, passes, spells⟩ := yields.spells
  exact ⟨w, passes, spells.within within⟩

@[simp] theorem within_text (s : String) : (text s).Within Q ↔ ∀ x ∈ s.toList, Q x := by
  unfold text
  induction s.toList with
  | nil => simp [Within]
  | cons x rest ih => simp [Within, ih]

theorem within_oneOf {ps : List Pattern} :
    (oneOf ps).Within Q ↔ ∀ p ∈ ps, p.Within Q := by
  induction ps with
  | nil => simp [oneOf, Within]
  | cons p rest ih =>
    cases rest with
    | nil => simp [oneOf]
    | cons q rest => simp [oneOf, Within, ih]

@[simp] theorem within_anyText (texts : List String) :
    (anyText texts).Within Q ↔ ∀ s ∈ texts, ∀ x ∈ s.toList, Q x := by
  simp [anyText, within_oneOf]

/-- What is recorded as the name is not empty and has no blank. -/
def NamesShow (p : Pattern) : Prop :=
  p.Confines "name" fun body => body.Advances ∧ body.Within fun c => Text.isBlank c = false

end Pattern

namespace Grammar

open Pattern

theorem isBlank_of_isIdentStart {c : Char} (accepted : isIdentStart c = true) :
    Text.isBlank c = false := by
  cases blank : Text.isBlank c with
  | false => rfl
  | true =>
    have refused := Text.forall_blank (P := fun c => isIdentStart c = false) (by decide) blank
    rw [refused] at accepted
    cases accepted

theorem isBlank_of_isIdentChar {c : Char} (accepted : isIdentChar c = true) :
    Text.isBlank c = false := by
  rcases Bool.or_eq_true _ _ |>.mp accepted with word | dollar
  · exact Text.isBlank_of_isWordChar word
  · rw [beq_iff_eq.mp dollar]
    decide

attribute [local simp] gap0 gap1 blank0 blank1 word1 ident quoted indented modifiers annotation
  bracedNames flatParameters declarator pythonModule publicName receiver Pattern.run0 Pattern.run1
  Pattern.few0 Pattern.few1 Pattern.optional Pattern.oneOf Advances Confines Within NamesShow
  ofLanguage python javascript typescript php java go unknown scriptFunctions scriptClass
  Text.isBlank_of_isWordChar isBlank_of_isIdentStart isBlank_of_isIdentChar

theorem functions_show (language : Language) :
    ∀ p ∈ (ofLanguage language).functions, p.NamesShow := by
  cases language <;> simp +contextual

theorem classes_show (language : Language) :
    ∀ p ∈ (ofLanguage language).classes, p.NamesShow := by
  cases language <;> simp +contextual

end Grammar

namespace Outline

open Pattern

variable {content : List Char}

/-- A text that has a character that is no blank. -/
def Shows (text : List Char) : Prop :=
  ∃ c ∈ text, Text.isBlank c = false

theorem shows_of_declared {patterns : List Pattern} {d : Declared}
    (show_ : ∀ p ∈ patterns, p.NamesShow) (mem : d ∈ declared patterns (Extent.Source.of content)) :
    Shows d.name.toList := by
  rw [declared, List.mem_reverse] at mem
  rcases mem_of_mem_foldl_note mem with mem | mem
  · obtain ⟨p, ofPattern, mem⟩ := List.mem_flatMap.mp mem
    obtain ⟨m, ofMatch, found⟩ := List.mem_filterMap.mp mem
    obtain ⟨span, under, rfl⟩ := Option.map_eq_some_iff.mp found
    obtain ⟨before, body, inner, -, ⟨advances, within⟩, yields⟩ :=
      (Pattern.findAll_places ofMatch).confined (show_ p ofPattern) under
    obtain ⟨name, passes, plain⟩ := yields.within within
    have longer := yields.advances advances
    rw [passes.offset] at longer
    have filled : name ≠ [] := List.ne_nil_of_length_pos (by omega)
    obtain ⟨c, name, rfl⟩ := List.exists_cons_of_ne_nil filled
    refine ⟨c, ?_, plain c List.mem_cons_self⟩
    rw [String.toList_ofList, passes.text_eq]
    exact List.mem_cons_self
  · simp at mem

theorem shows_of_mem_functionsOf (language : Language) {f : FunctionSpan}
    (mem : f ∈ functionsOf (.ofLanguage language) (.of content)) : Shows f.name.toList := by
  obtain ⟨d, kept, rfl⟩ := List.mem_map.mp (List.mem_mergeSort.mp mem)
  exact shows_of_declared (Grammar.functions_show language) (List.mem_of_mem_filter kept)

theorem shows_of_mem_classesOf (language : Language) {functions : List FunctionSpan}
    {c : ClassSpan} (mem : c ∈ classesOf (.ofLanguage language) (.of content) functions) :
    Shows c.name.toList := by
  obtain ⟨d, found, rfl⟩ := List.mem_map.mp (List.mem_mergeSort.mp mem)
  exact shows_of_declared (Grammar.classes_show language) found

/-- The names of the functions and classes of an outline. -/
theorem shows_analyze (config : OutlineConfig) (path content : String) :
    (∀ f ∈ (analyze config path content).functions, Shows f.name.toList) ∧
      ∀ c ∈ (analyze config path content).classes, Shows c.name.toList := by
  unfold analyze
  simp only
  split
  · exact ⟨by simp [empty], by simp [empty]⟩
  · exact ⟨fun f mem => shows_of_mem_functionsOf _ mem, fun c mem => shows_of_mem_classesOf _ mem⟩

end Outline

end CodeAtlas
