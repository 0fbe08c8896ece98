import CodeAtlas.Embedding.Feature
import Mathlib.Data.List.Chain

/-!
# The normal form of a text

In the form in which a text is embedded every blank is a single space between two other characters,
and there are no more characters than may be. A text that is in this form is left as it is, so what
was normalized once can be normalized again.

## Main results

`Feature.normal_normalize`, `Feature.normalize_of_normal` and from them `Feature.normalize_normalize`.
-/

namespace CodeAtlas.Feature

open Text

/-- Every blank is a space, and no two blanks meet. -/
structure Collapsed (text : List Char) : Prop where
  spaces : ∀ c ∈ text, isBlank c = true → c = ' '
  apart : text.IsChain fun c d => ¬ (isBlank c = true ∧ isBlank d = true)

/-- No blank at the start. -/
def StartsPlain (text : List Char) : Prop :=
  ∀ c ∈ text.head?, isBlank c = false

/-- No blank at the end. -/
def EndsPlain (text : List Char) : Prop :=
  ∀ c ∈ text.getLast?, isBlank c = false

/-- The form of a text that is embedded with a bound on its length. -/
structure Normal (maxChars : Nat) (text : List Char) : Prop where
  collapsed : Collapsed text
  starts : StartsPlain text
  ends : EndsPlain text
  short : text.length ≤ maxChars

/-! ### Runs of blanks -/

theorem Collapsed.within {text part : List Char} (collapsed : Collapsed text)
    (among : part <:+: text) : Collapsed part := by
  refine ⟨fun c member => collapsed.spaces c (among.subset member), ?_⟩
  obtain ⟨before, after, rfl⟩ := among
  exact collapsed.apart.left_of_append.right_of_append

/-- Within a run of blanks no further blank is written at first. -/
theorem startsPlain_go (text : List Char) : StartsPlain (collapse.go true text) := by
  induction text with
  | nil => exact fun c member => absurd member (by simp [collapse.go])
  | cons c rest ih =>
    simp only [collapse.go, if_true]
    split
    · exact ih
    next visible =>
      intro d first
      rw [List.head?_cons, Option.mem_some_iff] at first
      simpa [← first] using visible

theorem collapsed_go (inRun : Bool) (text : List Char) : Collapsed (collapse.go inRun text) := by
  induction text generalizing inRun with
  | nil => exact ⟨fun c member => absurd member (by simp [collapse.go]), .nil⟩
  | cons c rest ih =>
    simp only [collapse.go]
    split
    next =>
      split
      · exact ih true
      -- The first blank of a run is written as a space, and what comes next is not blank.
      · refine ⟨List.forall_mem_cons.mpr ⟨fun _ => rfl, (ih true).spaces⟩,
          List.isChain_cons.mpr ⟨fun d next meet => ?_, (ih true).apart⟩⟩
        rw [startsPlain_go rest d next] at meet
        exact Bool.false_ne_true meet.2
    next visible =>
      exact ⟨List.forall_mem_cons.mpr ⟨fun blank => absurd blank visible, (ih false).spaces⟩,
        List.isChain_cons.mpr ⟨fun d _ meet => visible meet.1, (ih false).apart⟩⟩

theorem go_of_collapsed {inRun : Bool} {text : List Char} (collapsed : Collapsed text)
    (starts : inRun = true → StartsPlain text) : collapse.go inRun text = text := by
  induction text generalizing inRun with
  | nil => rfl
  | cons c rest ih =>
    obtain ⟨meets, chain⟩ := List.isChain_cons.mp collapsed.apart
    have after : Collapsed rest := collapsed.within (List.suffix_cons c rest).isInfix
    simp only [collapse.go]
    split
    next blank =>
      have outside : inRun = false := by
        cases inRun with
        | false => rfl
        | true => simp [starts rfl c rfl] at blank
      have plain : StartsPlain rest := fun d next => by
        simpa [blank] using meets d next
      rw [outside, if_neg Bool.false_ne_true, ih after fun _ => plain,
        collapsed.spaces c List.mem_cons_self blank]
    next visible => rw [ih after fun other => absurd other Bool.false_ne_true]

/-! ### Margins -/

theorem dropWhile_of_startsPlain {text : List Char} (starts : StartsPlain text) :
    text.dropWhile isBlank = text := by
  cases text with
  | nil => rfl
  | cons c rest => rw [List.dropWhile_cons, starts c rfl, if_neg Bool.false_ne_true]

theorem startsPlain_dropWhile (text : List Char) : StartsPlain (text.dropWhile isBlank) := by
  intro c first
  have plain := List.head?_dropWhile_not isBlank text
  rw [Option.mem_def] at first
  rwa [first] at plain

theorem startsPlain_reverse {text : List Char} : StartsPlain text.reverse ↔ EndsPlain text := by
  rw [StartsPlain, EndsPlain, List.head?_reverse]

theorem StartsPlain.begins {text part : List Char} (starts : StartsPlain text)
    (begins : part <+: text) : StartsPlain part := by
  intro c first
  refine starts c ?_
  obtain ⟨rest, rfl⟩ := begins
  exact List.mem_head?_append_of_mem_head? first

theorem trim_plain (text : List Char) :
    trim text <:+: text ∧ StartsPlain (trim text) ∧ EndsPlain (trim text) := by
  have begins : trim text <+: trimStart text := by
    have ends := (List.dropWhile_suffix (l := (trimStart text).reverse) isBlank).reverse
    rwa [List.reverse_reverse] at ends
  refine ⟨begins.isInfix.trans (List.dropWhile_suffix _).isInfix,
    (startsPlain_dropWhile text).begins begins, startsPlain_reverse.mp ?_⟩
  rw [trim, trimEnd, List.reverse_reverse]
  exact startsPlain_dropWhile _

theorem trim_of_plain {text : List Char} (starts : StartsPlain text) (ends : EndsPlain text) :
    trim text = text := by
  rw [trim, trimStart, dropWhile_of_startsPlain starts, trimEnd,
    dropWhile_of_startsPlain (startsPlain_reverse.mpr ends), List.reverse_reverse]

/-! ### Normal texts -/

theorem normal_normalize (maxChars : Nat) (text : String) :
    Normal maxChars (normalize maxChars text).toList := by
  let chars := collapse text.toList
  let cut := if (maxChars : Int) < chars.length then Slice.upTo maxChars chars else chars
  have begins : cut <+: chars ∧ cut.length ≤ maxChars := by
    by_cases long : (maxChars : Int) < chars.length
    · simp only [cut, if_pos long, Slice.upTo, if_pos (Int.natCast_nonneg maxChars),
        Int.toNat_natCast]
      exact ⟨List.take_prefix _ _, List.length_take_le _ _⟩
    · simp only [cut, if_neg long]
      exact ⟨List.prefix_rfl, by omega⟩
  obtain ⟨among, starts, ends⟩ := trim_plain cut
  rw [normalize, String.toList_ofList]
  exact ⟨(collapsed_go false text.toList).within (among.trans begins.1.isInfix), starts, ends,
    among.length_le.trans begins.2⟩

theorem normalize_of_normal {maxChars : Nat} {text : String} (normal : Normal maxChars text.toList) :
    normalize maxChars text = text := by
  have same : collapse text.toList = text.toList :=
    go_of_collapsed normal.collapsed fun other => absurd other Bool.false_ne_true
  have short : ¬ (maxChars : Int) < text.toList.length := by
    have := normal.short
    omega
  rw [normalize, same, if_neg short, trim_of_plain normal.starts normal.ends, String.ofList_toList]

theorem normalize_normalize (maxChars : Nat) (text : String) :
    normalize maxChars (normalize maxChars text) = normalize maxChars text :=
  normalize_of_normal (normal_normalize maxChars text)

end CodeAtlas.Feature
