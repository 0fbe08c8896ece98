import CodeAtlas.Log.Line
import Mathlib.Data.List.Forall2

/-!
# Events that differ in their texts only

Two values are alike when they differ in texts that a given relation admits, at any depth of lists
and objects. Where redaction makes related texts equal, it makes alike values equal, and calls of a
log that are alike leave the same lines, or are refused for the same reason.

## Main results

`value_eq_of_alike`: alike values are redacted to the same value.
`Log.lines_eq_of_alike`: alike calls leave the same lines.

## Proof strategy

Induction on the relation; the entries of a line are put together by functions that look at keys
only, so they carry lists of alike fields to such lists.
-/

namespace CodeAtlas.Redaction

variable {R : String → String → Prop} {v w : Value}

/-- Values that are the same but for texts that `R` relates, at any depth. -/
inductive Alike (R : String → String → Prop) : Value → Value → Prop where
  | same (v : Value) : Alike R v v
  | text {s t : String} (related : R s t) : Alike R (.text s) (.text t)
  | list {vs ws : List Value} (length : vs.length = ws.length)
      (items : ∀ v w, (v, w) ∈ vs.zip ws → Alike R v w) : Alike R (.list vs) (.list ws)
  | object {es fs : List (String × Value)} (keys : es.map Prod.fst = fs.map Prod.fst)
      (items : ∀ e f, (e, f) ∈ es.zip fs → Alike R e.2 f.2) : Alike R (.object es) (.object fs)

/-- Fields of the same names with alike values. -/
def FieldAlike (R : String → String → Prop) (e f : String × Value) : Prop :=
  e.1 = f.1 ∧ Alike R e.2 f.2

theorem map_eq_of_forall₂ {α β : Type} {f : α → β} {as bs : List α}
    (each : List.Forall₂ (fun a b => f a = f b) as bs) : as.map f = bs.map f := by
  induction each with
  | nil => rfl
  | cons first _ ih => rw [List.map_cons, List.map_cons, first, ih]

theorem values_eq_map (vs : List Value) : values vs = vs.map value := by
  induction vs with
  | nil => rfl
  | cons v vs ih => rw [values, ih, List.map_cons]

theorem entries_eq_map (es : List (String × Value)) :
    entries es = es.map fun e => (e.1, value e.2) := by
  induction es with
  | nil => rfl
  | cons e es ih => rw [entries, ih, List.map_cons]

theorem forall₂_fst_of_map {es fs : List (String × Value)}
    (keys : es.map Prod.fst = fs.map Prod.fst) : List.Forall₂ (fun e f => e.1 = f.1) es fs := by
  rwa [← List.forall₂_eq_eq_eq, List.forall₂_map_left_iff, List.forall₂_map_right_iff] at keys

section Equal

variable (equal : ∀ s t, R s t → text s = text t)
include equal

/-- Where redaction makes related texts equal, it makes alike values equal. -/
theorem value_eq_of_alike (alike : Alike R v w) : value v = value w := by
  induction alike with
  | same v => rfl
  | text related => rw [value, value, equal _ _ related]
  | list length items ih =>
    have each := List.forall₂_iff_zip.mpr ⟨length, fun mem => ih _ _ mem⟩
    rw [value, value, values_eq_map, values_eq_map, map_eq_of_forall₂ each]
  | @object es fs keys items ih =>
    have names := forall₂_fst_of_map keys
    have each : List.Forall₂ (fun e f => (e.1, value e.2) = (f.1, value f.2)) es fs := by
      refine List.forall₂_iff_zip.mpr ⟨names.length_eq, fun {e f} mem => ?_⟩
      have name : e.1 = f.1 := List.forall₂_zip names mem
      rw [name, ih e f mem]
    rw [value, value, entries_eq_map, entries_eq_map, map_eq_of_forall₂ each]

/-- Alike fields are redacted to the same fields. -/
theorem entries_eq_of_alike {es fs : List (String × Value)}
    (alike : List.Forall₂ (FieldAlike R) es fs) : entries es = entries fs := by
  rw [entries_eq_map, entries_eq_map]
  exact map_eq_of_forall₂
    (alike.imp fun e f same => Prod.ext same.1 (value_eq_of_alike equal same.2))

end Equal

/-! ## Lines of a log -/

theorem Alike.isNull_eq (alike : Alike R v w) : v.isNull = w.isNull := by
  cases alike <;> rfl

section Fields

variable {es fs : List (String × Value)}

theorem put_alike (alike : List.Forall₂ (FieldAlike R) es fs) (key : String) (same : Alike R v w) :
    List.Forall₂ (FieldAlike R) (Value.put es key v) (Value.put fs key w) := by
  induction alike with
  | nil => exact .cons ⟨rfl, same⟩ .nil
  | @cons e f es fs first rest ih =>
    obtain ⟨k, v'⟩ := e
    obtain ⟨_, w'⟩ := f
    obtain ⟨rfl, alike⟩ := first
    simp only [Value.put]
    split
    · exact .cons ⟨rfl, same⟩ rest
    · exact .cons ⟨rfl, alike⟩ ih

theorem ofEntries_alike (alike : List.Forall₂ (FieldAlike R) es fs) :
    List.Forall₂ (FieldAlike R) (Value.ofEntries es) (Value.ofEntries fs) := by
  refine List.rel_foldl (P := List.Forall₂ (FieldAlike R)) ?_ .nil alike
  rintro done done' alike ⟨key, v⟩ ⟨_, w⟩ ⟨rfl, same⟩
  exact put_alike alike key same

theorem lookup_alike (alike : List.Forall₂ (FieldAlike R) es fs) (key : String) :
    Option.Rel (Alike R) (es.lookup key) (fs.lookup key) := by
  induction alike with
  | nil => exact .none
  | @cons e f es fs first rest ih =>
    obtain ⟨k, v⟩ := e
    obtain ⟨_, w⟩ := f
    obtain ⟨rfl, alike⟩ := first
    simp only [List.lookup_cons]
    cases key == k with
    | true => exact .some alike
    | false => exact ih

end Fields

end CodeAtlas.Redaction

namespace CodeAtlas.Log

open Redaction

variable {R : String → String → Prop}

/-- Calls of the same level whose events and fields are alike. -/
structure Call.Alike (R : String → String → Prop) (a b : Call) : Prop where
  level : a.level = b.level
  event : Redaction.Alike R a.event b.event
  fields : List.Forall₂ (FieldAlike R) a.fields b.fields

/-- Alike calls are refused for the same reason. -/
theorem Call.Alike.fault?_eq {a b : Call} (alike : a.Alike R b) : a.fault? = b.fault? := by
  have names : a.fields.map (·.1) = b.fields.map (·.1) :=
    map_eq_of_forall₂ (alike.fields.imp fun _ _ same => same.1)
  have records := lookup_alike alike.fields "_record"
  rw [Call.fault?, Call.fault?, names, alike.level]
  generalize a.fields.lookup "_record" = v at records
  generalize b.fields.lookup "_record" = w at records
  cases records with
  | none => rfl
  | some same => cases same <;> rfl

section Equal

variable (equal : ∀ s t, R s t → text s = text t)
include equal

/-- Alike events are written as the same line. -/
theorem line_eq_of_alike (logger : String) (level : LogLevel) {event event' : Value}
    {fields fields' : List (String × Value)} (same : Redaction.Alike R event event')
    (alike : List.Forall₂ (FieldAlike R) fields fields') :
    line logger level event fields = line logger level event' fields' := by
  -- The entries of a line are the fields, the event, and what does not hang on either.
  have given : List.Forall₂ (FieldAlike R)
      (fields.filter fun field => !renderingFields.contains field.1)
      (fields'.filter fun field => !renderingFields.contains field.1) := by
    refine List.rel_filter (fun e f same => ?_) alike
    simp only [same.1]
  have happened : List.Forall₂ (FieldAlike R) (if event.isNull then [] else [("event", event)])
      (if event'.isNull then [] else [("event", event')]) := by
    rw [same.isNull_eq]
    split
    · exact .nil
    · exact .cons ⟨rfl, same⟩ .nil
  have own : List.Forall₂ (FieldAlike R) [("level", .text level.word), ("logger", .text logger)]
      [("level", .text level.word), ("logger", .text logger)] :=
    .cons ⟨rfl, .same _⟩ (.cons ⟨rfl, .same _⟩ .nil)
  exact entries_eq_of_alike equal
    (ofEntries_alike (List.rel_append given (List.rel_append happened own)))

theorem line?_eq_of_alike (least : Nat) (logger : String) {a b : Call} (alike : a.Alike R b) :
    a.line? least logger = b.line? least logger := by
  simp only [Call.line?, alike.fault?_eq, alike.level,
    line_eq_of_alike equal logger _ alike.event alike.fields]

/-- Alike calls leave the same lines, or are refused for the same reason. -/
theorem lines_eq_of_alike (threshold logger : String) {as bs : List Call}
    (alike : List.Forall₂ (Call.Alike R) as bs) :
    lines threshold logger as = lines threshold logger bs := by
  have each (least : Nat) (logger : String) :
      as.mapM (Call.line? least logger) = bs.mapM (Call.line? least logger) := by
    induction alike with
    | nil => rfl
    | cons first _ ih =>
      rw [List.mapM_cons, List.mapM_cons, line?_eq_of_alike equal least logger first, ih]
  simp only [lines, each]

end Equal

end CodeAtlas.Log
