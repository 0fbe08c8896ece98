import CodeAtlas.Naming
import CodeAtlas.Value.Moment
import CodeAtlas.Value.Numeral

/-!
Reading records from values. Reading is lenient about numbers written as texts and truth values
written as words, and it gathers every issue of a record, in the order of its fields, instead of
stopping at the first.
-/

namespace CodeAtlas

namespace Decode

open Checked

/-- A text. -/
def text : Value → Checked String
  | .text s => ok s
  | .bytes _ => fail .notUnicode
  | _ => fail .notText

/-- Null or something that `decode` reads. -/
def optional (decode : Value → Checked α) : Value → Checked (Option α)
  | .null => ok none
  | v => (decode v).map some

/-- A list of what `decode` reads. -/
def list (decode : Value → Checked α) : Value → Checked (List α)
  | .list values => items decode values
  | _ => fail .notList

/-- A mapping from texts to what `decode` reads. -/
def mapping (decode : Value → Checked α) : Value → Checked (List (String × α))
  | .object entries =>
    entries.foldr (fun (key, v) rest =>
      (fun a more => (key, a) :: more) <$> (decode v).under (.field key) <*> rest) (ok [])
  | _ => fail .notMapping

/-- A member of an enumeration by its word. -/
def member (members : List α) (word : α → String) : Value → Checked α
  | .text s =>
    match members.find? fun m => word m == s with
    | some m => ok m
    | none => fail .notAMember
  | _ => fail .notAMember

/-- A bound on a number that was read. -/
def satisfying (holds : α → Bool) (fault : Fault) (x : Checked α) : Checked α :=
  x.andThen fun a => if holds a then ok a else fail fault

/-- A natural number of at least `least`. -/
def natFrom (least : Nat) (v : Value) : Checked Nat :=
  (satisfying (fun n => decide ((least : Int) ≤ n)) .tooSmall (int v)).map Int.toNat

/-- A real number that is not below `least`. -/
def realFrom (least : Float) (v : Value) : Checked Float :=
  satisfying (fun x => least ≤ x) .tooSmall (real v)

/-- A real number above `bound`. -/
def realAbove (bound : Float) (v : Value) : Checked Float :=
  satisfying (fun x => bound < x) .notAbove (real v)

/-- A real number from `least` to `most`; the upper bound is looked at first. -/
def realBetween (least most : Float) (v : Value) : Checked Float :=
  satisfying (fun x => least ≤ x) .tooSmall
    (satisfying (fun x => x ≤ most) .tooLarge (real v))

/-- A real number strictly between two bounds; the upper bound is looked at first. -/
def realWithin (low high : Float) (v : Value) : Checked Float :=
  satisfying (fun x => low < x) .notAbove
    (satisfying (fun x => x < high) .notBelow (real v))

/-- How the fields of a record are named in a value. -/
inductive Keys where
  /-- Capitalised, or else underscored. -/
  | exchanged
  /-- Underscored. -/
  | plain
  deriving DecidableEq

/-- The entries of a record that is being read. -/
structure Fields where
  keys : Keys
  entries : List (String × Value)

/-- The name under which a field is looked for first. -/
def Fields.keyOf (f : Fields) (name : String) : String :=
  match f.keys with
  | .exchanged => Naming.toCamelCase name
  | .plain => name

/-- The value of a field, with the key under which it stands. -/
def Fields.find? (f : Fields) (name : String) : Option (String × Value) :=
  ([f.keyOf name, name].findSome? fun key => (f.entries.lookup key).map fun v => (key, v))

/-- A field that has to be there. -/
def Fields.required (f : Fields) (name : String) (decode : Value → Checked α) : Checked α :=
  match f.find? name with
  | some (key, v) => under (.field key) (decode v)
  | none => under (.field (f.keyOf name)) (fail .missing)

/-- A field with a value of its own when it is not there. -/
def Fields.withDefault (f : Fields) (name : String) (default : α) (decode : Value → Checked α) :
    Checked α :=
  match f.find? name with
  | some (key, v) => under (.field key) (decode v)
  | none => ok default

/-- A record. -/
def record (keys : Keys) (decode : Fields → Checked α) : Value → Checked α
  | .object entries => decode ⟨keys, entries⟩
  | _ => fail .notARecord

end Decode

end CodeAtlas
