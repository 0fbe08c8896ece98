import CodeAtlas.Naming
import CodeAtlas.Proofs.Config.File
import CodeAtlas.Proofs.Text.Line
import CodeAtlas.Proofs.Value.Json

/-!
# Configurations in either spelling

A name is made of words in small letters, joined by underscores. Capitalised and underscored again
it is itself, so that no two names are capitalised alike, and a value whose keys are names can be
got back from its capitalised copy.

## Main result

`EngineConfig.spellings_agree`: a document and its capitalised copy make one configuration.
-/

namespace CodeAtlas

namespace Naming

variable {c : Char} {word : List Char} {words : List (List Char)} {name : String}

/-! ## Letters -/

/-- What holds of the twenty-six small letters holds of every one. -/
theorem forall_isLower {P : Char → Prop} (table : ∀ n < 26, P (Char.ofNat (97 + n)))
    (small : c.isLower = true) : P c := by
  have within : 97 ≤ c.toNat ∧ c.toNat ≤ 122 := by
    simp only [Char.isLower, Bool.and_eq_true, decide_eq_true_eq] at small
    exact small
  have holds := table (c.toNat - 97) (by omega)
  rwa [Nat.add_sub_cancel' within.1, Char.ofNat_toNat] at holds

section Letters

variable (small : c.isLower = true)

include small

theorem ne_underscore : c ≠ '_' :=
  forall_isLower (P := fun c => c ≠ '_') (by decide) small

theorem isUpper_eq_false : Text.isUpper c = false :=
  forall_isLower (P := fun c => Text.isUpper c = false) (by decide) small

theorem isCased_eq_true : Text.isCased c = true :=
  forall_isLower (P := fun c => Text.isCased c = true) (by decide) small

theorem titleChar_eq : Text.titleChar c = [c.toUpper] :=
  forall_isLower (P := fun c => Text.titleChar c = [c.toUpper]) (by decide) small

/-- A small letter stays as it is, whatever stands around it. -/
theorem lowerBetween_eq (before after : List Char) : Text.lowerBetween before c after = [c] := by
  have noSigma : (c == '\u03a3') = false :=
    forall_isLower (P := fun c => (c == '\u03a3') = false) (by decide) small
  have noDotted : (c == '\u0130') = false :=
    forall_isLower (P := fun c => (c == '\u0130') = false) (by decide) small
  have same : Text.lowerChar c = c :=
    forall_isLower (P := fun c => Text.lowerChar c = c) (by decide) small
  simp only [Text.lowerBetween, noSigma, noDotted, same, Bool.false_eq_true, if_false]

theorem later_eq : toSnakeCase.later c = [c] := by
  rw [toSnakeCase.later, isUpper_eq_false small, if_neg Bool.false_ne_true]

/-- The capital of a small letter becomes an underscore and the letter. -/
theorem later_toUpper : toSnakeCase.later c.toUpper = ['_', c] :=
  forall_isLower (P := fun c => toSnakeCase.later c.toUpper = ['_', c]) (by decide) small

end Letters

/-! ## Words -/

/-- One small letter or more. -/
def IsWord (word : List Char) : Prop :=
  word ≠ [] ∧ ∀ c ∈ word, c.isLower = true

instance : DecidablePred IsWord := fun word =>
  decidable_of_iff (word ≠ [] ∧ word.all Char.isLower = true) (by rw [IsWord, List.all_eq_true])

/-- Words joined by underscores. -/
def IsName (name : String) : Prop :=
  ∃ words, words ≠ [] ∧ (∀ word ∈ words, IsWord word) ∧ name.toList = Text.joinWith ['_'] words

theorem flatMap_later_eq (small : ∀ c ∈ word, c.isLower = true) :
    word.flatMap toSnakeCase.later = word := by
  induction word with
  | nil => rfl
  | cons c word ih =>
    obtain ⟨here, later⟩ := List.forall_mem_cons.mp small
    rw [List.flatMap_cons, later_eq here, ih later, List.singleton_append]

theorem toTitle_go_eq (small : ∀ c ∈ word, c.isLower = true) {b : Char} {before : List Char}
    (cased : Text.isCased b = true) : Text.toTitle.go (b :: before) word = word := by
  induction word generalizing b before with
  | nil => rfl
  | cons c word ih =>
    obtain ⟨here, later⟩ := List.forall_mem_cons.mp small
    simp only [Text.toTitle.go, List.head?_cons, Option.map_some, Option.getD_some, cased, if_true,
      lowerBetween_eq here, ih later (isCased_eq_true here), List.singleton_append]

/-- The title case of a word has a capital at its start. -/
theorem toTitle_cons (small : ∀ d ∈ c :: word, d.isLower = true) :
    Text.toTitle (c :: word) = c.toUpper :: word := by
  obtain ⟨here, later⟩ := List.forall_mem_cons.mp small
  simp only [Text.toTitle, Text.toTitle.go, List.head?_nil, Option.map_none, Option.getD_none,
    Bool.false_eq_true, if_false, titleChar_eq here, toTitle_go_eq later (isCased_eq_true here),
    List.singleton_append]

theorem flatMap_later_toTitle (is : IsWord word) :
    (Text.toTitle word).flatMap toSnakeCase.later = '_' :: word := by
  obtain ⟨filled, small⟩ := is
  obtain ⟨c, word, rfl⟩ := List.exists_cons_of_ne_nil filled
  obtain ⟨here, later⟩ := List.forall_mem_cons.mp small
  rw [toTitle_cons small, List.flatMap_cons, later_toUpper here, flatMap_later_eq later]
  rfl

theorem flatMap_later_underscored (is : IsWord word) :
    ('_' :: word).flatMap toSnakeCase.later = '_' :: word := by
  have underscore : toSnakeCase.later '_' = ['_'] := by decide
  rw [List.flatMap_cons, underscore, flatMap_later_eq is.2]
  rfl

/-! ## Names -/

/-- Underscoring leaves the first letter and goes through the others one by one. -/
theorem toSnakeCase_ofList_cons (small : c.isLower = true) (rest : List Char) :
    toSnakeCase (String.ofList (c :: rest)) =
      String.ofList (c :: rest.flatMap toSnakeCase.later) := by
  rw [toSnakeCase, String.toList_ofList]
  simp only [lowerBetween_eq small, List.flatMap_def, List.singleton_append]

/-- Both spellings of a name are underscored to the name. -/
theorem toSnakeCase_spellings (is : IsName name) :
    toSnakeCase (toCamelCase name) = name ∧ toSnakeCase name = name := by
  obtain ⟨words, filled, each, written⟩ := is
  obtain ⟨first, words, rfl⟩ := List.exists_cons_of_ne_nil filled
  obtain ⟨⟨first_filled, small⟩, each'⟩ := List.forall_mem_cons.mp each
  obtain ⟨c, first, rfl⟩ := List.exists_cons_of_ne_nil first_filled
  obtain ⟨here, later⟩ := List.forall_mem_cons.mp small
  have whole : ∀ word ∈ (c :: first) :: words, '_' ∉ word :=
    fun word mem underscore => ne_underscore ((each word mem).2 '_' underscore) rfl
  have name_eq : name = String.ofList (c :: (first ++ words.flatMap ('_' :: ·))) := by
    rw [← List.cons_append, ← Text.joinWith_cons_eq_flatMap, ← written, String.ofList_toList]
  -- Capitals take the place of the underscores, which is all that the spellings differ in.
  have camel_eq : toCamelCase name =
      String.ofList (c :: (first ++ words.flatMap Text.toTitle)) := by
    rw [toCamelCase, written, Text.splitOn_joinWith whole filled]
    simp only [List.flatMap_def, List.cons_append]
  constructor
  · rw [camel_eq, toSnakeCase_ofList_cons here, List.flatMap_append, flatMap_later_eq later,
      List.flatMap_assoc, List.flatMap_congr fun word mem => flatMap_later_toTitle (each' word mem),
      name_eq]
  · rw [name_eq, toSnakeCase_ofList_cons here, List.flatMap_append, flatMap_later_eq later,
      List.flatMap_assoc,
      List.flatMap_congr fun word mem => flatMap_later_underscored (each' word mem)]

end Naming

namespace Value

/-- The keys of every mapping in the value are names, each of them once. -/
inductive Keyed : Value → Prop
  | null : Keyed .null
  | bool (b : Bool) : Keyed (.bool b)
  | int (n : Int) : Keyed (.int n)
  | real (x : Float) : Keyed (.real x)
  | text (s : String) : Keyed (.text s)
  | time (written : String) : Keyed (.time written)
  | bytes (data : List UInt8) : Keyed (.bytes data)
  | list {items : List Value} (each : ∀ v ∈ items, Keyed v) : Keyed (.list items)
  | object {entries : List (String × Value)} (named : ∀ e ∈ entries, Naming.IsName e.1)
      (different : (entries.map Prod.fst).Nodup) (each : ∀ e ∈ entries, Keyed e.2) :
      Keyed (.object entries)

mutual

/-- The value with all keys capitalised; of keys that become equal the last one wins. -/
def capitalised : Value → Value
  | .object entries => .object (ofEntries (capitalisedEntries entries))
  | .list items => .list (capitalisedItems items)
  | v => v

/-- Items with all keys capitalised. -/
def capitalisedItems : List Value → List Value
  | [] => []
  | v :: rest => capitalised v :: capitalisedItems rest

/-- Entries with all keys capitalised. -/
def capitalisedEntries : List (String × Value) → List (String × Value)
  | [] => []
  | (key, v) :: rest => (Naming.toCamelCase key, capitalised v) :: capitalisedEntries rest

end

theorem capitalisedItems_eq (items : List Value) :
    capitalisedItems items = items.map capitalised := by
  induction items with
  | nil => rfl
  | cons v items ih => rw [capitalisedItems, ih, List.map_cons]

theorem capitalisedEntries_eq (entries : List (String × Value)) :
    capitalisedEntries entries =
      entries.map fun e => (Naming.toCamelCase e.1, capitalised e.2) := by
  induction entries with
  | nil => rfl
  | cons e entries ih => rw [capitalisedEntries, ih, List.map_cons]

/-- Names that differ are capitalised to keys that differ, so no entry is lost. -/
theorem capitalised_object {entries : List (String × Value)}
    (named : ∀ e ∈ entries, Naming.IsName e.1) (different : (entries.map Prod.fst).Nodup) :
    capitalised (.object entries) =
      .object (entries.map fun e => (Naming.toCamelCase e.1, capitalised e.2)) := by
  rw [capitalised, capitalisedEntries_eq, Json.ofEntries_eq]
  rw [List.map_map, show Prod.fst ∘ _ = Naming.toCamelCase ∘ Prod.fst from rfl, ← List.map_map]
  refine different.map_on fun key mem key' mem' same => ?_
  obtain ⟨e, entry, rfl⟩ := List.mem_map.mp mem
  obtain ⟨e', entry', rfl⟩ := List.mem_map.mp mem'
  -- Keys that are capitalised alike are underscored alike, and that gives the names back.
  rw [← (Naming.toSnakeCase_spellings (named e entry)).1, same,
    (Naming.toSnakeCase_spellings (named e' entry')).1]

end Value

namespace EngineConfig

variable {v : Value}

theorem underscoredItems_eq (items : List Value) :
    underscoredItems items = items.map underscored := by
  induction items with
  | nil => rfl
  | cons v items ih => rw [underscoredItems, ih, List.map_cons]

theorem underscoredEntries_eq (entries : List (String × Value)) :
    underscoredEntries entries =
      entries.map fun e => (Naming.toSnakeCase e.1, underscored e.2) := by
  induction entries with
  | nil => rfl
  | cons e entries ih => rw [underscoredEntries, ih, List.map_cons]

/-- A value whose keys are names is got back from its capitalised copy, and stays as it is. The
induction is on the value; a mapping keeps its keys apart. -/
theorem underscored_spellings (keyed : v.Keyed) :
    underscored v.capitalised = v ∧ underscored v = v := by
  induction keyed with
  | @list items each ih =>
    simp only [Value.capitalised, Value.capitalisedItems_eq, underscored, underscoredItems_eq,
      List.map_map, Value.list.injEq]
    exact ⟨(List.map_congr_left fun v mem => (ih v mem).1).trans items.map_id,
      (List.map_congr_left fun v mem => (ih v mem).2).trans items.map_id⟩
  | @object entries named different each ih =>
    have back (e : String × Value) (mem : e ∈ entries) :
        (Naming.toSnakeCase (Naming.toCamelCase e.1), underscored e.2.capitalised) = e := by
      rw [(Naming.toSnakeCase_spellings (named e mem)).1, (ih e mem).1]
    have still (e : String × Value) (mem : e ∈ entries) :
        (Naming.toSnakeCase e.1, underscored e.2) = e := by
      rw [(Naming.toSnakeCase_spellings (named e mem)).2, (ih e mem).2]
    rw [Value.capitalised_object named different]
    simp only [underscored, underscoredEntries_eq, List.map_map, Function.comp_def]
    constructor
    · rw [(List.map_congr_left back).trans entries.map_id, Json.ofEntries_eq different]
    · rw [(List.map_congr_left still).trans entries.map_id, Json.ofEntries_eq different]
  | _ => exact ⟨rfl, rfl⟩

theorem decodeEither_capitalised (keyed : v.Keyed) :
    decodeEither v.capitalised = decodeEither v := by
  rw [decodeEither, decodeEither, (underscored_spellings keyed).1, (underscored_spellings keyed).2]

theorem ofDocument_capitalised (path : FilePath) (keyed : v.Keyed) :
    ofDocument path v.capitalised = ofDocument path v := by
  cases v with
  | object entries =>
    have decoded := decodeEither_capitalised keyed
    rw [Value.capitalised] at decoded ⊢
    rw [ofDocument_object, ofDocument_object, decoded]
  -- What is no mapping is refused or says nothing, whatever its keys further inside.
  | list items => cases items <;> rfl
  | _ => rfl

/-- The two spellings agree. A name is got back from its capitalised form and underscored stays as
it is; so is every value whose keys are names; and whatever comes of a file with such a value, the
configuration or the failure, comes of a file with the capitalised copy as well. -/
theorem spellings_agree :
    (∀ name, Naming.IsName name →
      Naming.toSnakeCase (Naming.toCamelCase name) = name ∧ Naming.toSnakeCase name = name) ∧
    (∀ v : Value, v.Keyed → underscored v.capitalised = v ∧ underscored v = v) ∧
    ∀ v : Value, v.Keyed → ∀ (t t' : Tree) (path : FilePath) (bytes bytes' : List UInt8)
      (modified modified' : Timestamp),
      t.read path = .ok (bytes, modified) → HoldsDocument bytes v →
      t'.read path = .ok (bytes', modified') → HoldsDocument bytes' v.capitalised →
      load t' path = load t path := by
  refine ⟨fun name is => Naming.toSnakeCase_spellings is, fun v keyed => underscored_spellings keyed,
    fun v keyed t t' path bytes bytes' modified modified' read holds read' holds' => ?_⟩
  rw [load_of_document read' holds', load_of_document read holds, ofDocument_capitalised path keyed]

/-- Two files that ask for chunks of ten characters, one in each spelling. -/
theorem spellings_agree_chunks :
    let v : Value := .object [("analyzer", .object [("max_chunk_chars", .int 10)])]
    let holding (document : String) : Tree :=
      ⟨.dir [("config.yaml", .file (Text.utf8 document.toList) (.ofMicros 0))]⟩
    Naming.toSnakeCase (Naming.toCamelCase "max_chunk_chars") = "max_chunk_chars" ∧
      v.capitalised = .object [("analyzer", .object [("maxChunkChars", .int 10)])] ∧
      underscored v.capitalised = v ∧
      load (holding "analyzer: {maxChunkChars: 10}") ⟨"/", ["config.yaml"]⟩ =
        load (holding "analyzer: {max_chunk_chars: 10}") ⟨"/", ["config.yaml"]⟩ := by
  intro v holding
  have section_name : Naming.IsName "analyzer" := ⟨["analyzer".toList], by decide, by decide, rfl⟩
  have field_name : Naming.IsName "max_chunk_chars" :=
    ⟨["max".toList, "chunk".toList, "chars".toList], by decide, by decide, rfl⟩
  have inner : Value.Keyed (.object [("max_chunk_chars", .int 10)]) :=
    .object (by simpa using field_name) (by decide) (by simpa using Value.Keyed.int 10)
  have keyed : v.Keyed := .object (by simpa using section_name) (by decide) (by simpa using inner)
  have copy : v.capitalised = .object [("analyzer", .object [("maxChunkChars", .int 10)])] := by rfl
  have underscores : Yaml.read "analyzer: {max_chunk_chars: 10}" = .ok v :=
    read_of_setsOnly (by decide +kernel)
  have capitals : Yaml.read "analyzer: {maxChunkChars: 10}" = .ok v.capitalised :=
    copy ▸ read_of_setsOnly (by decide +kernel)
  obtain ⟨names, values, files⟩ := spellings_agree
  exact ⟨(names "max_chunk_chars" field_name).1, copy, (values v keyed).1,
    files v keyed _ _ _ _ _ _ _ (read_alone _) ⟨_, rfl, underscores⟩ (read_alone _)
      ⟨_, rfl, capitals⟩⟩

end EngineConfig

end CodeAtlas
