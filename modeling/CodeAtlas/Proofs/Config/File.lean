import CodeAtlas.Config.File
import CodeAtlas.Proofs.Config.Standard
import CodeAtlas.Proofs.Text.Utf8

/-!
# What comes of a configuration file

A file holds a document when its bytes are UTF-8 and the text is YAML. Three things may come of the
file: a configuration, a failure of the configuration, and a failure that loading does not foresee.

## Main result

`EngineConfig.load_outcome` says of all bytes which of the three comes of them, and which
configuration. `EngineConfig.load_unforeseen` shows bytes that end in the third way, and a document
that is no mapping and is taken for an empty one.
-/

namespace CodeAtlas

/-- The value says nothing, although it is neither null nor a mapping: a falsehood, a zero, or an
empty text or list. -/
def Value.Hollow (v : Value) : Prop :=
  v.saysNothing = true ∧ v ≠ .null ∧ ∀ entries, v ≠ .object entries

/-- The same, to be computed. -/
def Value.isHollow : Value → Bool
  | .null | .object _ => false
  | v => v.saysNothing

theorem Value.hollow_of_isHollow {v : Value} (hollow : v.isHollow = true) : v.Hollow := by
  cases v with
  | null | object entries => cases hollow
  | _ => exact ⟨hollow, nofun, nofun⟩

namespace EngineConfig

variable {t : Tree} {path : FilePath} {bytes : List UInt8} {modified : Timestamp} {text : List Char}
  {c : EngineConfig} {v : Value} {fault : ConfigFault}

/-- The bytes are the text of a document with this value. -/
def HoldsDocument (bytes : List UInt8) (v : Value) : Prop :=
  ∃ text, bytes = Text.utf8 text ∧ Yaml.read (String.ofList text) = .ok v

/-- The document asks for this configuration. -/
inductive Asks : Value → EngineConfig → Prop
  | nothing : Asks .null standard
  | mapping {entries : List (String × Value)} {c : EngineConfig}
      (read : decodeEither (.object entries) = .ok c) : Asks (.object entries) c

/-- The bytes make this configuration. -/
inductive Configures (bytes : List UInt8) : EngineConfig → Prop
  | asked {v : Value} {c : EngineConfig} (holds : HoldsDocument bytes v) (asks : Asks v c) :
      Configures bytes c
  /-- A hollow document is taken for an empty one. -/
  | hollow {v : Value} (holds : HoldsDocument bytes v) (hollow : v.Hollow) :
      Configures bytes standard

/-- The bytes are a text, but make no configuration. -/
inductive Misconfigures (bytes : List UInt8) : Prop
  | noDocument {text : List Char} (written : bytes = Text.utf8 text)
      (read : Yaml.read (String.ofList text) = .error .unfit)
  | notAsked {v : Value} (holds : HoldsDocument bytes v) (filled : ¬v.Hollow)
      (asks : ∀ c, ¬Asks v c)

/-- The bytes are no text, or that of a document with a part that has no value. -/
inductive Confounds (bytes : List UInt8) : Prop
  | noText (unwritten : ∀ text, bytes ≠ Text.utf8 text)
  | noValue {text : List Char} {fault : Yaml.Fault} (written : bytes = Text.utf8 text)
      (read : Yaml.read (String.ofList text) = .error fault) (other : fault ≠ .unfit)

/-- The fault is one of the configuration, and names the file. -/
def Foreseen (path : FilePath) (fault : ConfigFault) : Prop :=
  ∃ message, fault.failure = ⟨.configuration, message, [("path", .text path.text)]⟩

/-! ## Documents -/

theorem valid_standard : standard.Valid :=
  valid decode_nothing

/-- A document that says nothing is taken for an empty mapping. -/
theorem ofDocument_of_saysNothing (nothing : v.saysNothing = true) :
    ofDocument path v = .ok standard := by
  rw [ofDocument, if_pos nothing]
  rfl

theorem ofDocument_object (entries : List (String × Value)) :
    ofDocument path (.object entries) =
      match decodeEither (.object entries) with
      | .ok config => .ok config
      | .bad issues => .error (.invalid path issues) := by
  cases entries with
  | nil => rfl
  | cons e entries => rfl

theorem ofDocument_of_asks (asks : Asks v c) : ofDocument path v = .ok c := by
  cases asks with
  | nothing => rfl
  | mapping read => rw [ofDocument_object, read]

/-- A document that is not hollow and asks for no configuration is refused. -/
theorem ofDocument_of_not_asks (filled : ¬v.Hollow) (asks : ∀ c, ¬Asks v c) :
    ∃ fault, ofDocument path v = .error fault ∧ Foreseen path fault := by
  by_cases mapping : ∃ entries, v = .object entries
  · obtain ⟨entries, rfl⟩ := mapping
    cases read : decodeEither (.object entries) with
    | ok c => exact absurd (.mapping read) (asks c)
    | bad issues => exact ⟨.invalid path issues, by rw [ofDocument_object, read], _, rfl⟩
  · -- What is neither a mapping nor null nor hollow is told that it should be a mapping.
    rw [not_exists] at mapping
    have notNull : v ≠ .null := fun null => asks standard (null ▸ .nothing)
    have spoken : ¬v.saysNothing = true := fun nothing => filled ⟨nothing, notNull, mapping⟩
    refine ⟨.notMapping path, ?_, _, rfl⟩
    rw [ofDocument, if_neg spoken]
    cases v with
    | object entries => exact absurd rfl (mapping entries)
    | _ => rfl

/-! ## Files -/

/-- Of the three every file is one. -/
theorem configures_or (bytes : List UInt8) :
    (∃ c, Configures bytes c) ∨ Misconfigures bytes ∨ Confounds bytes := by
  by_cases written : ∃ text, bytes = Text.utf8 text
  · obtain ⟨text, written⟩ := written
    cases read : Yaml.read (String.ofList text) with
    | ok v =>
      have holds : HoldsDocument bytes v := ⟨text, written, read⟩
      by_cases hollow : v.Hollow
      · exact .inl ⟨standard, .hollow holds hollow⟩
      · by_cases asks : ∃ c, Asks v c
        · obtain ⟨c, asks⟩ := asks
          exact .inl ⟨c, .asked holds asks⟩
        · exact .inr (.inl (.notAsked holds hollow (not_exists.mp asks)))
    | error fault =>
      by_cases unfit : fault = .unfit
      · exact .inr (.inl (.noDocument written (unfit ▸ read)))
      · exact .inr (.inr (.noValue written read unfit))
  · exact .inr (.inr (.noText (not_exists.mp written)))

theorem Configures.valid (configures : Configures bytes c) : c.Valid := by
  cases configures with
  | asked holds asks =>
    cases asks with
    | nothing => exact valid_standard
    | mapping read => exact EngineConfig.valid read
  | hollow holds hollow => exact valid_standard

section Load

variable (read : t.read path = .ok (bytes, modified))

include read

theorem load_eq : load t path =
    match Text.ofUtf8 bytes with
    | .error fault => .error (.notText fault)
    | .ok text =>
      match Yaml.read (String.ofList text) with
      | .error .unfit => .error (.unreadable path)
      | .error fault => .error (.unforeseen fault)
      | .ok v => ofDocument path v := by
  have holds : t.holds path = true := by
    rw [Tree.holds]
    cases found : t.find path with
    | ok n => rfl
    | error fault =>
      rw [Tree.read, found] at read
      cases read
  rw [load, read]
  exact if_neg (by simp [holds])

theorem load_of_document (holds : HoldsDocument bytes v) : load t path = ofDocument path v := by
  obtain ⟨text, rfl, document⟩ := holds
  rw [load_eq read, Text.ofUtf8_utf8]
  simp only [document]

theorem load_of_configures (configures : Configures bytes c) : load t path = .ok c := by
  cases configures with
  | asked holds asks => rw [load_of_document read holds, ofDocument_of_asks asks]
  | hollow holds hollow => rw [load_of_document read holds, ofDocument_of_saysNothing hollow.1]

theorem load_of_misconfigures (misconfigures : Misconfigures bytes) :
    ∃ fault, load t path = .error fault ∧ Foreseen path fault := by
  cases misconfigures with
  | noDocument written document =>
    subst written
    refine ⟨.unreadable path, ?_, _, rfl⟩
    rw [load_eq read, Text.ofUtf8_utf8]
    simp only [document]
  | notAsked holds filled asks =>
    rw [load_of_document read holds]
    exact ofDocument_of_not_asks filled asks

theorem load_of_confounds (confounds : Confounds bytes) :
    ∃ fault, load t path = .error fault ∧ ¬Foreseen path fault := by
  cases confounds with
  | noText unwritten =>
    cases text : Text.ofUtf8 bytes with
    | ok text' => exact absurd (Text.ofUtf8_ok_iff.mp text) (unwritten text')
    | error fault =>
      refine ⟨.notText fault, by rw [load_eq read, text], ?_⟩
      rintro ⟨message, same⟩
      cases congrArg Failure.kind same
  | @noValue text fault written document other =>
    subst written
    refine ⟨.unforeseen fault, ?_, ?_⟩
    · rw [load_eq read, Text.ofUtf8_utf8]
      simp only [document]
    · rintro ⟨message, same⟩
      cases congrArg Failure.kind same

theorem load_loaded (loaded : load t path = .ok c) : Configures bytes c := by
  rcases configures_or bytes with ⟨c', configures⟩ | misconfigures | confounds
  · obtain rfl : c = c' := Except.ok.inj (loaded.symm.trans (load_of_configures read configures))
    exact configures
  · obtain ⟨fault, failed, -⟩ := load_of_misconfigures read misconfigures
    cases loaded.symm.trans failed
  · obtain ⟨fault, failed, -⟩ := load_of_confounds read confounds
    cases loaded.symm.trans failed

theorem load_failed (failed : load t path = .error fault) :
    Foreseen path fault ∧ Misconfigures bytes ∨ ¬Foreseen path fault ∧ Confounds bytes := by
  rcases configures_or bytes with ⟨c, configures⟩ | misconfigures | confounds
  · cases failed.symm.trans (load_of_configures read configures)
  · obtain ⟨fault', failed', foreseen⟩ := load_of_misconfigures read misconfigures
    obtain rfl : fault = fault' := Except.error.inj (failed.symm.trans failed')
    exact .inl ⟨foreseen, misconfigures⟩
  · obtain ⟨fault', failed', unforeseen⟩ := load_of_confounds read confounds
    obtain rfl : fault = fault' := Except.error.inj (failed.symm.trans failed')
    exact .inr ⟨unforeseen, confounds⟩

/-- What comes of the bytes of a file: the configuration that they make, a failure of the
configuration, or a failure that is not foreseen. A configuration keeps its bounds. -/
theorem load_outcome :
    (∀ c, load t path = .ok c ↔ Configures bytes c) ∧
    ((∃ fault, load t path = .error fault ∧ Foreseen path fault) ↔ Misconfigures bytes) ∧
    ((∃ fault, load t path = .error fault ∧ ¬Foreseen path fault) ↔ Confounds bytes) ∧
    ∀ c, load t path = .ok c → c.Valid := by
  refine ⟨fun c => ⟨load_loaded read, load_of_configures read⟩, ⟨?_, load_of_misconfigures read⟩,
    ⟨?_, load_of_confounds read⟩, fun c loaded => (load_loaded read loaded).valid⟩
  · rintro ⟨fault, failed, foreseen⟩
    rcases load_failed read failed with ⟨-, misconfigures⟩ | ⟨unforeseen, -⟩
    · exact misconfigures
    · exact absurd foreseen unforeseen
  · rintro ⟨fault, failed, unforeseen⟩
    rcases load_failed read failed with ⟨foreseen, -⟩ | ⟨-, confounds⟩
    · exact absurd foreseen unforeseen
    · exact confounds

end Load

theorem read_alone (bytes : List UInt8) :
    Tree.read ⟨.dir [("config.yaml", .file bytes (.ofMicros 0))]⟩ ⟨"/", ["config.yaml"]⟩ =
      .ok (bytes, .ofMicros 0) := by
  simp [Tree.read, Tree.find, Tree.place, Node.below?, Node.entries]

/-- The text is a document that sets one field of one section to a number and nothing else. -/
def setsOnly (text part field : String) (n : Int) : Bool :=
  match Yaml.read text with
  | .ok (.object [(part', .object [(field', .int m)])]) =>
    part' == part && field' == field && m == n
  | _ => false

theorem read_of_setsOnly {text part field : String} {n : Int}
    (sets : setsOnly text part field n = true) :
    Yaml.read text = .ok (.object [(part, .object [(field, .int n)])]) := by
  rw [setsOnly] at sets
  split at sets
  next document =>
    simp only [Bool.and_eq_true, beq_iff_eq] at sets
    obtain ⟨⟨rfl, rfl⟩, rfl⟩ := sets
    exact document
  next => cases sets

/-- A file that asks for two files at a time. -/
theorem load_outcome_concurrency :
    let bytes := Text.utf8 "indexing: {concurrency: 2}".toList
    let t : Tree := ⟨.dir [("config.yaml", .file bytes (.ofMicros 0))]⟩
    t.read ⟨"/", ["config.yaml"]⟩ = .ok (bytes, .ofMicros 0) ∧
      load t ⟨"/", ["config.yaml"]⟩ = .ok { standard with
        indexing := { concurrency := 2, fileTimeoutSeconds := 120.0 } } := by
  intro bytes t
  have read := read_alone bytes
  have sets : setsOnly "indexing: {concurrency: 2}" "indexing" "concurrency" 2 = true := by
    decide +kernel
  have holds : HoldsDocument bytes _ := ⟨_, rfl, read_of_setsOnly sets⟩
  exact ⟨read, ((load_outcome read).1 _).mpr (.asked holds (.mapping rfl))⟩

/-- A byte that starts no character ends in a failure that is not foreseen, and a list without items
is taken for an empty mapping. -/
theorem load_unforeseen :
    let holding (bytes : List UInt8) : Tree := ⟨.dir [("config.yaml", .file bytes (.ofMicros 0))]⟩
    (∃ fault, load (holding [0xff]) ⟨"/", ["config.yaml"]⟩ = .error fault ∧
      fault.failure.kind = .unforeseen "UnicodeDecodeError") ∧
    (∃ v, Yaml.read "[]" = .ok v ∧ v.Hollow) ∧
      load (holding (Text.utf8 "[]".toList)) ⟨"/", ["config.yaml"]⟩ = .ok standard := by
  intro holding
  have hollow : ∃ v, Yaml.read "[]" = .ok v ∧ v.Hollow := by
    have computed : (Yaml.read "[]").toOption.any Value.isHollow = true := by decide +kernel
    cases document : Yaml.read "[]" with
    | error fault =>
      rw [document] at computed
      cases computed
    | ok v =>
      rw [document] at computed
      exact ⟨v, rfl, Value.hollow_of_isHollow computed⟩
  obtain ⟨v, document, hollow'⟩ := hollow
  refine ⟨⟨_, load_eq (read_alone _), rfl⟩, ⟨v, document, hollow'⟩, ?_⟩
  exact load_of_configures (read_alone _) (.hollow ⟨_, rfl, document⟩ hollow')

end EngineConfig

end CodeAtlas
