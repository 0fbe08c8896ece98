import CodeAtlas.Context.Memory
import CodeAtlas.Proofs.Cache
import CodeAtlas.Proofs.Index.Owner

/-!
# What is kept between questions

What is kept is coherent with a source when everything kept is what the source answers. A coherent
memory cannot be told from an empty one by the current file, the linked files and the dependencies
that it gives. Keys start with the owner and a NUL character, so owners are taken without one.

The sections of a context ask a source about one owner alone. Two sources that give the owner the
same answers lead to the same sections, whatever is kept on either side, as long as it is coherent.

## Main results

`Coherent.forget`: when the answers to one owner change and what is kept of that owner is forgotten,
the rest is coherent with the new answers. `currentFile_fresh`, `relatedFiles_fresh` and
`dependencies_fresh`: what is kept makes no difference.
`ContextSource.Agree` and, under it, `currentFile_agree`, `relatedFiles_agree` and
`dependencies_agree`.
-/

namespace CodeAtlas

/-- A text without the character that ends an owner in a key. -/
def Plain (owner : String) : Prop :=
  '\x00' ∉ owner.toList

instance (owner : String) : Decidable (Plain owner) :=
  inferInstanceAs (Decidable ('\x00' ∉ owner.toList))

/-- A character that is not before it splits a text in only one way. -/
private theorem split_unique {α : Type} {c : α} : ∀ {a a' b b' : List α}, c ∉ a → c ∉ a' →
    a ++ c :: b = a' ++ c :: b' → a = a' ∧ b = b'
  | [], [], _, _, _, _, same => ⟨rfl, (List.cons.inj same).2⟩
  | [], x :: _, _, _, _, apart, same => absurd (List.cons.inj same).1 fun h => apart (h ▸ .head _)
  | x :: _, [], _, _, apart, _, same =>
    absurd (List.cons.inj same).1 fun h => apart (h ▸ .head _)
  | x :: a, x' :: a', _, _, apart, apart', same => by
    obtain ⟨first, rest⟩ := List.cons.inj same
    obtain ⟨starts, ends⟩ := split_unique (fun m => apart (.tail _ m)) (fun m => apart' (.tail _ m))
      rest
    exact ⟨by rw [first, starts], ends⟩

/-- A key of an owner and a path tells both. -/
private theorem ownerKey_inj {owner owner' path path' : String} (plain : Plain owner)
    (plain' : Plain owner') (same : owner ++ "\x00" ++ path = owner' ++ "\x00" ++ path') :
    owner = owner' ∧ path = path' := by
  have chars := congrArg String.toList same
  simp only [String.toList_append, List.append_assoc] at chars
  obtain ⟨owners, paths⟩ := split_unique plain plain' chars
  exact ⟨String.toList_inj.mp owners, String.toList_inj.mp paths⟩

namespace Attempt

variable {α β : Type}

/-- What comes of one undertaking after another. -/
theorem result_bind (a : Attempt α) (next : α → Attempt β) :
    (a >>= next).result = a.result.bind fun value => (next value).result := by
  obtain ⟨result, waits⟩ := a
  cases result <;> rfl

/-- What is found depends on the result alone. -/
theorem found_congr {a b : Attempt α} (same : a.result = b.result) (default : α) :
    a.found default = b.found default := by
  simp only [found, same]

end Attempt

namespace ContextMemory

variable {τ : Type}

theorem fileKey_inj {owner owner' path path' : String} (plain : Plain owner)
    (plain' : Plain owner') (same : fileKey owner path = fileKey owner' path') :
    owner = owner' ∧ path = path' :=
  ownerKey_inj plain plain' same

theorem linkKey_inj {owner owner' path path' : String} (plain : Plain owner)
    (plain' : Plain owner') (same : Links.key owner path = Links.key owner' path') :
    owner = owner' ∧ path = path' := by
  refine ownerKey_inj plain plain' (String.toList_inj.mp ?_)
  have chars := congrArg String.toList same
  simp only [Links.key, Links.ownerKey, String.toList_append, List.append_assoc] at chars
  simpa only [String.toList_append, List.append_assoc] using List.append_cancel_left chars

/-- Everything kept is what a source answers. -/
structure Coherent (truth : LinkSource) (previewChars : Int) (limit : Nat)
    (m : ContextMemory τ) : Prop where
  bounded : m.links.candidateLimit = limit
  files : ∀ e ∈ m.files.entries, ∃ owner path record rest, Plain owner ∧
    e.key = fileKey owner path ∧ truth.recordsAt owner path = .ok (record :: rest) ∧
    e.value = CurrentFile.ofRecord previewChars record
  links : ∀ e ∈ m.links.cache.entries, ∃ owner path record rest, Plain owner ∧
    e.key = Links.key owner path ∧ truth.recordsAt owner path = .ok (record :: rest) ∧
    Links.resolve truth limit owner record = .ok e.value

/-- Nothing kept is coherent with everything. -/
theorem coherent_empty (truth : LinkSource) (duration : Float → τ) (c : RetrievalConfig) :
    Coherent truth c.contentPreviewChars c.maxCandidatesPerSymbol (.empty duration c) where
  bounded := rfl
  files _ member := absurd member List.not_mem_nil
  links _ member := absurd member List.not_mem_nil

variable {truth truth' : LinkSource} {previewChars : Int} {limit : Nat} {m : ContextMemory τ}

/-- Answers that stay the same keep what is kept coherent. -/
theorem Coherent.follow (coherent : Coherent truth previewChars limit m)
    (follows : ∀ owner, truth.Follows owner truth') : Coherent truth' previewChars limit m where
  bounded := coherent.bounded
  files e member := by
    obtain ⟨owner, path, record, rest, plain, key, found, value⟩ := coherent.files e member
    exact ⟨owner, path, record, rest, plain, key, (follows owner).records found, value⟩
  links e member := by
    obtain ⟨owner, path, record, rest, plain, key, found, value⟩ := coherent.links e member
    exact ⟨owner, path, record, rest, plain, key, (follows owner).records found,
      (follows owner).resolve value⟩

/-- When what is kept of an owner is forgotten, only the answers to others have to stay the same. -/
theorem Coherent.forget (coherent : Coherent truth previewChars limit m) {gone : String}
    (follows : ∀ owner, owner ≠ gone → truth.Follows owner truth') :
    Coherent truth' previewChars limit ((m.forgetViews gone).forgetLinks gone) where
  bounded := coherent.bounded
  files e member := by
    obtain ⟨old, apart⟩ := Cache.mem_eraseUnder member
    obtain ⟨owner, path, record, rest, plain, key, found, value⟩ := coherent.files e old
    -- An entry that is left has a key of another owner.
    have other : owner ≠ gone := fun same => apart path (same ▸ key)
    exact ⟨owner, path, record, rest, plain, key, (follows owner other).records found, value⟩
  links e member := by
    obtain ⟨old, apart⟩ := Cache.mem_eraseUnder member
    obtain ⟨owner, path, record, rest, plain, key, found, value⟩ := coherent.links e old
    have other : owner ≠ gone := fun same => apart path (same ▸ key)
    exact ⟨owner, path, record, rest, plain, key, (follows owner other).records found,
      (follows owner other).resolve value⟩

section Questions

variable [Add τ] [LE τ] [DecidableLE τ] {source : ContextSource} {owner : String}

/-- Asking for the current file keeps what is kept coherent. -/
theorem Coherent.currentFile (coherent : Coherent truth previewChars limit m)
    (follows : source.links.Follows owner truth) (plain : Plain owner) (now : τ) (path : String) :
    Coherent truth previewChars limit
      (m.currentFile source now previewChars owner path).2 := by
  -- A read, and a question that fails, only leave entries that were there.
  have read (files : Cache τ CurrentFile)
      (kept : ∀ e ∈ files.entries, e ∈ m.files.entries) :
      Coherent truth previewChars limit { m with files } :=
    ⟨coherent.bounded, fun e member => coherent.files e (kept e member), coherent.links⟩
  simp only [ContextMemory.currentFile]
  split
  · exact coherent
  · split
    · exact read _ fun e => Cache.mem_get
    · split
      · exact read _ fun e => Cache.mem_get
      · exact read _ fun e => Cache.mem_get
      next record rest found =>
        refine ⟨coherent.bounded, fun e member => ?_, coherent.links⟩
        -- The new entry is what was just answered.
        rcases Cache.mem_set member with old | ⟨key, value⟩
        · exact coherent.files e (Cache.mem_get old)
        · exact ⟨owner, path, record, rest, plain, key, follows.records found, value⟩

/-- Asking for links keeps what is kept coherent. -/
theorem Coherent.linked (coherent : Coherent truth previewChars limit m)
    (follows : source.links.Follows owner truth) (plain : Plain owner) (now : τ) (path : String) :
    Coherent truth previewChars limit (m.linked source now owner path).2 := by
  have read (cache : Cache τ (List RelatedFile))
      (kept : ∀ e ∈ cache.entries, e ∈ m.links.cache.entries) :
      Coherent truth previewChars limit { m with links := { m.links with cache } } :=
    ⟨coherent.bounded, coherent.files, fun e member => coherent.links e (kept e member)⟩
  simp only [ContextMemory.linked, Links.relatedFiles]
  split
  · exact coherent
  · split
    · exact read _ fun e => Cache.mem_get
    · split
      · exact read _ fun e => Cache.mem_get
      · exact read _ fun e => Cache.mem_get
      next record rest found =>
        split
        · exact read _ fun e => Cache.mem_get
        next related resolved =>
          refine ⟨coherent.bounded, coherent.files, fun e member => ?_⟩
          rcases Cache.mem_set member with old | ⟨key, value⟩
          · exact coherent.links e (Cache.mem_get old)
          -- The links were resolved up to the limit that coherence is about.
          · rw [coherent.bounded] at resolved
            exact ⟨owner, path, record, rest, plain, key, follows.records found,
              value ▸ follows.resolve resolved⟩

/-- Asking for the first linked files keeps what is kept coherent. -/
theorem Coherent.relatedFiles (coherent : Coherent truth previewChars limit m)
    (follows : source.links.Follows owner truth) (plain : Plain owner) (now : τ) (count : Nat)
    (path : String) :
    Coherent truth previewChars limit (m.relatedFiles source now count owner path).2 := by
  simp only [ContextMemory.relatedFiles]
  split
  · exact coherent
  · exact coherent.linked follows plain now path

/-- Asking for dependencies keeps what is kept coherent. -/
theorem Coherent.dependencies (coherent : Coherent truth previewChars limit m)
    (follows : source.links.Follows owner truth) (plain : Plain owner) (now : τ)
    (functionCount : Nat) (path : String) :
    Coherent truth previewChars limit
      (m.dependencies source now functionCount owner path).2 := by
  simp only [ContextMemory.dependencies]
  split
  · exact coherent
  · split
    · exact coherent
    · exact coherent
    · exact coherent.linked follows plain now path

/-- Asking for the project touches neither files nor links. -/
theorem Coherent.project (coherent : Coherent truth previewChars limit m) (now : τ) :
    Coherent truth previewChars limit (m.project source now owner).2 := by
  simp only [ContextMemory.project]
  split
  · exact ⟨coherent.bounded, coherent.files, coherent.links⟩
  · split <;> exact ⟨coherent.bounded, coherent.files, coherent.links⟩

/-! ### What is kept makes no difference -/

/-- The current file as a source alone tells it. -/
def currentFileOf (truth : LinkSource) (previewChars : Int) (owner path : String) :
    Except Failure (Option CurrentFile) :=
  if path.isEmpty then .ok none
  else (truth.recordsAt owner path).map fun records =>
    records.head?.map (CurrentFile.ofRecord previewChars)

theorem currentFile_result (coherent : Coherent source.links previewChars limit m)
    (plain : Plain owner) (now : τ) (path : String) :
    (m.currentFile source now previewChars owner path).1.result =
      currentFileOf source.links previewChars owner path := by
  simp only [ContextMemory.currentFile, currentFileOf]
  by_cases unnamed : path.isEmpty = true
  · rw [if_pos unnamed, if_pos unnamed]
    rfl
  · rw [if_neg unnamed, if_neg unnamed]
    cases kept : (m.files.get now (fileKey owner path)).1 with
    | some f =>
      -- What is kept under the key was found for this very owner and path.
      obtain ⟨e, member, key, value⟩ := Cache.get_found kept
      obtain ⟨owner', path', record, rest, plain', key', found, value'⟩ := coherent.files e member
      obtain ⟨rfl, rfl⟩ := fileKey_inj plain plain' (key.symm.trans key')
      rw [found]
      simp only [Except.map, List.head?_cons, Option.map_some, ← value', value]
      rfl
    | none =>
      cases found : source.links.recordsAt owner path with
      | error f => rfl
      | ok records => cases records <;> rfl

/-- The linked files as a source alone tells them. -/
def linkedOf (source : ContextSource) (limit : Nat) (owner path : String) :
    Except Failure (List RelatedFile) :=
  match source.linkOutage with
  | some given => given
  | none =>
    match source.links.recordsAt owner path with
    | .error f => .error f
    | .ok [] => .ok []
    | .ok (record :: _) => Links.resolve source.links limit owner record

theorem linked_result (coherent : Coherent source.links previewChars limit m)
    (plain : Plain owner) (now : τ) (path : String) :
    (m.linked source now owner path).1.result = linkedOf source limit owner path := by
  simp only [ContextMemory.linked, linkedOf]
  cases source.linkOutage with
  | some given => rfl
  | none =>
    simp only [Links.relatedFiles]
    cases kept : (m.links.cache.get now (Links.key owner path)).1 with
    | some related =>
      -- The entry was resolved from the record of this path.
      obtain ⟨e, member, key, value⟩ := Cache.get_found kept
      obtain ⟨owner', path', record, rest, plain', key', found, resolved⟩ :=
        coherent.links e member
      obtain ⟨rfl, rfl⟩ := linkKey_inj plain plain' (key.symm.trans key')
      rw [found]
      exact (value ▸ resolved).symm
    | none =>
      cases found : source.links.recordsAt owner path with
      | error f => rfl
      | ok records =>
        cases records with
        | nil => rfl
        | cons record rest =>
          simp only [coherent.bounded]
          cases Links.resolve source.links limit owner record <;> rfl

variable {m' : ContextMemory τ}

/-- Whatever is kept, the current file is the same. -/
theorem currentFile_fresh (coherent : Coherent source.links previewChars limit m)
    (coherent' : Coherent source.links previewChars limit m') (plain : Plain owner) (now : τ)
    (path : String) :
    (m.currentFile source now previewChars owner path).1.result =
      (m'.currentFile source now previewChars owner path).1.result := by
  rw [currentFile_result coherent plain, currentFile_result coherent' plain]

/-- Whatever is kept, the linked files are the same. -/
theorem relatedFiles_fresh (coherent : Coherent source.links previewChars limit m)
    (coherent' : Coherent source.links previewChars limit m') (plain : Plain owner) (now : τ)
    (count : Nat) (path : String) :
    (m.relatedFiles source now count owner path).1.result =
      (m'.relatedFiles source now count owner path).1.result := by
  simp only [ContextMemory.relatedFiles]
  split
  · rfl
  · rw [Attempt.result_bind, Attempt.result_bind, linked_result coherent plain,
      linked_result coherent' plain]

/-- Whatever is kept, the dependencies are the same. -/
theorem dependencies_fresh (coherent : Coherent source.links previewChars limit m)
    (coherent' : Coherent source.links previewChars limit m') (plain : Plain owner) (now : τ)
    (functionCount : Nat) (path : String) :
    (m.dependencies source now functionCount owner path).1.result =
      (m'.dependencies source now functionCount owner path).1.result := by
  simp only [ContextMemory.dependencies]
  split
  · rfl
  · split
    · rfl
    · rfl
    · simp only [Attempt.result_bind, linked_result coherent plain, linked_result coherent' plain]

end Questions

end ContextMemory

/-! ## Sources that agree for an owner -/

/-- An owner gets the same answers from both sources. -/
structure ContextSource.Agree (owner : String) (source source' : ContextSource) : Prop where
  records : ∀ path, source'.links.recordsAt owner path = source.links.recordsAt owner path
  symbolFiles : ∀ symbol use limit, source'.links.symbolFiles owner symbol use limit =
    source.links.symbolFiles owner symbol use limit
  statistics : source'.statistics owner = source.statistics owner
  linkOutage : source'.linkOutage = source.linkOutage

namespace ContextSource.Agree

variable {owner : String} {source source' : ContextSource} (agree : Agree owner source source')

include agree

theorem linkAll (limit : Nat) (ownPath : String) (use : SymbolUse) (direction : LinkDirection)
    (symbols : List String) (entries : List RelatedFile) :
    Links.linkAll source'.links limit owner ownPath use direction symbols entries =
      Links.linkAll source.links limit owner ownPath use direction symbols entries := by
  induction symbols generalizing entries with
  | nil => rfl
  | cons symbol rest ih => simp only [Links.linkAll, agree.symbolFiles, ih]

theorem resolve (limit : Nat) (f : IndexedFile) :
    Links.resolve source'.links limit owner f = Links.resolve source.links limit owner f := by
  simp only [Links.resolve, agree.linkAll]

theorem dependencyEntries (functionCount : Nat) (imports : List ImportRef)
    (targets : List RelatedFile) :
    ContextMemory.dependencyEntries source' functionCount owner imports targets =
      ContextMemory.dependencyEntries source functionCount owner imports targets := by
  induction targets with
  | nil => rfl
  | cons r rest ih => simp only [ContextMemory.dependencyEntries, agree.records, ih]

end ContextSource.Agree

namespace ContextMemory

variable {τ : Type} [Add τ] [LE τ] [DecidableLE τ] {source source' : ContextSource} {owner : String}
  {previewChars : Int} {limit : Nat} {m m' : ContextMemory τ}

theorem linkedOf_agree (agree : ContextSource.Agree owner source source') (limit : Nat)
    (path : String) : linkedOf source' limit owner path = linkedOf source limit owner path := by
  simp only [linkedOf, agree.linkOutage, agree.records, agree.resolve]

variable (agree : ContextSource.Agree owner source source')
  (coherent : Coherent source.links previewChars limit m)
  (coherent' : Coherent source'.links previewChars limit m') (plain : Plain owner) (now : τ)

include agree coherent coherent' plain

theorem currentFile_agree (path : String) :
    (m'.currentFile source' now previewChars owner path).1.result =
      (m.currentFile source now previewChars owner path).1.result := by
  rw [currentFile_result coherent plain, currentFile_result coherent' plain]
  simp only [currentFileOf, agree.records]

theorem relatedFiles_agree (count : Nat) (path : String) :
    (m'.relatedFiles source' now count owner path).1.result =
      (m.relatedFiles source now count owner path).1.result := by
  simp only [ContextMemory.relatedFiles]
  split
  · rfl
  · rw [Attempt.result_bind, Attempt.result_bind, linked_result coherent plain,
      linked_result coherent' plain, linkedOf_agree agree]

theorem dependencies_agree (functionCount : Nat) (path : String) :
    (m'.dependencies source' now functionCount owner path).1.result =
      (m.dependencies source now functionCount owner path).1.result := by
  simp only [ContextMemory.dependencies, agree.records]
  split
  · rfl
  · split
    · rfl
    · rfl
    · simp only [Attempt.result_bind, linked_result coherent plain, linked_result coherent' plain,
        linkedOf_agree agree, agree.dependencyEntries]

end ContextMemory

end CodeAtlas
