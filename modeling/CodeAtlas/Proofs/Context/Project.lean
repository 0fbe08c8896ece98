import CodeAtlas.Context.Memory
import CodeAtlas.Proofs.Cache

/-!
# Projects that are kept

Of the sections of a context only the project reads and keeps projects, under a key that tells the
owner, whatever characters the owner has.

## Main results

`ContextMemory.project_result` says what is found, `mem_project` and `entry?_project` what is kept
afterwards. `project_again`: an answer is found again until it expires.
-/

namespace CodeAtlas.ContextMemory

variable {τ : Type}

theorem ownerKey_injective : Function.Injective ownerKey := by
  intro owner owner' same
  have chars := congrArg String.toList same
  simp only [ownerKey, String.toList_append] at chars
  exact String.toList_inj.mp (List.append_cancel_right chars)

variable [Add τ] [LE τ] [DecidableLE τ] {source : ContextSource} {now : τ} {owner : String}

/-! ### The other sections -/

theorem currentFile_projects (previewChars : Int) (path : String) (m : ContextMemory τ) :
    (m.currentFile source now previewChars owner path).2.projects = m.projects := by
  simp only [currentFile]
  split
  · rfl
  · split
    · rfl
    · split <;> rfl

theorem linked_projects (path : String) (m : ContextMemory τ) :
    (m.linked source now owner path).2.projects = m.projects := by
  simp only [linked]
  split <;> rfl

theorem relatedFiles_projects (count : Nat) (path : String) (m : ContextMemory τ) :
    (m.relatedFiles source now count owner path).2.projects = m.projects := by
  simp only [relatedFiles]
  split
  · rfl
  · exact linked_projects path m

theorem dependencies_projects (functionCount : Nat) (path : String) (m : ContextMemory τ) :
    (m.dependencies source now functionCount owner path).2.projects = m.projects := by
  simp only [dependencies]
  split
  · rfl
  · split
    · rfl
    · rfl
    · exact linked_projects path m

/-! ### The project -/

variable {m : ContextMemory τ}

/-- What is kept and still counts is found, and else what the source answers. -/
theorem project_result (source : ContextSource) (now : τ) (owner : String) (m : ContextMemory τ) :
    (m.project source now owner).1.result =
      match (m.projects.get now (ownerKey owner)).1 with
      | some s => .ok s
      | none => source.statistics owner := by
  simp only [project]
  cases (m.projects.get now (ownerKey owner)).1 with
  | some s => rfl
  | none => cases source.statistics owner <;> rfl

theorem project_projects (source : ContextSource) (now : τ) (owner : String)
    (m : ContextMemory τ) : (m.project source now owner).2.projects =
      match (m.projects.get now (ownerKey owner)).1, source.statistics owner with
      | none, .ok s => (m.projects.get now (ownerKey owner)).2.set now (ownerKey owner) s
      | _, _ => (m.projects.get now (ownerKey owner)).2 := by
  simp only [project]
  cases (m.projects.get now (ownerKey owner)).1 with
  | some s => rfl
  | none => cases source.statistics owner <;> rfl

theorem mem_project {e : Cache.Entry τ IndexStatistics}
    (member : e ∈ (m.project source now owner).2.projects.entries) :
    e ∈ m.projects.entries ∨
      (e.key = ownerKey owner ∧ source.statistics owner = .ok e.value) := by
  rw [project_projects] at member
  split at member
  next s _ answer =>
    rcases Cache.mem_set member with old | ⟨key, value⟩
    · exact .inl (Cache.mem_get old)
    · exact .inr ⟨key, answer.trans (value ▸ rfl)⟩
  · exact .inl (Cache.mem_get member)

theorem project_lifetime (source : ContextSource) (now : τ) (owner : String)
    (m : ContextMemory τ) :
    (m.project source now owner).2.projects.lifetime = m.projects.lifetime := by
  have limits := Cache.get_limits m.projects now (ownerKey owner)
  rw [project_projects]
  split
  · exact limits.2
  · exact limits.2

theorem roomy_project {keys : List String} (roomy : Cache.Roomy keys m.projects)
    (known : ownerKey owner ∈ keys) (source : ContextSource) (now : τ) :
    Cache.Roomy keys (m.project source now owner).2.projects := by
  rw [project_projects]
  split
  · exact (roomy.get now _).set known now _
  · exact roomy.get now _

/-- With room for it, the entry of the owner is the one that was found, or the answer; the entries
of all other owners stay. -/
theorem entry?_project {keys : List String} (roomy : Cache.Roomy keys m.projects)
    (known : ownerKey owner ∈ keys) (source : ContextSource) (now : τ) (key : String) :
    Cache.entry? (m.project source now owner).2.projects key =
      if key = ownerKey owner then
        ((m.projects.entry? key).filter (Cache.Entry.lives now)).or
          ((source.statistics owner).toOption.map (⟨key, now + m.projects.lifetime, ·⟩))
      else m.projects.entry? key := by
  have read := Cache.entry?_get m.projects now (ownerKey owner) key
  have value := Cache.get_value m.projects now (ownerKey owner)
  rw [project_projects]
  cases kept : (m.projects.entry? (ownerKey owner)).filter (Cache.Entry.lives now) with
  -- What was found is put back as it was.
  | some e =>
    rw [kept] at value read
    rw [value]
    refine read.trans ?_
    by_cases own : key = ownerKey owner
    · rw [if_pos own, if_pos own, own, kept, Option.some_or]
    · rw [if_neg own, if_neg own]
  | none =>
    rw [kept] at value read
    rw [value]
    cases source.statistics owner with
    | error f =>
      refine read.trans ?_
      by_cases own : key = ownerKey owner
      · rw [if_pos own, if_pos own, own, kept]
        rfl
      · rw [if_neg own, if_neg own]
    | ok s =>
      -- There is room for the new entry, so it drives no other one out.
      refine (Cache.entry?_set ((roomy.get now _).size_lt known) now s key).trans ?_
      by_cases own : key = ownerKey owner
      · rw [if_pos own, if_pos own, own, kept, (Cache.get_limits _ _ _).2]
        rfl
      · rw [if_neg own, if_neg own, read, if_neg own]

/-- What was answered is found again as long as it counts. -/
theorem project_again (holds : 0 < m.projects.capacity)
    (absent : m.projects.entry? (ownerKey owner) = none) {s : IndexStatistics}
    (answer : source.statistics owner = .ok s) {later : τ}
    (lives : ¬ now + m.projects.lifetime ≤ later) :
    ((m.project source now owner).2.projects.get later (ownerKey owner)).1 = some s := by
  rw [project_projects, Cache.get_absent absent, answer]
  exact Cache.get_set holds lives _ s

end CodeAtlas.ContextMemory
