import CodeAtlas.Tree.Walk
import Mathlib.Data.List.Basic

/-!
# The paths of a walk

The names in a tree are not empty and have no slash in them. Then all paths that a walk gives are
absolute paths of such names, and these are told apart by their texts.

## Main results

`FilePath.Named.eq_of_text` and `Walk.named_drain`.
-/

namespace CodeAtlas

/-- A name that a file can have. -/
def isName (name : String) : Bool :=
  name != "" && !name.toList.contains '/'

theorem isName_iff {name : String} : isName name = true ↔ name.toList ≠ [] ∧ '/' ∉ name.toList := by
  simp [isName]

/-! ### Paths -/

/-- An absolute path of names. -/
structure FilePath.Named (p : FilePath) : Prop where
  root : p.root = "/"
  parts : ∀ name ∈ p.parts, isName name = true

namespace FilePath

/-- Names are told from what is written with slashes between them. -/
private theorem split_joined {parts : List String} (names : ∀ name ∈ parts, isName name = true) :
    (List.splitOn '/' (['/'].intercalate (parts.map String.toList))).filter (!·.isEmpty) =
      parts.map String.toList := by
  cases parts with
  | nil => rfl
  | cons name rest =>
    have apart : ∀ l ∈ (name :: rest).map String.toList, '/' ∉ l := by
      intro l member
      obtain ⟨own, among, rfl⟩ := List.mem_map.mp member
      exact (isName_iff.mp (names own among)).2
    -- Without slashes in the names every slash parts two of them, and no name is empty.
    rw [List.splitOn_intercalate '/' apart (by simp), List.filter_eq_self]
    intro l member
    obtain ⟨own, among, rfl⟩ := List.mem_map.mp member
    simpa using (isName_iff.mp (names own among)).1

theorem Named.below {p : FilePath} (named : p.Named) {name : String} (proper : isName name = true) :
    (⟨p.root, p.parts ++ [name]⟩ : FilePath).Named where
  root := named.root
  parts name' member := by
    rcases List.mem_append.mp member with old | new
    · exact named.parts name' old
    · rw [List.mem_singleton.mp new]
      exact proper

theorem Named.toList_text {p : FilePath} (named : p.Named) :
    p.text.toList = '/' :: ['/'].intercalate (p.parts.map String.toList) := by
  simp [text, named.root]

theorem Named.text_ne {p : FilePath} (named : p.Named) : p.text ≠ "" := by
  intro empty
  simpa [empty] using named.toList_text

/-- The path as it is shown in a workspace is not empty. -/
theorem Named.relative_ne {workspace p : FilePath} (named : p.Named) (inner : p.parts ≠ []) :
    ((workspace.relativeTo? p).map text).getD p.name ≠ "" := by
  have proper {name : String} (among : name ∈ p.parts) : name ≠ "" := by
    rintro rfl
    exact Bool.false_ne_true (named.parts "" among)
  simp only [relativeTo?]
  split
  · -- The components after those of the workspace, or a dot when there are none.
    simp only [Option.map_some, Option.getD_some, text]
    cases left : p.parts.drop workspace.parts.length with
    | nil => decide
    | cons name rest =>
      have first : name ≠ "" := proper (List.mem_of_mem_drop (left ▸ List.mem_cons_self))
      intro empty
      have joined := congrArg String.toList empty
      cases rest <;> simp [first] at joined
  · simp only [Option.map_none, Option.getD_none, name]
    rw [List.getLast?_eq_some_getLast inner]
    exact proper (List.getLast_mem inner)

/-- Paths of names with the same text are the same. -/
theorem Named.eq_of_text {p q : FilePath} (named : p.Named) (named' : q.Named)
    (same : p.text = q.text) : p = q := by
  have joined := named.toList_text.symm.trans ((congrArg String.toList same).trans named'.toList_text)
  have parts := split_joined named.parts
  rw [(List.cons.inj joined).2, split_joined named'.parts] at parts
  have parts := List.map_injective_iff.mpr (fun _ _ => String.toList_inj.mp) parts
  have root := named'.root.trans named.root.symm
  cases p
  cases q
  simp_all

end FilePath

/-! ### Trees -/

namespace Node

mutual

/-- All names below the node are names that a file can have. -/
def isNamed : Node → Bool
  | dir entries => areNamed entries
  | _ => true

/-- The same of entries. -/
def areNamed : List (String × Node) → Bool
  | [] => true
  | (name, n) :: rest => isName name && isNamed n && areNamed rest

end

theorem isName_of_mem {entries : List (String × Node)} (named : areNamed entries = true)
    {e : String × Node} (member : e ∈ entries) : isName e.1 = true ∧ e.2.isNamed = true := by
  induction entries with
  | nil => cases member
  | cons first rest ih =>
    obtain ⟨name, n⟩ := first
    simp only [areNamed, Bool.and_eq_true] at named
    rcases List.mem_cons.mp member with rfl | later
    · exact named.1
    · exact ih named.2 later

theorem isName_of_lookup {entries : List (String × Node)} (named : areNamed entries = true)
    {name : String} {child : Node} (found : entries.lookup name = some child) :
    isName name = true ∧ child.isNamed = true := by
  obtain ⟨before, after, split, _⟩ := List.lookup_eq_some_iff.mp found
  exact isName_of_mem named (split ▸ List.mem_append_right _ List.mem_cons_self)

/-- What passes from a directory to its entries passes to all that stands below. -/
theorem below_induction {P : Node → Prop} (down : ∀ {entries : List (String × Node)} {name : String}
    {child : Node}, P (.dir entries) → entries.lookup name = some child → P child) {n m : Node}
    (holds : P n) {place : List String} (found : n.below? place = some m) : P m := by
  induction place generalizing n with
  | nil => exact Option.some.inj found ▸ holds
  | cons name rest ih =>
    simp only [below?] at found
    cases n with
    | dir entries =>
      cases child : entries.lookup name with
      | none => simp [Node.entries, child] at found
      | some n =>
        simp only [Node.entries, child] at found
        exact ih (down holds child) found
    -- Nothing stands below a file or a link.
    | file => simp [Node.entries] at found
    | link => simp [Node.entries] at found

theorem isNamed_below {n m : Node} (named : n.isNamed = true) {place : List String}
    (found : n.below? place = some m) : m.isNamed = true :=
  below_induction (P := fun n => n.isNamed = true) (fun named child =>
    (isName_of_lookup named child).2) named found

end Node

namespace Tree

/-- All names in the tree are names that a file can have. -/
def Named (t : Tree) : Prop :=
  t.top.isNamed = true

instance (t : Tree) : Decidable t.Named :=
  inferInstanceAs (Decidable (_ = true))

/-- The workspace at a root: the root without links. -/
def workspace (t : Tree) (root : FilePath) : FilePath :=
  ((t.canonical root).toOption).getD root

variable {t : Tree}

/-- A place that a path leads to is one of names. -/
theorem isName_place (named : t.Named) {follow : Bool} {links : Nat} {here rest place : List String}
    (names : ∀ name ∈ here, isName name = true)
    (led : t.place follow links here rest = .ok place) : ∀ name ∈ place, isName name = true := by
  have below {here : List String} {entries : List (String × Node)} {name : String} {n : Node}
      (names : ∀ name ∈ here, isName name = true)
      (stands : t.top.below? here = some (.dir entries)) (found : entries.lookup name = some n) :
      ∀ name' ∈ here ++ [name], isName name' = true := by
    have proper := (Node.isName_of_lookup (Node.isNamed_below named stands) found).1
    intro name' member
    rcases List.mem_append.mp member with old | new
    · exact names name' old
    · rw [List.mem_singleton.mp new]
      exact proper
  -- The place grows by names of entries only; a link starts again from the top or from here.
  fun_induction Tree.place t follow links here rest with
  | case1 => exact Except.ok.inj led ▸ names
  | case2 => cases led
  | case3 links here name rest entries stands up ih =>
    exact ih (fun name' member => names name' (List.dropLast_subset _ member)) led
  | case4 => cases led
  | case5 links here name rest entries stands down target found last =>
    exact Except.ok.inj led ▸ below names stands found
  | case6 => cases led
  | case7 here name rest entries stands down target found more links aim ih =>
    refine ih (fun name' member => ?_) led
    split at member
    · exact names name' member
    · cases member
  | case8 links here name rest entries stands down n other found ih =>
    exact ih (below names stands found) led
  | case9 => cases led

theorem named_canonical (named : t.Named) {p q : FilePath} (found : t.canonical p = .ok q) :
    q.Named := by
  simp only [canonical] at found
  cases led : t.place true maxLinks [] p.parts with
  | error fault =>
    rw [led] at found
    cases found
  | ok place =>
    rw [led] at found
    cases found
    exact ⟨rfl, isName_place named (List.forall_mem_nil _) led⟩

/-- What is found at a path stands at some place. -/
theorem below_of_find {p : FilePath} {n : Node} (found : t.find p = .ok n) :
    ∃ place, t.top.below? place = some n := by
  simp only [find] at found
  split at found
  · cases found
  · split at found
    next stands => exact ⟨_, Except.ok.inj found ▸ stands⟩
    · cases found

theorem isNamed_find (named : t.Named) {p : FilePath} {n : Node} (found : t.find p = .ok n) :
    n.isNamed = true := by
  obtain ⟨place, stands⟩ := below_of_find found
  exact Node.isNamed_below named stands

theorem isName_list (named : t.Named) {p : FilePath} {entries : List (String × Node)}
    (listed : t.list p = .ok entries) : ∀ e ∈ entries, isName e.1 = true := by
  simp only [list] at listed
  split at listed
  · cases listed
  next found =>
    cases listed
    intro e member
    exact (Node.isName_of_mem (isNamed_find named found) (List.mem_mergeSort.mp member)).1
  · cases listed

end Tree

/-! ### Walks -/

/-- The paths that come from a listing are paths of names. -/
structure Listing.Named (l : Listing) : Prop where
  directory : l.directory.Named
  entries : ∀ e ∈ l.entries, isName e.1 = true
  subdirectories : ∀ d ∈ l.subdirectories, d.Named

namespace Walk

/-- A walk below a root, all of whose paths are paths of names. -/
structure Named (root : FilePath) (w : Walk) : Prop where
  root : w.root = root
  current : ∀ l ∈ w.current, l.Named
  pending : ∀ d ∈ w.pending, d.Named

variable {root : FilePath} {w : Walk} {t : Tree}

/-- A walk that starts is one below the workspace. -/
theorem named_start (tree : t.Named) {config : ScanConfig} {p : FilePath}
    (started : start config t p = .ok w) :
    (t.workspace p).Named ∧ w.Named (t.workspace p) := by
  simp only [start] at started
  split at started
  · cases started
  next holds =>
    split at started
    · cases started
    · cases started
      have proper : (t.workspace p).Named := by
        simp only [Tree.holds, Tree.find] at holds
        simp only [Tree.workspace]
        cases found : t.canonical p with
        | ok q => exact Tree.named_canonical tree found
        | error fault =>
          -- What cannot be made canonical cannot be found either.
          simp only [Tree.canonical] at found
          cases led : t.place true Tree.maxLinks [] p.parts with
          | ok place =>
            rw [led] at found
            cases found
          | error fault =>
            rw [led] at holds
            exact absurd rfl holds
      exact ⟨proper, rfl, nofun, fun d member => List.mem_singleton.mp member ▸ proper⟩

theorem named_openNext (tree : t.Named) (named : w.Named root) : (w.openNext t).Named root := by
  cases pending : w.pending with
  | nil =>
    simp only [openNext, pending]
    exact named
  | cons directory rest =>
    have proper : ∀ d ∈ directory :: rest, d.Named := pending ▸ named.pending
    have rest_ : ∀ d ∈ rest, d.Named := fun d member => proper d (List.mem_cons_of_mem _ member)
    simp only [openNext, pending]
    split
    · exact ⟨named.root, named.current, rest_⟩
    next entries listed =>
      refine ⟨named.root, fun l member => ?_, rest_⟩
      cases member
      exact ⟨proper directory List.mem_cons_self, Tree.isName_list tree listed, nofun⟩

theorem named_inspectNext (named : w.Named root) {l : Listing} (listing : l.Named) :
    (∀ p ∈ (w.inspectNext t l).1, p.Named) ∧ (w.inspectNext t l).2.Named root := by
  obtain ⟨directory, entries, subdirectories⟩ := l
  cases entries with
  | nil =>
    refine ⟨nofun, named.root, nofun, fun d member => ?_⟩
    rcases List.mem_append.mp member with new | old
    · exact listing.subdirectories d new
    · exact named.pending d old
  | cons e rest =>
    obtain ⟨name, node⟩ := e
    have proper : (⟨directory.root, directory.parts ++ [name]⟩ : FilePath).Named :=
      listing.directory.below (listing.entries _ List.mem_cons_self)
    have smaller (more : List FilePath) (named' : ∀ d ∈ more, d.Named) :
        (⟨directory, rest, more⟩ : Listing).Named :=
      ⟨listing.directory, fun e member => listing.entries e (List.mem_cons_of_mem _ member), named'⟩
    have on (l : Listing) (named' : l.Named) : ∀ l' ∈ some l, l'.Named := by
      intro l' member
      cases member
      exact named'
    have same := on _ (smaller _ listing.subdirectories)
    simp only [inspectNext]
    split
    · refine ⟨nofun, named.root, on _ (smaller _ fun d member => ?_), named.pending⟩
      rcases List.mem_append.mp member with old | new
      · exact listing.subdirectories d old
      · exact List.mem_singleton.mp new ▸ proper
    · refine ⟨fun p member => ?_, named.root, same, named.pending⟩
      cases member
      exact proper
    · exact ⟨nofun, named.root, same, named.pending⟩
    · exact ⟨nofun, named.root, same, named.pending⟩

theorem named_nextWithin (tree : t.Named) (fuel : Nat) (named : w.Named root) :
    (∀ p ∈ (nextWithin t fuel w).1, p.Named) ∧ (nextWithin t fuel w).2.Named root := by
  -- Each round opens a directory or inspects one entry of the open one.
  induction fuel generalizing w with
  | zero => exact ⟨nofun, named⟩
  | succ fuel ih =>
    simp only [nextWithin]
    split
    · split
      · exact ⟨nofun, named⟩
      · exact ih (named_openNext tree named)
    next l current =>
      obtain ⟨given, left⟩ := named_inspectNext (t := t) named (named.current l current)
      split
      next ran =>
        rw [ran] at given left
        exact ⟨given, left⟩
      next ran =>
        rw [ran] at left
        exact ih left

/-- All files that a walk gives have paths of names. -/
theorem named_drain (tree : t.Named) (named : w.Named root) :
    (∀ p ∈ (w.drain t).1, p.Named) ∧ (w.drain t).2.Named root := by
  unfold drain
  generalize w.bound t = count
  induction count generalizing w with
  | zero => exact ⟨nofun, named⟩
  | succ count ih =>
    obtain ⟨given, left⟩ := named_nextWithin tree (w.bound t) named
    simp only [takeWithin, next]
    split
    next ran =>
      rw [ran] at left
      exact ⟨nofun, left⟩
    next p _ ran =>
      rw [ran] at given left
      obtain ⟨files, after⟩ := ih left
      refine ⟨fun q member => ?_, after⟩
      rcases List.mem_cons.mp member with rfl | later
      · exact given q rfl
      · exact files q later

/-! ### Paths below directories -/

theorem parts_ne_nextWithin (fuel : Nat) (w : Walk) :
    ∀ p ∈ (nextWithin t fuel w).1, p.parts ≠ [] := by
  have inspected (w : Walk) (l : Listing) : ∀ p ∈ (w.inspectNext t l).1, p.parts ≠ [] := by
    intro p member
    simp only [inspectNext] at member
    split at member
    · cases member
    · split at member
      · cases member
      · cases member
        exact List.append_ne_nil_of_right_ne_nil _ (List.cons_ne_nil _ _)
      · cases member
      · cases member
  induction fuel generalizing w with
  | zero => exact nofun
  | succ fuel ih =>
    simp only [nextWithin]
    split
    · split
      · exact nofun
      · exact ih _
    next l _ =>
      split
      next ran => exact ran ▸ inspected w l
      · exact ih _

/-- What a walk gives stands below a directory, so it is not the root of the tree. -/
theorem parts_ne_drain : ∀ p ∈ (w.drain t).1, p.parts ≠ [] := by
  unfold drain
  generalize w.bound t = count
  induction count generalizing w with
  | zero => exact nofun
  | succ count ih =>
    have given := parts_ne_nextWithin (t := t) (w.bound t) w
    simp only [takeWithin, next]
    split
    · exact nofun
    next p w' ran =>
      rw [ran] at given
      intro q member
      rcases List.mem_cons.mp member with rfl | later
      · exact given q rfl
      · exact ih q later

end Walk

/-- A walk through a tree that does not change inspects everything and gives these files. -/
def Tree.Walks (config : ScanConfig) (t : Tree) (root : FilePath) (files : List FilePath) : Prop :=
  ∃ w w', Walk.start config t root = .ok w ∧ w.drain t = (files, w') ∧ w'.faults = []

theorem Tree.Walks.named {config : ScanConfig} {t : Tree} {root : FilePath} {files : List FilePath}
    (walks : t.Walks config root files) (tree : t.Named) :
    (t.workspace root).Named ∧ ∀ p ∈ files, p.Named := by
  obtain ⟨w, w', started, drained, _⟩ := walks
  obtain ⟨root_, start⟩ := Walk.named_start tree started
  have given := (Walk.named_drain tree start).1
  rw [drained] at given
  exact ⟨root_, given⟩

theorem Tree.Walks.unique {config : ScanConfig} {t : Tree} {root : FilePath}
    {files files' : List FilePath} (walks : t.Walks config root files)
    (walks' : t.Walks config root files') : files = files' := by
  obtain ⟨w, v, started, drained, _⟩ := walks
  obtain ⟨w', v', started', drained', _⟩ := walks'
  obtain rfl : w = w' := Except.ok.inj (started.symm.trans started')
  exact congrArg Prod.fst (drained.symm.trans drained')

/-- A walk through a workspace with nothing in it gives nothing. -/
theorem Tree.Walks.nothing (config : ScanConfig) : (⟨.dir []⟩ : Tree).Walks config ⟨"/", []⟩ [] := by
  have here : (⟨.dir []⟩ : Tree).find ⟨"/", []⟩ = .ok (.dir []) := by
    simp [Tree.find, Tree.place, Node.below?]
  have listed : (⟨.dir []⟩ : Tree).list ⟨"/", []⟩ = .ok [] := by
    simp [Tree.list, here]
  have canonical : (⟨.dir []⟩ : Tree).canonical ⟨"/", []⟩ = .ok ⟨"/", []⟩ := by
    simp [Tree.canonical, Tree.place, Except.map]
  let w : Walk := ⟨config, ⟨"/", []⟩,
    .load ⟨.dir []⟩ ⟨"/", []⟩ config.ignoreFile config.excludeGlobs, none, [⟨"/", []⟩], []⟩
  refine ⟨w, { w with pending := [] }, ?_, ?_, rfl⟩
  · simp only [Walk.start, Tree.holds, Tree.isDir, here, canonical]
    rfl
  · simp [w, Walk.drain, Walk.takeWithin, Walk.next, Walk.bound, Walk.nextWithin, Walk.openNext,
      listed, Walk.inspectNext, Node.size, Node.sizes]

end CodeAtlas
