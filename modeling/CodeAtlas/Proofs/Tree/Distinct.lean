import CodeAtlas.Proofs.Tree.Walk
import Mathlib.Data.List.Nodup
import Mathlib.Data.List.Perm.Subperm

/-!
# A walk tells of no path twice

While a walk goes on it has places left to look at: the entries of the open directory and the
directories that it is yet to enter. None of these lies below another, and each path that is given
or recorded as a fault uses one of them up. This is so in every tree, also in one that was changed
since the places were noted.

## Main results

`Walk.Divides` says what a step makes of the places, `Walk.divides_openNext` and
`Walk.divides_inspectNext` that each step does so. `Walk.nodup_follow`: no path is told of twice, in
whatever trees the walk goes on. `Walk.nodup_drain`: no path is given twice in a tree that stays.
-/

namespace CodeAtlas

namespace FilePath

/-- Neither path lies below the other. -/
def Apart (p q : FilePath) : Prop :=
  ¬ p.parts <+: q.parts ∧ ¬ q.parts <+: p.parts

theorem Apart.symm {p q : FilePath} (apart : Apart p q) : Apart q p :=
  ⟨apart.2, apart.1⟩

theorem Apart.ne {p q : FilePath} (apart : Apart p q) : p ≠ q := by
  rintro rfl
  exact apart.1 (List.prefix_refl _)

/-- What lies below apart paths is apart. -/
theorem Apart.below {p q r : FilePath} (apart : Apart p q) (below : q.parts <+: r.parts) :
    Apart p r := by
  constructor
  · intro above
    rcases List.prefix_or_prefix_of_prefix above below with up | down
    · exact apart.1 up
    · exact apart.2 down
  · intro above
    exact apart.2 (below.trans above)

/-- Paths of different names in one directory are apart. -/
theorem apart_of_name {parts : List String} {name name' : String} (other : name ≠ name')
    (root root' : String) : Apart ⟨root, parts ++ [name]⟩ ⟨root', parts ++ [name']⟩ := by
  -- Paths of the same length lie below each other only when they are the same.
  have last {a b : String} (below : parts ++ [a] <+: parts ++ [b]) : a = b := by
    simpa using below.eq_of_length (by simp)
  exact ⟨fun below => other (last below), fun below => other (last below).symm⟩

/-- Each of some paths is one of others or lies below one. -/
def Within (paths others : List FilePath) : Prop :=
  ∀ p ∈ paths, ∃ q ∈ others, q.parts <+: p.parts

theorem within_of_subset {paths others : List FilePath} (subset : paths ⊆ others) :
    Within paths others :=
  fun p member => ⟨p, subset member, List.prefix_refl _⟩

/-- A path apart from others is apart from all that lies below them. -/
theorem Within.apart {paths others : List FilePath} (within : Within paths others) {p : FilePath}
    (apart : ∀ q ∈ others, Apart p q) : ∀ q ∈ paths, Apart p q := by
  intro q member
  obtain ⟨r, other, below⟩ := within q member
  exact (apart r other).below below

/-- Paths of names, none of which lies below another. -/
structure Clear (paths : List FilePath) : Prop where
  named : ∀ p ∈ paths, p.Named
  apart : paths.Pairwise Apart

theorem Clear.subperm {paths others : List FilePath} (clear : Clear paths)
    (fewer : others.Subperm paths) : Clear others := by
  obtain ⟨between, perm, sublist⟩ := fewer
  exact ⟨fun p member => clear.named p (sublist.subset (perm.mem_iff.mpr member)),
    (perm.pairwise_iff fun h => Apart.symm h).mp (clear.apart.sublist sublist)⟩

/-- Clear paths have different texts. -/
theorem Clear.nodup_texts {paths : List FilePath} (clear : Clear paths) :
    (paths.map text).Nodup := by
  refine List.pairwise_map.mpr (clear.apart.imp_of_mem fun {p q} member other apart same => ?_)
  exact apart.ne ((clear.named p member).eq_of_text (clear.named q other) same)

end FilePath

open FilePath

/-! ### Trees -/

namespace Node

mutual

/-- No directory below the node has a name twice. -/
def isDistinct : Node → Bool
  | dir entries => decide (entries.map Prod.fst).Nodup && areDistinct entries
  | _ => true

/-- The same of entries. -/
def areDistinct : List (String × Node) → Bool
  | [] => true
  | (_, n) :: rest => isDistinct n && areDistinct rest

end

theorem isDistinct_of_mem {entries : List (String × Node)} (distinct : areDistinct entries = true)
    {e : String × Node} (member : e ∈ entries) : e.2.isDistinct = true := by
  induction entries with
  | nil => cases member
  | cons first rest ih =>
    obtain ⟨name, n⟩ := first
    simp only [areDistinct, Bool.and_eq_true] at distinct
    rcases List.mem_cons.mp member with rfl | later
    · exact distinct.1
    · exact ih distinct.2 later

theorem isDistinct_below {n m : Node} (distinct : n.isDistinct = true) {place : List String}
    (found : n.below? place = some m) : m.isDistinct = true := by
  refine below_induction (P := fun n => n.isDistinct = true)
    (fun distinct child => ?_) distinct found
  obtain ⟨before, after, split, _⟩ := List.lookup_eq_some_iff.mp child
  simp only [isDistinct, Bool.and_eq_true] at distinct
  exact isDistinct_of_mem distinct.2 (split ▸ List.mem_append_right _ List.mem_cons_self)

end Node

namespace Tree

/-- No directory in the tree has a name twice. -/
def Distinct (t : Tree) : Prop :=
  t.top.isDistinct = true

instance (t : Tree) : Decidable t.Distinct :=
  inferInstanceAs (Decidable (_ = true))

theorem nodup_names {t : Tree} (distinct : t.Distinct) {place : List String}
    {entries : List (String × Node)} (stands : t.top.below? place = some (.dir entries)) :
    (entries.map Prod.fst).Nodup := by
  have names := Node.isDistinct_below distinct stands
  simp only [Node.isDistinct, Bool.and_eq_true, decide_eq_true_eq] at names
  exact names.1

theorem nodup_list {t : Tree} (distinct : t.Distinct) {p : FilePath}
    {entries : List (String × Node)} (listed : t.list p = .ok entries) :
    (entries.map Prod.fst).Nodup := by
  simp only [list] at listed
  split at listed
  · cases listed
  next unordered found =>
    cases listed
    obtain ⟨place, stands⟩ := below_of_find found
    have names := nodup_names distinct stands
    exact ((List.mergeSort_perm unordered _).map Prod.fst).nodup_iff.mpr names
  · cases listed

end Tree

/-! ### Walks -/

/-- What is left of a listing: the paths of its entries, and the directories to enter. -/
def Listing.places (l : Listing) : List FilePath :=
  l.entries.map (fun e => ⟨l.directory.root, l.directory.parts ++ [e.1]⟩) ++ l.subdirectories

namespace Walk

/-- What is left to look at. -/
def places (w : Walk) : List FilePath :=
  (w.current.elim [] Listing.places) ++ w.pending

/-- A walk goes on from `w` to `w'`: it gives some paths and records faults at others. Together with
the places left then these are clear, and lie within the places that were left before. -/
structure Divides (w w' : Walk) (given faulty : List FilePath) : Prop where
  faults : w'.faults.map (·.path) = w.faults.map (·.path) ++ faulty.map (·.text)
  clear : Clear (given ++ faulty ++ w'.places)
  within : Within (given ++ faulty ++ w'.places) w.places

namespace Divides

variable {w w' w'' : Walk} {given given' faulty faulty' : List FilePath}

/-- What is left is still clear. -/
theorem left (divides : Divides w w' given faulty) : Clear w'.places :=
  divides.clear.subperm (List.sublist_append_right _ _).subperm

/-- Some places are used up as they are. -/
theorem of_subperm (clear : Clear w.places)
    (faults : w'.faults.map (·.path) = w.faults.map (·.path) ++ faulty.map (·.text))
    (fewer : (given ++ faulty ++ w'.places).Subperm w.places) : Divides w w' given faulty :=
  ⟨faults, clear.subperm fewer, within_of_subset fewer.subset⟩

theorem refl (clear : Clear w.places) : Divides w w [] [] :=
  .of_subperm clear (by simp) (List.Subperm.refl _)

theorem trans (first : Divides w w' given faulty) (second : Divides w' w'' given' faulty') :
    Divides w w'' (given ++ given') (faulty ++ faulty') := by
  -- What the second part tells of comes from places that the first part has left.
  have order : ((given ++ given') ++ (faulty ++ faulty') ++ w''.places).Perm
      ((given ++ faulty) ++ (given' ++ faulty' ++ w''.places)) := by
    simp only [List.append_assoc]
    refine List.Perm.append_left given ?_
    rw [← List.append_assoc, ← List.append_assoc faulty]
    exact List.Perm.append_right _ List.perm_append_comm
  obtain ⟨told, left, between⟩ := List.pairwise_append.mp first.clear.apart
  have clear : Clear ((given ++ faulty) ++ (given' ++ faulty' ++ w''.places)) := by
    refine ⟨fun p member => ?_, List.pairwise_append.mpr ⟨told, second.clear.apart, ?_⟩⟩
    · rcases List.mem_append.mp member with early | late
      · exact first.clear.named p (List.mem_append_left _ early)
      · exact second.clear.named p late
    · intro p member
      exact second.within.apart (between p member)
  refine ⟨?_, clear.subperm order.subperm, fun p member => ?_⟩
  · rw [second.faults, first.faults, List.map_append, List.append_assoc]
  · rcases List.mem_append.mp (order.mem_iff.mp member) with early | late
    · exact first.within p (List.mem_append_left _ early)
    · obtain ⟨q, left, below⟩ := second.within p late
      obtain ⟨r, place, below'⟩ := first.within q (List.mem_append_right _ left)
      exact ⟨r, place, below'.trans below⟩

/-- No path is told of twice on the way. -/
theorem nodup_told (divides : Divides w w' given faulty) (fresh : w.faults = []) :
    (given.map (·.text) ++ w'.faults.map (·.path)).Nodup := by
  have texts := (divides.clear.subperm (List.sublist_append_left _ _).subperm).nodup_texts
  simpa [divides.faults, fresh] using texts

end Divides

variable {w : Walk} {t : Tree}

/-- A walk starts with the directory that its root leads to, and nothing is recorded yet. -/
theorem start_eq {config : ScanConfig} {root : FilePath} (started : start config t root = .ok w) :
    t.isDir root = true ∧
      ∃ rules, w = ⟨config, t.workspace root, rules, none, [t.workspace root], []⟩ := by
  simp only [start] at started
  split at started
  · cases started
  · split at started
    · cases started
    next isDir =>
      cases started
      exact ⟨by simpa using isDir, _, rfl⟩

theorem places_start (named : t.Named) {config : ScanConfig} {root : FilePath}
    (started : start config t root = .ok w) : Clear w.places := by
  obtain ⟨_, start⟩ := named_start named started
  obtain ⟨_, rules, rfl⟩ := start_eq started
  exact ⟨start.pending, List.pairwise_singleton _ _⟩

theorem faults_start {config : ScanConfig} {root : FilePath}
    (started : start config t root = .ok w) : w.faults = [] := by
  obtain ⟨_, rules, rfl⟩ := start_eq started
  rfl

theorem divides_openNext (named : t.Named) (distinct : t.Distinct) (clear : Clear w.places)
    (closed : w.current = none) : ∃ faulty, Divides w (w.openNext t) [] faulty := by
  cases pending : w.pending with
  | nil =>
    have same : w.openNext t = w := by simp only [openNext, pending]
    exact ⟨[], same.symm ▸ .refl clear⟩
  | cons directory rest =>
    have left : w.places = directory :: rest := by simp [places, closed, pending]
    have clear' : Clear (directory :: rest) := left ▸ clear
    obtain ⟨first, others⟩ := List.pairwise_cons.mp clear'.apart
    simp only [openNext, pending]
    split
    next fault listed =>
      refine ⟨[directory], .of_subperm clear (by simp [record]) ?_⟩
      simpa [places, record, closed, pending] using List.Subperm.refl _
    next entries listed =>
      -- The entries take the place of their directory.
      have inside : (entries.map fun e =>
          (⟨directory.root, directory.parts ++ [e.1]⟩ : FilePath)).Pairwise Apart := by
        refine List.pairwise_map.mpr ?_
        refine (List.pairwise_map.mp (Tree.nodup_list distinct listed)).imp ?_
        exact fun other => apart_of_name other _ _
      have below : Within (entries.map fun e =>
          (⟨directory.root, directory.parts ++ [e.1]⟩ : FilePath)) [directory] := by
        intro p member
        obtain ⟨e, _, rfl⟩ := List.mem_map.mp member
        exact ⟨directory, List.mem_singleton_self _, List.prefix_append _ _⟩
      refine ⟨[], by simp, ⟨fun p member => ?_, ?_⟩, fun p member => ?_⟩
      · simp only [places, Listing.places, Option.elim_some, List.append_nil, List.nil_append,
          List.mem_append, List.mem_map] at member
        rcases member with ⟨e, among, rfl⟩ | old
        · have proper := Tree.isName_list named listed e among
          exact (clear'.named directory List.mem_cons_self).below proper
        · exact clear'.named p (List.mem_cons_of_mem _ old)
      · simp only [places, Listing.places, Option.elim_some, List.append_nil, List.nil_append]
        refine List.pairwise_append.mpr ⟨inside, others, fun p member q other => Apart.symm ?_⟩
        exact below.apart (by simpa using (first q other).symm) p member
      · simp only [places, Listing.places, Option.elim_some, List.append_nil, List.nil_append,
          List.mem_append] at member
        rw [left]
        rcases member with new | old
        · obtain ⟨q, one, above⟩ := below p new
          exact ⟨q, List.mem_singleton.mp one ▸ List.mem_cons_self, above⟩
        · exact ⟨p, List.mem_cons_of_mem _ old, List.prefix_refl _⟩

theorem divides_inspectNext (clear : Clear w.places) {l : Listing} (current : w.current = some l) :
    ∃ faulty, Divides w (w.inspectNext t l).2 (w.inspectNext t l).1.toList faulty := by
  obtain ⟨directory, entries, subdirectories⟩ := l
  cases entries with
  | nil =>
    -- The directories of the listing come first among those to enter.
    refine ⟨[], .of_subperm clear (by simp [inspectNext]) ?_⟩
    simp [places, current, inspectNext, Listing.places, List.Subperm.refl]
  | cons e rest =>
    obtain ⟨name, node⟩ := e
    simp only [inspectNext]
    split
    · refine ⟨[], .of_subperm clear (by simp) (List.Perm.subperm ?_)⟩
      simp only [places, current, Listing.places, Option.elim_some, Option.toList_none,
        List.nil_append, List.map_cons, List.append_assoc, List.cons_append]
      rw [← List.append_assoc, ← List.append_assoc]
      exact List.perm_middle
    · refine ⟨[], .of_subperm clear (by simp) ?_⟩
      simp [places, current, Listing.places, List.Subperm.refl]
    · refine ⟨[], .of_subperm clear (by simp) ?_⟩
      simpa [places, current, Listing.places] using List.subperm_cons_self
    · refine ⟨[⟨directory.root, directory.parts ++ [name]⟩],
        .of_subperm clear (by simp [record]) ?_⟩
      simp [places, current, Listing.places, record, List.Subperm.refl]

theorem divides_nextWithin (named : t.Named) (distinct : t.Distinct) (fuel : Nat)
    (clear : Clear w.places) :
    ∃ faulty, Divides w (nextWithin t fuel w).2 (nextWithin t fuel w).1.toList faulty := by
  induction fuel generalizing w with
  | zero => exact ⟨[], .refl clear⟩
  | succ fuel ih =>
    simp only [nextWithin]
    split
    next closed =>
      split
      · exact ⟨[], .refl clear⟩
      · obtain ⟨faulty, opened⟩ := divides_openNext named distinct clear closed
        obtain ⟨faulty', divides⟩ := ih opened.left
        exact ⟨_, opened.trans divides⟩
    next l current =>
      obtain ⟨faulty, inspected⟩ := divides_inspectNext (t := t) clear current
      split
      next ran =>
        rw [ran] at inspected
        exact ⟨_, inspected⟩
      next ran =>
        rw [ran] at inspected
        obtain ⟨faulty', divides⟩ := ih inspected.left
        exact ⟨_, inspected.trans divides⟩

theorem divides_drain (named : t.Named) (distinct : t.Distinct) (clear : Clear w.places) :
    ∃ faulty, Divides w (w.drain t).2 (w.drain t).1 faulty := by
  unfold drain
  generalize w.bound t = count
  induction count generalizing w with
  | zero => exact ⟨[], .refl clear⟩
  | succ count ih =>
    obtain ⟨faulty, once⟩ := divides_nextWithin named distinct (w.bound t) clear
    simp only [takeWithin, next]
    split
    next ran =>
      rw [ran] at once
      exact ⟨_, once⟩
    next p w' ran =>
      rw [ran] at once
      obtain ⟨faulty', later⟩ := ih once.left
      exact ⟨_, once.trans later⟩

/-- A walk gives no path twice. -/
theorem nodup_drain (named : t.Named) (distinct : t.Distinct) {config : ScanConfig}
    {root : FilePath} (started : start config t root = .ok w) :
    ((w.drain t).1.map (·.text)).Nodup := by
  obtain ⟨faulty, divides⟩ := divides_drain named distinct (places_start named started)
  exact (List.nodup_append.mp (divides.nodup_told (faults_start started))).1

/-! ### Trees that change -/

/-- Goes on to one more file for each of some trees, the tree as it is when that file is asked
for. -/
def follow : List Tree → Walk → List FilePath × Walk
  | [], w => ([], w)
  | t :: trees, w =>
    let (given, w) := w.next t
    let (files, w) := follow trees w
    (given.toList ++ files, w)

theorem divides_follow {trees : List Tree} (proper : ∀ t ∈ trees, t.Named ∧ t.Distinct)
    (clear : Clear w.places) :
    ∃ faulty, Divides w (w.follow trees).2 (w.follow trees).1 faulty := by
  induction trees generalizing w with
  | nil => exact ⟨[], .refl clear⟩
  | cons t trees ih =>
    obtain ⟨⟨named, distinct⟩, others⟩ := List.forall_mem_cons.mp proper
    obtain ⟨faulty, once⟩ := divides_nextWithin named distinct (w.bound t) clear
    obtain ⟨faulty', later⟩ := ih others once.left
    exact ⟨_, once.trans later⟩

/-- However the tree changes between two files, no path is given twice, none is recorded twice, and
none is both given and recorded. -/
theorem nodup_follow {trees : List Tree} (proper : ∀ t' ∈ t :: trees, t'.Named ∧ t'.Distinct)
    {config : ScanConfig} {root : FilePath} (started : start config t root = .ok w) :
    ((w.follow trees).1.map (·.text) ++ (w.follow trees).2.faults.map (·.path)).Nodup := by
  obtain ⟨⟨named, _⟩, others⟩ := List.forall_mem_cons.mp proper
  obtain ⟨faulty, divides⟩ := divides_follow others (places_start named started)
  exact divides.nodup_told (faults_start started)

/-- The second of two files is taken away after the first was given: the first is given, the second
recorded. -/
theorem nodup_follow_removed :
    let file : Node := .file [] (.ofMicros 0)
    let before : Tree := ⟨.dir [("a.py", file), ("b.py", file)]⟩
    let after : Tree := ⟨.dir [("a.py", file)]⟩
    ∃ w, start ⟨[], ["py"], [], "", 9⟩ before ⟨"/", []⟩ = .ok w ∧
      (w.follow [before, after]).1.map (·.text) = ["/a.py"] ∧
      (w.follow [before, after]).2.faults.map (·.path) = ["/b.py"] ∧ ["/a.py", "/b.py"].Nodup := by
  intro file before after
  have proper : ∀ t ∈ before :: [before, after], t.Named ∧ t.Distinct := by decide
  have found : before.find ⟨"/", []⟩ = .ok before.top := by
    simp [Tree.find, Tree.place, Node.below?]
  have canonical : before.canonical ⟨"/", []⟩ = .ok ⟨"/", []⟩ := by
    simp [Tree.canonical, Tree.place, Except.map]
  have listed : before.list ⟨"/", []⟩ = .ok [("a.py", file), ("b.py", file)] := by
    simp only [Tree.list, found, before]
    rw [List.mergeSort_of_pairwise (by decide)]
  have present : before.look ⟨"/", ["a.py"]⟩ = .ok file := by
    simp [Tree.look, Tree.place, Node.below?, Node.entries, before, file]
  have gone : after.look ⟨"/", ["b.py"]⟩ = .error .missing := by
    simp [Tree.look, Tree.place, Node.below?, after, List.lookup_cons]
  let walk (current : Option Listing) (pending : List FilePath) (faults : List ScanFault) : Walk :=
    ⟨⟨[], ["py"], [], "", 9⟩, ⟨"/", []⟩, {}, current, pending, faults⟩
  let both : Listing := ⟨⟨"/", []⟩, [("a.py", file), ("b.py", file)], []⟩
  let second : Listing := ⟨⟨"/", []⟩, [("b.py", file)], []⟩
  let nothing : Listing := ⟨⟨"/", []⟩, [], []⟩
  let fault : ScanFault := ⟨"/b.py", "No such file or directory"⟩
  have started : start ⟨[], ["py"], [], "", 9⟩ before ⟨"/", []⟩ =
      .ok (walk none [⟨"/", []⟩] []) := by
    simp only [start, Tree.holds, Tree.isDir, found, canonical]
    rfl
  have opened : (walk none [⟨"/", []⟩] []).openNext before = walk (some both) [] [] := by
    simp only [openNext, walk, listed, both]
  have inspected : (walk (some second) [] []).inspect before "a.py" file ⟨"/", ["a.py"]⟩ =
      .give := by
    have admitted : (walk (some second) [] []).admits "a.py" ⟨"/", ["a.py"]⟩ = true := by decide
    simp only [inspect, file, admitted, present]
    rfl
  have inspected' : (walk (some nothing) [] []).inspect after "b.py" file ⟨"/", ["b.py"]⟩ =
      .fault .missing := by
    have admitted : (walk (some nothing) [] []).admits "b.py" ⟨"/", ["b.py"]⟩ = true := by decide
    simp only [inspect, file, admitted, gone]
    rfl
  have given : (walk (some both) [] []).inspectNext before both =
      (some ⟨"/", ["a.py"]⟩, walk (some second) [] []) := by
    simp only [walk, second] at inspected
    simp only [inspectNext, walk, both, List.nil_append, inspected, second]
  have recorded : (walk (some second) [] []).inspectNext after second =
      (none, walk (some nothing) [] [fault]) := by
    simp only [walk, nothing] at inspected'
    simp only [inspectNext, walk, second, List.nil_append, inspected']
    rfl
  have first : (walk none [⟨"/", []⟩] []).next before =
      (some ⟨"/", ["a.py"]⟩, walk (some second) [] []) := by
    show nextWithin before 12 ((walk none [⟨"/", []⟩] []).openNext before) = _
    rw [opened, nextWithin]
    simp only [walk] at given ⊢
    rw [given]
  have last : (walk (some second) [] []).next after = (none, walk none [] [fault]) := by
    show nextWithin after (18 + 1) _ = _
    rw [nextWithin]
    simp only [walk] at recorded ⊢
    rw [recorded]
    rfl
  have followed : (walk none [⟨"/", []⟩] []).follow [before, after] =
      ([⟨"/", ["a.py"]⟩], walk none [] [fault]) := by
    simp only [follow, first, last]
    rfl
  have told := nodup_follow proper started
  rw [followed] at told
  exact ⟨_, started, by rw [followed]; rfl, by rw [followed]; rfl, told⟩

end Walk

end CodeAtlas
