import TwirpClients.Proofs.Storage.FileTree

/-!
# Changes to a tree

Several entries are put into a tree one after the other. At each location the last of them counts,
so putting the same entries in again changes nothing, and their order does not matter if no two of
them disagree about a location.
-/

namespace TwirpClients.FileTree

variable {tree tree' : FileTree} {changes changes' : List (Location × Entry)}

def setAll (tree : FileTree) (changes : List (Location × Entry)) : FileTree :=
  changes.foldl (fun tree change => tree.set change.1 change.2) tree

theorem setAll_append (tree : FileTree) (changes changes' : List (Location × Entry)) :
    tree.setAll (changes ++ changes') = (tree.setAll changes).setAll changes' :=
  List.foldl_append

theorem here_setAll (tree : FileTree) (changes : List (Location × Entry)) :
    (tree.setAll changes).here = tree.here := by
  induction changes generalizing tree with
  | nil => rfl
  | cons change changes ih => exact ih (tree.set change.1 change.2)

theorem start_setAll (tree : FileTree) (changes : List (Location × Entry)) (path : Path) :
    (tree.setAll changes).start path = tree.start path :=
  start_of_here (here_setAll tree changes)

theorem eq_of_entries (hhere : tree'.here = tree.here)
    (hentries : ∀ location : Location, tree'.entries[location]? = tree.entries[location]?) :
    tree' = tree := by
  have hmap : tree'.entries = tree.entries := Std.ExtTreeMap.ext_getElem? hentries
  cases tree
  cases tree'
  cases hhere
  cases hmap
  rfl

theorem getElem?_set (tree : FileTree) (location : Location) (entry : Entry) (other : Location) :
    (tree.set location entry).entries[other]?
      = (List.lookup other [(location, entry)]).or tree.entries[other]? := by
  by_cases h : other = location
  · simp [set, h]
  · have hne : location ≠ other := Ne.symm h
    have htest : (other == location) = false := beq_false_of_ne h
    simp [set, List.lookup_cons, Std.ExtTreeMap.getElem?_insert, hne, htest]

/-- The last change at a location counts. -/
theorem getElem?_setAll (tree : FileTree) (changes : List (Location × Entry))
    (location : Location) :
    (tree.setAll changes).entries[location]?
      = (changes.reverse.lookup location).or tree.entries[location]? := by
  induction changes generalizing tree with
  | nil => rfl
  | cons change changes ih =>
    rw [List.reverse_cons, List.lookup_append, Option.or_assoc, ← getElem?_set]
    exact ih (tree.set change.1 change.2)

theorem setAll_setAll (tree : FileTree) (changes : List (Location × Entry)) :
    (tree.setAll changes).setAll changes = tree.setAll changes := by
  apply eq_of_entries (here_setAll _ changes)
  intro location
  rw [getElem?_setAll, getElem?_setAll, ← Option.or_assoc, Option.or_self]

theorem lookup_reverse_eq_some_iff
    (hone : ∀ a ∈ changes, ∀ b ∈ changes, a.1 = b.1 → a.2 = b.2) {location : Location}
    {entry : Entry} :
    changes.reverse.lookup location = some entry ↔ (location, entry) ∈ changes := by
  have hmem : ∀ {found}, changes.reverse.lookup location = some found →
      (location, found) ∈ changes := by
    intro found hfound
    obtain ⟨before, after, heq, -⟩ := List.lookup_eq_some_iff.1 hfound
    rw [← List.mem_reverse, heq]
    exact List.mem_append_right before List.mem_cons_self
  constructor
  · exact hmem
  · intro h
    cases hfound : changes.reverse.lookup location with
    | none =>
      have hne := List.lookup_eq_none_iff.1 hfound _ (List.mem_reverse.2 h)
      simp at hne
    | some found => exact congrArg some (hone _ (hmem hfound) _ h rfl)

/-- The order of changes does not matter if there is one for each location at most. -/
theorem setAll_congr (hsame : ∀ change, change ∈ changes' ↔ change ∈ changes)
    (hone : ∀ a ∈ changes, ∀ b ∈ changes, a.1 = b.1 → a.2 = b.2) :
    tree.setAll changes' = tree.setAll changes := by
  have hone' : ∀ a ∈ changes', ∀ b ∈ changes', a.1 = b.1 → a.2 = b.2 :=
    fun a ha b hb => hone a ((hsame a).1 ha) b ((hsame b).1 hb)
  apply eq_of_entries ((here_setAll tree changes').trans (here_setAll tree changes).symm)
  intro location
  have hlookup : changes'.reverse.lookup location = changes.reverse.lookup location := by
    apply Option.ext
    intro entry
    rw [lookup_reverse_eq_some_iff hone', lookup_reverse_eq_some_iff hone, hsame]
  rw [getElem?_setAll, getElem?_setAll, hlookup]

theorem set_eq_self {location : Location} {entry : Entry} (hroot : location ≠ [])
    (h : tree.get? location = some entry) : tree.set location entry = tree := by
  have hhere : (tree.set location entry).here = tree.here := rfl
  apply eq_of_entries hhere
  intro other
  rw [getElem?_set]
  by_cases hother : other = location
  · rw [get?, if_neg hroot] at h
    simp [hother, h]
  · have htest : (other == location) = false := beq_false_of_ne hother
    simp [List.lookup_cons, htest]

def directories (locations : List Location) : List (Location × Entry) :=
  locations.map fun location => (location, .directory)

theorem get?_setAll_directories {locations : List Location} (hroot : [] ∉ locations)
    (other : Location) :
    (tree.setAll (directories locations)).get? other
      = if other ∈ locations then some .directory else tree.get? other := by
  induction locations generalizing tree with
  | nil => rfl
  | cons location locations ih =>
    obtain ⟨hne, hroot⟩ := List.ne_and_not_mem_of_not_mem_cons hroot
    change ((tree.set location .directory).setAll (directories locations)).get? other = _
    rw [ih hroot, get?_set tree (Ne.symm hne)]
    by_cases hmem : other ∈ locations
    · simp [hmem]
    · simp [hmem]

theorem setAll_directories_eq_self {locations : List Location} (hroot : [] ∉ locations)
    (h : ∀ location ∈ locations, tree.get? location = some .directory) :
    tree.setAll (directories locations) = tree := by
  induction locations with
  | nil => rfl
  | cons location locations ih =>
    obtain ⟨hne, hroot⟩ := List.ne_and_not_mem_of_not_mem_cons hroot
    change (tree.set location .directory).setAll (directories locations) = tree
    rw [set_eq_self (Ne.symm hne) (h location List.mem_cons_self)]
    exact ih hroot fun other hother => h other (List.mem_cons_of_mem location hother)

end TwirpClients.FileTree
