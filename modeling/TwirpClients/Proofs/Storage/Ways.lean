import TwirpClients.Proofs.Storage.FileTree

/-!
# Ways through a tree

Where a path leads can be told from its segments alone. The tree only decides whether one gets
there: that needs a directory at each place where the path goes into a name, and no name that is too
long. If neither a file nor a long name is in the way, a walk can only fail because a directory is
missing.
-/

namespace TwirpClients.FileTree

variable {tree tree' : FileTree} {location final : Location} {segment : String}
  {segments others : List String}

def next (location : Location) (segment : String) : Location :=
  if Path.isIdle segment then location
  else if segment = ".." then location.dropLast
  else location ++ [segment]

/-- The place that a segment goes into by name. -/
def entered (location : Location) (segment : String) : List Location :=
  if Path.isIdle segment then [] else if segment = ".." then [] else [location ++ [segment]]

def follow (location : Location) (segments : List String) : Location :=
  segments.foldl next location

/-- All places that the segments go into by name. -/
def passed : Location → List String → List Location
  | _, [] => []
  | location, segment :: rest => entered location segment ++ passed (next location segment) rest

theorem follow_append (location : Location) (segments others : List String) :
    follow location (segments ++ others) = follow (follow location segments) others :=
  List.foldl_append

theorem passed_append (location : Location) (segments others : List String) :
    passed location (segments ++ others)
      = passed location segments ++ passed (follow location segments) others := by
  induction segments generalizing location with
  | nil => rfl
  | cons segment rest ih =>
    change _ ++ passed (next location segment) (rest ++ others) = _
    rw [ih, ← List.append_assoc]
    rfl

theorem passed_singleton (location : Location) (segment : String) :
    passed location [segment] = entered location segment :=
  List.append_nil _

theorem passed_name (location : Location) (hidle : Path.isIdle segment = false)
    (hup : segment ≠ "..") : passed location [segment] = [location ++ [segment]] := by
  simp [passed_singleton, entered, hidle, hup]

theorem nil_notMem_entered (location : Location) (segment : String) :
    [] ∉ entered location segment := by
  unfold entered
  split
  · simp
  · split <;> simp

theorem nil_notMem_passed (location : Location) (segments : List String) :
    [] ∉ passed location segments := by
  induction segments generalizing location with
  | nil => simp [passed]
  | cons segment rest ih =>
    rw [passed, List.mem_append, not_or]
    exact ⟨nil_notMem_entered location segment, ih (next location segment)⟩

theorem follow_of_down (hup : ".." ∉ segments) :
    follow location segments = location ++ segments.filter (!Path.isIdle ·) := by
  induction segments generalizing location with
  | nil => exact (List.append_nil _).symm
  | cons segment rest ih =>
    obtain ⟨hne, hrest⟩ := List.ne_and_not_mem_of_not_mem_cons hup
    change follow (next location segment) rest = _
    rw [ih hrest]
    cases hidle : Path.isIdle segment with
    | true => simp [next, hidle]
    | false => simp [next, hidle, Ne.symm hne]

theorem size_of_isIdle (hidle : Path.isIdle segment = true) :
    segment.utf8ByteSize ≤ maxNameSize := by
  have hdots : segment = "" ∨ segment = "." := by simpa [Path.isIdle] using hidle
  rcases hdots with rfl | rfl <;> decide

theorem enter_ok_iff_entered :
    tree.enter location segment = .ok final ↔
      segment.utf8ByteSize ≤ maxNameSize ∧
        (∀ place ∈ entered location segment, tree.get? place = some .directory) ∧
        final = next location segment := by
  rw [enter_ok_iff]
  cases hidle : Path.isIdle segment with
  | true => simp [entered, next, hidle, size_of_isIdle hidle]
  | false =>
    by_cases hup : segment = ".."
    · subst hup
      have hsize : "..".utf8ByteSize ≤ maxNameSize := by decide
      simp [entered, next, hidle, hsize]
    · simp only [entered, next, hidle, hup, child_ok_iff, Bool.false_eq_true, false_and, false_or,
        if_false, true_and, ne_eq, not_false_eq_true, List.mem_singleton, forall_eq]
      constructor
      · rintro ⟨⟨hsize, rfl⟩, hdirectory⟩
        exact ⟨hsize, hdirectory, rfl⟩
      · rintro ⟨hsize, hdirectory, rfl⟩
        exact ⟨⟨hsize, rfl⟩, hdirectory⟩

theorem walk_ok_iff :
    tree.walk location segments = .ok final ↔
      (∀ segment ∈ segments, segment.utf8ByteSize ≤ maxNameSize) ∧
        (∀ place ∈ passed location segments, tree.get? place = some .directory) ∧
        final = follow location segments := by
  induction segments generalizing location with
  | nil =>
    constructor
    · intro h
      cases h
      exact ⟨by simp, by simp [passed], rfl⟩
    · rintro ⟨-, -, rfl⟩
      rfl
  | cons segment rest ih =>
    rw [walk_cons_ok_iff, List.forall_mem_cons, passed, List.forall_mem_append]
    constructor
    · rintro ⟨place, henter, hrest⟩
      obtain ⟨hsize, hdirectory, rfl⟩ := enter_ok_iff_entered.1 henter
      obtain ⟨hsizes, hdirectories, hfinal⟩ := ih.1 hrest
      exact ⟨⟨hsize, hsizes⟩, ⟨hdirectory, hdirectories⟩, hfinal⟩
    · rintro ⟨⟨hsize, hsizes⟩, ⟨hdirectory, hdirectories⟩, hfinal⟩
      exact ⟨next location segment, enter_ok_iff_entered.2 ⟨hsize, hdirectory, rfl⟩,
        ih.2 ⟨hsizes, hdirectories, hfinal⟩⟩

def IsFile (tree : FileTree) (location : Location) : Prop :=
  ∃ content, tree.get? location = some (.file content)

theorem not_isFile_of_directory (h : tree.get? location = some .directory) :
    ¬ tree.IsFile location := by
  rintro ⟨content, hfile⟩
  rw [hfile] at h
  cases h

/-- Nothing but missing directories can stop one on this way. -/
structure Passable (tree : FileTree) (location : Location) (segments : List String) : Prop where
  short : ∀ segment ∈ segments, segment.utf8ByteSize ≤ maxNameSize
  free : ∀ place ∈ passed location segments, ¬ tree.IsFile place

theorem passable_append_iff :
    Passable tree location (segments ++ others) ↔
      Passable tree location segments ∧ Passable tree (follow location segments) others := by
  constructor
  · rintro ⟨hshort, hfree⟩
    rw [List.forall_mem_append] at hshort
    rw [passed_append, List.forall_mem_append] at hfree
    exact ⟨⟨hshort.1, hfree.1⟩, ⟨hshort.2, hfree.2⟩⟩
  · rintro ⟨⟨hshort, hfree⟩, hshort', hfree'⟩
    refine ⟨List.forall_mem_append.2 ⟨hshort, hshort'⟩, ?_⟩
    rw [passed_append]
    exact List.forall_mem_append.2 ⟨hfree, hfree'⟩

theorem passable_of_walk (h : tree.walk location segments = .ok final) :
    Passable tree location segments := by
  obtain ⟨hshort, hdirectories, -⟩ := walk_ok_iff.1 h
  exact ⟨hshort, fun place hplace => not_isFile_of_directory (hdirectories place hplace)⟩

theorem enter_of_passable (h : Passable tree location [segment]) :
    tree.enter location segment = .ok (next location segment) ∨
      tree.enter location segment = .error .notFound := by
  have hsize := h.short segment List.mem_cons_self
  have hfree := h.free
  rw [passed_singleton] at hfree
  by_cases hdirectory : ∀ place ∈ entered location segment, tree.get? place = some .directory
  · exact Or.inl (enter_ok_iff_entered.2 ⟨hsize, hdirectory, rfl⟩)
  · right
    unfold entered at hfree hdirectory
    cases hidle : Path.isIdle segment with
    | true => simp [hidle] at hdirectory
    | false =>
      by_cases hup : segment = ".."
      · simp [hup] at hdirectory
      · have hchild : child location segment = .ok (location ++ [segment]) :=
          child_ok_iff.2 ⟨hsize, rfl⟩
        simp only [hidle, hup, Bool.false_eq_true, if_false, List.mem_singleton, forall_eq]
          at hfree hdirectory
        cases hget : tree.get? (location ++ [segment]) with
        | none => simp [enter, hidle, hup, hchild, hget, bind, Except.bind]
        | some entry =>
          cases entry with
          | file content => exact absurd ⟨content, hget⟩ hfree
          | directory => exact absurd hget hdirectory

theorem walk_of_passable (h : Passable tree location segments) :
    tree.walk location segments = .ok (follow location segments) ∨
      tree.walk location segments = .error .notFound := by
  induction segments generalizing location with
  | nil => exact Or.inl rfl
  | cons segment rest ih =>
    rw [← List.singleton_append, passable_append_iff] at h
    unfold walk
    rw [List.foldlM_cons]
    rcases enter_of_passable h.1 with henter | henter
    · rw [henter]
      exact ih h.2
    · right
      rw [henter]
      rfl

end TwirpClients.FileTree
