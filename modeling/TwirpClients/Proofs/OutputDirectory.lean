import TwirpClients.OutputDirectory
import TwirpClients.Proofs.Storage.Below

/-!
# What is in the files that were written

Writing a file makes directories, which touches no file, and then puts the content at the place
where the name leads. A file written before is still there unless its name leads to the same place,
so in the end every place holds the content of the last file that was written to it.
-/

namespace TwirpClients

section LastWith

variable {α β : Type} {key : α → β}

def LastWith (key : α → β) (a : α) (as : List α) : Prop :=
  ∃ before after, as = before ++ a :: after ∧ key a ∉ after.map key

theorem LastWith.mem {a : α} {as : List α} (h : LastWith key a as) : a ∈ as := by
  obtain ⟨before, after, rfl, -⟩ := h
  exact List.mem_append_right before List.mem_cons_self

theorem lastWith_cons_iff {a first : α} {rest : List α} :
    LastWith key a (first :: rest) ↔
      (a = first ∧ key a ∉ rest.map key) ∨ LastWith key a rest := by
  constructor
  · rintro ⟨before, after, heq, hafter⟩
    cases before with
    | nil =>
      cases heq
      exact Or.inl ⟨rfl, hafter⟩
    | cons b before =>
      cases heq
      exact Or.inr ⟨before, after, rfl, hafter⟩
  · rintro (⟨rfl, hrest⟩ | ⟨before, after, rfl, hafter⟩)
    · exact ⟨[], rest, rfl, hrest⟩
    · exact ⟨first :: before, after, rfl, hafter⟩

theorem exists_lastWith {a : α} {as : List α} (h : a ∈ as) :
    ∃ last, LastWith key last as ∧ key last = key a := by
  induction as generalizing a with
  | nil => cases h
  | cons first rest ih =>
    by_cases hrest : key a ∈ rest.map key
    · obtain ⟨b, hb, hkey⟩ := List.mem_map.1 hrest
      obtain ⟨last, hlast, hk⟩ := ih hb
      exact ⟨last, lastWith_cons_iff.2 (Or.inr hlast), hk.trans hkey⟩
    · have hfirst : a = first := by
        rcases List.mem_cons.1 h with heq | hmem
        · exact heq
        · exact absurd (List.mem_map_of_mem hmem) hrest
      exact ⟨a, lastWith_cons_iff.2 (Or.inl ⟨hfirst, hrest⟩), rfl⟩

end LastWith

namespace GeneratedFile

def path (file : GeneratedFile) : Path := Path.ofText (file.name.getD "")

def bytes (file : GeneratedFile) : List UInt8 := (file.content.getD "").toUTF8.data.toList

end GeneratedFile

namespace OutputDirectory

variable {directory path : Path} {file : GeneratedFile} {tree tree' : FileTree}

def onTree {α : Type} (x : ExceptT Fault (StateM FileTree) α) (tree : FileTree) :
    Except Fault α × FileTree :=
  x.run.run tree

section OnTree

variable {α β : Type}

theorem onTree_pure (a : α) (tree : FileTree) : onTree (pure a) tree = (.ok a, tree) := rfl

theorem onTree_bind (x : ExceptT Fault (StateM FileTree) α)
    (f : α → ExceptT Fault (StateM FileTree) β) (tree : FileTree) :
    onTree (x >>= f) tree = match onTree x tree with
      | (.ok a, next) => onTree (f a) next
      | (.error fault, next) => (.error fault, next) := by
  unfold onTree
  rw [ExceptT.run_bind, StateT.run_bind]
  change (match x.run.run tree with | (result, next) => _) = _
  generalize x.run.run tree = result
  obtain ⟨result, next⟩ := result
  cases result <;> rfl

theorem onTree_step (operation : StateM FileTree (Except Failure α)) (tree : FileTree) :
    onTree (step operation) tree = match operation.run tree with
      | (.ok a, next) => (.ok a, next)
      | (.error failure, next) => (.error (.storage failure.message), next) := by
  unfold onTree step
  rw [ExceptT.run_mk, StateT.run_bind]
  change (match operation.run tree with | (result, next) => _) = _
  generalize operation.run tree = result
  obtain ⟨result, next⟩ := result
  cases result <;> rfl

theorem onTree_bind_ok_iff {x : ExceptT Fault (StateM FileTree) α}
    {f : α → ExceptT Fault (StateM FileTree) β} {b : β} :
    onTree (x >>= f) tree = (.ok b, tree') ↔
      ∃ a next, onTree x tree = (.ok a, next) ∧ onTree (f a) next = (.ok b, tree') := by
  rw [onTree_bind]
  obtain ⟨result, next⟩ := onTree x tree
  cases result with
  | error fault => simp
  | ok a =>
    constructor
    · intro h
      exact ⟨a, next, rfl, h⟩
    · rintro ⟨_, _, heq, h⟩
      cases heq
      exact h

theorem onTree_step_ok_iff {operation : StateM FileTree (Except Failure α)} {a : α} :
    onTree (step operation) tree = (.ok a, tree') ↔ operation.run tree = (.ok a, tree') := by
  rw [onTree_step]
  generalize operation.run tree = result
  obtain ⟨result, next⟩ := result
  constructor
  · intro h
    cases result with
    | error failure => cases h
    | ok b =>
      cases h
      rfl
  · intro h
    cases h
    rfl

end OnTree

theorem onTree_writeFile_of_refused (h : file.path.isConfined = false) :
    onTree (writeFile directory file) tree = (.error (refusal (file.name.getD "")), tree) := by
  have hrefused : (!(Path.ofText (file.name.getD "")).isConfined) = true := by
    rw [Bool.not_eq_true', ← h]
    rfl
  unfold writeFile
  rw [if_pos hrefused]
  rfl

theorem onTree_writeFile_of_confined (h : file.path.isConfined = true) :
    onTree (writeFile directory file) tree
      = onTree (do
          step (Storage.makeDirectories (directory.join file.path).parent)
          step (Storage.writeFile (directory.join file.path) file.bytes)
          return directory.join file.path) tree := by
  have hallowed : ¬ (!(Path.ofText (file.name.getD "")).isConfined) = true := by
    rw [Bool.not_eq_true', Bool.not_eq_false, ← h]
    rfl
  unfold writeFile
  rw [if_neg hallowed]
  rfl

theorem onTree_writeFile_ok_iff :
    onTree (writeFile directory file) tree = (.ok path, tree') ↔
      file.path.isConfined = true ∧ path = directory.join file.path ∧
        ∃ next,
          (Storage.makeDirectories path.parent : StateM FileTree _).run tree = (.ok (), next) ∧
          next.write path file.bytes = .ok tree' := by
  cases hconfined : file.path.isConfined with
  | false =>
    rw [onTree_writeFile_of_refused hconfined]
    simp
  | true =>
    rw [onTree_writeFile_of_confined hconfined]
    simp only [onTree_bind_ok_iff, onTree_step_ok_iff, onTree_pure, FileTree.writeFile_run,
      true_and]
    constructor
    · rintro ⟨_, next, hmake, _, final, hwrite, hpath⟩
      cases hpath
      refine ⟨rfl, next, hmake, ?_⟩
      split at hwrite
      · next hwritten =>
        cases hwrite
        exact hwritten
      · cases hwrite
    · rintro ⟨rfl, next, hmake, hwrite⟩
      exact ⟨(), next, hmake, (), tree', by rw [hwrite], rfl⟩

/-- What writing a file does to the tree: directories are added, then the content is put at the
place that the name leads to. -/
theorem effect_of_writeFile (h : onTree (writeFile directory file) tree = (.ok path, tree')) :
    ∃ next location, FileTree.Extends tree next ∧
      FileTree.Resolves next (directory.join file.path) location ∧
      next.get? location ≠ some .directory ∧ tree' = next.set location (.file file.bytes) := by
  obtain ⟨-, rfl, next, hmake, hwrite⟩ := onTree_writeFile_ok_iff.1 h
  obtain ⟨location, hresolves, hdirectory, htree⟩ := FileTree.write_ok_iff.1 hwrite
  have hextends := FileTree.extending_makeDirectories (directory.join file.path).parent tree
  rw [hmake] at hextends
  exact ⟨next, location, hextends, hresolves, hdirectory, htree⟩

theorem grows_of_writeFile (h : onTree (writeFile directory file) tree = (.ok path, tree')) :
    FileTree.Grows tree tree' := by
  obtain ⟨next, location, hextends, hresolves, hdirectory, rfl⟩ := effect_of_writeFile h
  exact hextends.grows.trans (FileTree.grows_set hresolves.ne_nil hdirectory _)

theorem read_of_writeFile (h : onTree (writeFile directory file) tree = (.ok path, tree')) :
    tree'.read (directory.join file.path) = .ok file.bytes := by
  obtain ⟨next, location, -, hresolves, hdirectory, rfl⟩ := effect_of_writeFile h
  have hgrows := FileTree.grows_set hresolves.ne_nil hdirectory (.file file.bytes)
  refine FileTree.read_ok_iff.2 ⟨location, hgrows.resolves hresolves, ?_⟩
  rw [FileTree.get?_set next hresolves.ne_nil, if_pos rfl]

/-- Another file is still there, with its content unless it is the same place. -/
theorem read_other_of_writeFile (h : onTree (writeFile directory file) tree = (.ok path, tree'))
    {other : Path} (hother : other.isConfined = true) {content : List UInt8}
    (hread : tree.read (directory.join other) = .ok content) :
    tree'.read (directory.join other)
      = .ok (if other.names = file.path.names then file.bytes else content) := by
  have hconfined := (onTree_writeFile_ok_iff.1 h).1
  have hgrows := grows_of_writeFile h
  obtain ⟨next, location, hextends, hresolves, -, rfl⟩ := effect_of_writeFile h
  obtain ⟨place, hplace, hfile⟩ := FileTree.read_ok_iff.1 hread
  obtain ⟨base, hbase, hlocation⟩ := hresolves.below hconfined
  obtain ⟨base', hbase', hplace'⟩ := hplace.below hother
  -- both places are below the same directory, so they are the same if the names are
  have hsame : place = location ↔ other.names = file.path.names := by
    rw [hextends.grows.base hbase'] at hbase
    cases hbase
    rw [hlocation, hplace', List.append_cancel_left_eq]
  refine FileTree.read_ok_iff.2 ⟨place, hgrows.resolves hplace, ?_⟩
  rw [FileTree.get?_set next hresolves.ne_nil, hextends.get? place _ hfile]
  simp only [hsame]
  split <;> rfl

section Files

variable {files : List GeneratedFile} {paths : List Path}

theorem onTree_writeFiles_cons_ok_iff :
    onTree (writeFiles directory (file :: files)) tree = (.ok paths, tree') ↔
      ∃ path next rest, onTree (writeFile directory file) tree = (.ok path, next) ∧
        onTree (writeFiles directory files) next = (.ok rest, tree') ∧ paths = path :: rest := by
  unfold writeFiles
  rw [List.mapM_cons]
  simp only [onTree_bind_ok_iff, onTree_pure]
  constructor
  · rintro ⟨path, next, hfile, rest, final, hrest, heq⟩
    cases heq
    exact ⟨path, next, rest, hfile, hrest, rfl⟩
  · rintro ⟨path, next, rest, hfile, hrest, rfl⟩
    exact ⟨path, next, hfile, rest, tree', hrest, rfl⟩

theorem read_of_names_notMem (h : onTree (writeFiles directory files) tree = (.ok paths, tree'))
    {other : Path} (hother : other.isConfined = true) {content : List UInt8}
    (hread : tree.read (directory.join other) = .ok content)
    (hnames : other.names ∉ files.map (·.path.names)) :
    tree'.read (directory.join other) = .ok content := by
  induction files generalizing tree paths with
  | nil =>
    cases h
    exact hread
  | cons file files ih =>
    obtain ⟨path, next, rest, hfile, hrest, -⟩ := onTree_writeFiles_cons_ok_iff.1 h
    obtain ⟨hne, hnot⟩ := List.ne_and_not_mem_of_not_mem_cons hnames
    have hnext := read_other_of_writeFile hfile hother hread
    rw [if_neg hne] at hnext
    exact ih hrest hnext hnot

theorem read_of_lastWith (h : onTree (writeFiles directory files) tree = (.ok paths, tree'))
    {other : Path} (hother : other.isConfined = true) {content : List UInt8}
    (hread : tree.read (directory.join other) = .ok content) {last : GeneratedFile}
    (hlast : LastWith (·.path.names) last files) (hnames : last.path.names = other.names) :
    tree'.read (directory.join other) = .ok last.bytes := by
  induction files generalizing tree paths content with
  | nil => cases hlast.mem
  | cons file files ih =>
    obtain ⟨path, next, rest, hfile, hrest, -⟩ := onTree_writeFiles_cons_ok_iff.1 h
    have hnext := read_other_of_writeFile hfile hother hread
    rcases lastWith_cons_iff.1 hlast with ⟨rfl, hnot⟩ | hlast
    · rw [if_pos hnames.symm] at hnext
      rw [hnames] at hnot
      exact read_of_names_notMem hrest hother hnext hnot
    · exact ih hrest hnext hlast

/-- When all files are written, each of them holds the content of the last one with its names. -/
theorem read_of_writeFiles (h : onTree (writeFiles directory files) tree = (.ok paths, tree'))
    (hfile : file ∈ files) {last : GeneratedFile} (hlast : LastWith (·.path.names) last files)
    (hnames : last.path.names = file.path.names) :
    tree'.read (directory.join file.path) = .ok last.bytes := by
  induction files generalizing tree paths with
  | nil => cases hfile
  | cons first files ih =>
    obtain ⟨path, next, rest, hfirst, hrest, -⟩ := onTree_writeFiles_cons_ok_iff.1 h
    have hconfined := (onTree_writeFile_ok_iff.1 hfirst).1
    have hnext := read_of_writeFile hfirst
    rcases lastWith_cons_iff.1 hlast with ⟨rfl, hnot⟩ | hlater
    · -- nothing behind it has its names, so the file is the first one as well
      rcases List.mem_cons.1 hfile with rfl | hmem
      · exact read_of_names_notMem hrest hconfined hnext hnot
      · exact absurd (List.mem_map.2 ⟨file, hmem, hnames.symm⟩) hnot
    · rcases List.mem_cons.1 hfile with rfl | hmem
      · exact read_of_lastWith hrest hconfined hnext hlater hnames
      · exact ih hrest hmem hlater

end Files

end OutputDirectory
end TwirpClients
