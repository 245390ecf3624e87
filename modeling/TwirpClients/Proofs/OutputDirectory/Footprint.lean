import Mathlib.Data.List.Nodup
import TwirpClients.Proofs.OutputDirectory.InOrder
import TwirpClients.Proofs.Storage.MakingDirectories

/-!
# What a run needs and what it leaves

Writing a file asks for two things: a directory, or nothing, at each place on the way, and no
directory at the place where the way ends. If it is given these, the tree afterwards has directories
on the way and the file at the end of it, whatever was there before. A run of several files asks for
the same of all files together, and that none of them ends on the way of another. This
says nothing about the order of the files, so a run that succeeds does so again, and in every other
order.
-/

namespace TwirpClients

namespace Path

theorem segments_parent {path : Path} {above : List String} {name : String}
    (hsegments : path.segments = above ++ [name]) (hidle : isIdle name = false) :
    path.parent.segments = above := by
  simp [parent, hsegments, hidle]

/-- The parts of a path by which it is compared with others, the root and a dot at the front
included. -/
def components (path : Path) : List String :=
  if path.isAbsolute then "/" :: path.names
  else if path.segments.head? = some "." then "." :: path.names
  else path.names

theorem components_of_isConfined {path : Path} (h : path.isConfined = true) :
    path.components = path.names := by
  obtain ⟨⟨first, rest, hsegments, hidle⟩, -⟩ := isConfined_iff.1 h
  have hfirst := isIdle_eq_false_iff.1 hidle
  simp [components, isAbsolute, hsegments, hfirst]

end Path

namespace FileTree

variable {tree tree' : FileTree} {path other : Path} {location : Location} {content : List UInt8}

def waypoints (tree : FileTree) (path : Path) : List Location :=
  passed (tree.start path) path.parent.segments

def destination (tree : FileTree) (path : Path) : Location :=
  follow (tree.start path) path.segments

def changes (tree : FileTree) (path : Path) (content : List UInt8) : List (Location × Entry) :=
  directories (tree.waypoints path) ++ [(tree.destination path, .file content)]

/-- The tree lets a file be written. -/
structure Accepts (tree : FileTree) (path : Path) : Prop where
  valid : check path = .ok ()
  named : ∃ name, path.segments = path.parent.segments ++ [name] ∧ Path.isIdle name = false ∧
    name ≠ ".."
  short : ∀ segment ∈ path.segments, segment.utf8ByteSize ≤ maxNameSize
  apart : tree.destination path ∉ tree.waypoints path
  free : ∀ place ∈ tree.waypoints path, ¬ tree.IsFile place
  vacant : tree.get? (tree.destination path) ≠ some .directory

theorem destination_of_named {name : String}
    (hsegments : path.segments = path.parent.segments ++ [name])
    (hidle : Path.isIdle name = false) (hup : name ≠ "..") :
    tree.destination path = follow (tree.start path) path.parent.segments ++ [name] := by
  rw [destination, hsegments, follow_append]
  simp [follow, next, hidle, hup]

theorem nil_notMem_waypoints (tree : FileTree) (path : Path) : [] ∉ tree.waypoints path :=
  nil_notMem_passed _ _

theorem waypoints_setAll (tree : FileTree) (changes : List (Location × Entry)) (path : Path) :
    (tree.setAll changes).waypoints path = tree.waypoints path := by
  rw [waypoints, start_setAll, waypoints]

theorem destination_setAll (tree : FileTree) (changes : List (Location × Entry)) (path : Path) :
    (tree.setAll changes).destination path = tree.destination path := by
  rw [destination, start_setAll, destination]

theorem changes_setAll (tree : FileTree) (others : List (Location × Entry)) (path : Path)
    (content : List UInt8) :
    (tree.setAll others).changes path content = tree.changes path content := by
  rw [changes, waypoints_setAll, destination_setAll, changes]

theorem makeDirectories_parent_ok_iff (hvalid : check path = .ok ()) :
    (Storage.makeDirectories path.parent : StateM FileTree _).run tree = (.ok (), tree') ↔
      Passable tree (tree.start path) path.parent.segments ∧
        tree' = tree.setAll (directories (tree.waypoints path)) := by
  have hway : path.parent.segments.reverse.reverse <+: path.segments := by
    rw [List.reverse_reverse]
    exact path.parent_isPrefix
  rw [Storage.makeDirectories, makeDirectoriesAux_ok_iff hvalid hway, List.reverse_reverse]
  rfl

/-- A file is written, with all directories on the way made, if and only if the tree accepts it. -/
theorem made_and_written_iff :
    (∃ next, (Storage.makeDirectories path.parent : StateM FileTree _).run tree = (.ok (), next) ∧
        next.write path content = .ok tree') ↔
      Accepts tree path ∧ tree' = tree.setAll (tree.changes path content) := by
  have hroot := nil_notMem_waypoints tree path
  constructor
  · rintro ⟨next, hmake, hwrite⟩
    obtain ⟨place, hresolves, hvacant, rfl⟩ := write_ok_iff.1 hwrite
    obtain ⟨hvalid, above, name, directory, hsegments, hidle, hup, hwalk, hchild⟩ :=
      resolves_iff.1 hresolves
    obtain rfl := Path.segments_parent hsegments hidle
    obtain ⟨hpassable, rfl⟩ := (makeDirectories_parent_ok_iff hvalid).1 hmake
    rw [start_setAll] at hwalk
    obtain ⟨hshort, -, rfl⟩ := walk_ok_iff.1 hwalk
    obtain ⟨hsize, rfl⟩ := child_ok_iff.1 hchild
    rw [← destination_of_named hsegments hidle hup] at hvacant ⊢
    rw [get?_setAll_directories hroot] at hvacant
    -- the way can come past its own end, as in `a/../a`, and then a directory was made there
    have hapart : tree.destination path ∉ tree.waypoints path := by
      intro hmem
      rw [if_pos hmem] at hvacant
      exact hvacant rfl
    rw [if_neg hapart] at hvacant
    refine ⟨⟨hvalid, ⟨name, hsegments, hidle, hup⟩, ?_, hapart, hpassable.free, hvacant⟩, ?_⟩
    · rw [hsegments, List.forall_mem_append, List.forall_mem_singleton]
      exact ⟨hshort, hsize⟩
    · rw [changes, setAll_append]
      rfl
  · rintro ⟨⟨hvalid, ⟨name, hsegments, hidle, hup⟩, hshort, hapart, hfree, hvacant⟩, rfl⟩
    rw [hsegments, List.forall_mem_append, List.forall_mem_singleton] at hshort
    have hpassable : Passable tree (tree.start path) path.parent.segments := ⟨hshort.1, hfree⟩
    have hresolves : Resolves (tree.setAll (directories (tree.waypoints path))) path
        (tree.destination path) := by
      refine resolves_iff.2 ⟨hvalid, path.parent.segments, name, _, hsegments, hidle, hup, ?_,
        child_ok_iff.2 ⟨hshort.2, destination_of_named hsegments hidle hup⟩⟩
      rw [start_setAll]
      exact walk_setAll_directories hpassable
    refine ⟨tree.setAll (directories (tree.waypoints path)),
      (makeDirectories_parent_ok_iff hvalid).2 ⟨hpassable, rfl⟩,
      write_ok_iff.2 ⟨tree.destination path, hresolves, ?_, ?_⟩⟩
    · rw [get?_setAll_directories hroot, if_neg hapart]
      exact hvacant
    · rw [changes, setAll_append]
      rfl

theorem Accepts.destination_ne_nil (h : Accepts tree path) : tree.destination path ≠ [] := by
  obtain ⟨name, hsegments, hidle, hup⟩ := h.named
  rw [destination_of_named hsegments hidle hup]
  simp

theorem get?_setAll_changes (h : Accepts tree path) (location : Location) :
    (tree.setAll (tree.changes path content)).get? location
      = if location = tree.destination path then some (.file content)
        else if location ∈ tree.waypoints path then some .directory
        else tree.get? location := by
  have hset := get?_set (tree.setAll (directories (tree.waypoints path))) h.destination_ne_nil
    (.file content) location
  rw [get?_setAll_directories (nil_notMem_waypoints tree path)] at hset
  rw [changes, setAll_append]
  exact hset

theorem isFile_setAll_changes_iff (h : Accepts tree path) :
    (tree.setAll (tree.changes path content)).IsFile location ↔
      location = tree.destination path ∨ tree.IsFile location := by
  unfold IsFile
  rw [get?_setAll_changes h]
  by_cases hend : location = tree.destination path
  · simp [hend]
  · by_cases hway : location ∈ tree.waypoints path
    · have hnot := h.free location hway
      unfold IsFile at hnot
      simp [hend, hway, hnot]
    · simp [hend, hway]

theorem isDirectory_setAll_changes_iff (h : Accepts tree path) :
    (tree.setAll (tree.changes path content)).get? location = some .directory ↔
      location ∈ tree.waypoints path ∨ tree.get? location = some .directory := by
  rw [get?_setAll_changes h]
  by_cases hend : location = tree.destination path
  · simp [hend, h.apart, h.vacant]
  · by_cases hway : location ∈ tree.waypoints path
    · simp [hend, hway]
    · simp [hend, hway]

theorem Accepts.setAll {others : List (Location × Entry)} (h : Accepts tree path)
    (hfree : ∀ place ∈ tree.waypoints path, ¬ (tree.setAll others).IsFile place)
    (hvacant : (tree.setAll others).get? (tree.destination path) ≠ some .directory) :
    Accepts (tree.setAll others) path where
  valid := h.valid
  named := h.named
  short := h.short
  apart := by
    rw [waypoints_setAll, destination_setAll]
    exact h.apart
  free := by
    rw [waypoints_setAll]
    exact hfree
  vacant := by
    rw [destination_setAll]
    exact hvacant

/-- After a file was written the tree accepts what it accepted before, but for files on whose way
the first one is and files that end on the way of the first one. -/
theorem accepts_setAll_changes_iff (h : Accepts tree path) :
    Accepts (tree.setAll (tree.changes path content)) other ↔
      Accepts tree other ∧ tree.destination path ∉ tree.waypoints other ∧
        tree.destination other ∉ tree.waypoints path := by
  constructor
  · rintro ⟨hvalid, hnamed, hshort, hapart, hfree, hvacant⟩
    rw [waypoints_setAll, destination_setAll] at hapart
    rw [waypoints_setAll] at hfree
    rw [destination_setAll, Ne, isDirectory_setAll_changes_iff h, not_or] at hvacant
    refine ⟨⟨hvalid, hnamed, hshort, hapart, ?_, hvacant.2⟩, ?_, hvacant.1⟩
    · intro place hplace hfile
      exact hfree place hplace ((isFile_setAll_changes_iff h).2 (Or.inr hfile))
    · intro hmem
      exact hfree _ hmem ((isFile_setAll_changes_iff h).2 (Or.inl rfl))
  · rintro ⟨hother, hbefore, hafter⟩
    apply hother.setAll
    · intro place hplace hfile
      rcases (isFile_setAll_changes_iff h).1 hfile with rfl | hfile
      · exact hbefore hplace
      · exact hother.free place hplace hfile
    · rw [Ne, isDirectory_setAll_changes_iff h, not_or]
      exact ⟨hafter, hother.vacant⟩

theorem destination_join (tree : FileTree) (directory : Path) {name : Path}
    (hname : name.isConfined = true) :
    tree.destination (directory.join name)
      = follow (if directory.opening.head? = some "" then [] else tree.here) directory.opening
          ++ name.names := by
  have hdown := (Path.isConfined_iff.1 hname).2
  rw [destination, start_join hname]
  change follow _ (directory.opening ++ name.segments) = _
  rw [follow_append, follow_of_down hdown]
  rfl

end FileTree

namespace OutputDirectory

open FileTree (Accepts)

variable {directory path : Path} {file : GeneratedFile} {files files' : List GeneratedFile}
  {paths : List Path} {tree tree' : FileTree} {location : Location}

def changes (directory : Path) (tree : FileTree) (file : GeneratedFile) :
    List (Location × Entry) :=
  tree.changes (directory.join file.path) file.bytes

/-- The tree lets all files be written, and no file ends on the way of another one. -/
structure Compatible (directory : Path) (files : List GeneratedFile) (tree : FileTree) : Prop where
  confined : ∀ file ∈ files, file.path.isConfined = true
  accepts : ∀ file ∈ files, Accepts tree (directory.join file.path)
  apart : ∀ file ∈ files, ∀ other ∈ files,
    tree.destination (directory.join file.path) ∉ tree.waypoints (directory.join other.path)

theorem writeFile_ok_iff :
    onTree (writeFile directory file) tree = (.ok path, tree') ↔
      file.path.isConfined = true ∧ path = directory.join file.path ∧ Accepts tree path ∧
        tree' = tree.setAll (changes directory tree file) := by
  rw [onTree_writeFile_ok_iff]
  constructor
  · rintro ⟨hconfined, rfl, hwritten⟩
    exact ⟨hconfined, rfl, FileTree.made_and_written_iff.1 hwritten⟩
  · rintro ⟨hconfined, rfl, hwritten⟩
    exact ⟨hconfined, rfl, FileTree.made_and_written_iff.2 hwritten⟩

theorem compatible_cons_iff :
    Compatible directory (file :: files) tree ↔
      file.path.isConfined = true ∧ Accepts tree (directory.join file.path) ∧
        Compatible directory files (tree.setAll (changes directory tree file)) := by
  constructor
  · rintro ⟨hconfined, haccepts, hapart⟩
    rw [List.forall_mem_cons] at hconfined haccepts hapart
    refine ⟨hconfined.1, haccepts.1, hconfined.2, ?_, ?_⟩
    · intro other hother
      exact (FileTree.accepts_setAll_changes_iff haccepts.1).2 ⟨haccepts.2 other hother,
        hapart.1 other (List.mem_cons_of_mem file hother),
        hapart.2 other hother file List.mem_cons_self⟩
    · intro other hother another hanother
      rw [FileTree.destination_setAll, FileTree.waypoints_setAll]
      exact hapart.2 other hother another (List.mem_cons_of_mem file hanother)
  · rintro ⟨hconfined, haccepts, hrest⟩
    have hothers := fun other hother =>
      (FileTree.accepts_setAll_changes_iff haccepts).1 (hrest.accepts other hother)
    refine ⟨List.forall_mem_cons.2 ⟨hconfined, hrest.confined⟩,
      List.forall_mem_cons.2 ⟨haccepts, fun other hother => (hothers other hother).1⟩, ?_⟩
    rw [List.forall_mem_cons]
    constructor
    · rw [List.forall_mem_cons]
      exact ⟨haccepts.apart, fun other hother => (hothers other hother).2.1⟩
    · intro other hother
      rw [List.forall_mem_cons]
      refine ⟨(hothers other hother).2.2, fun another hanother => ?_⟩
      have hapart := hrest.apart other hother another hanother
      rw [FileTree.destination_setAll, FileTree.waypoints_setAll] at hapart
      exact hapart

theorem changes_setAll (directory : Path) (tree : FileTree) (others : List (Location × Entry)) :
    changes directory (tree.setAll others) = changes directory tree := by
  funext file
  exact FileTree.changes_setAll tree others _ _

theorem setAll_changes_cons (directory : Path) (tree : FileTree) (file : GeneratedFile)
    (files : List GeneratedFile) :
    tree.setAll ((file :: files).flatMap (changes directory tree))
      = (tree.setAll (changes directory tree file)).setAll
          (files.flatMap (changes directory (tree.setAll (changes directory tree file)))) := by
  rw [List.flatMap_cons, FileTree.setAll_append, changes_setAll]

/-- A run succeeds if and only if the tree is fit for all of its files, and then the changes of the
files are made one after the other. -/
theorem writeFiles_ok_iff :
    onTree (writeFiles directory files) tree = (.ok paths, tree') ↔
      Compatible directory files tree ∧
        paths = files.map (fun file => directory.join file.path) ∧
        tree' = tree.setAll (files.flatMap (changes directory tree)) := by
  induction files generalizing tree paths with
  | nil =>
    constructor
    · intro h
      cases h
      exact ⟨⟨by simp, by simp, by simp⟩, rfl, rfl⟩
    · rintro ⟨-, rfl, rfl⟩
      rfl
  | cons file files ih =>
    rw [onTree_writeFiles_cons_ok_iff, compatible_cons_iff, setAll_changes_cons]
    constructor
    · rintro ⟨path, next, rest, hfile, hrest, rfl⟩
      obtain ⟨hconfined, rfl, haccepts, rfl⟩ := writeFile_ok_iff.1 hfile
      obtain ⟨hcompatible, rfl, htree⟩ := ih.1 hrest
      exact ⟨⟨hconfined, haccepts, hcompatible⟩, rfl, htree⟩
    · rintro ⟨⟨hconfined, haccepts, hcompatible⟩, rfl, htree⟩
      exact ⟨_, _, _, writeFile_ok_iff.2 ⟨hconfined, rfl, haccepts, rfl⟩,
        ih.2 ⟨hcompatible, rfl, htree⟩, rfl⟩

theorem isFile_after_iff (h : Compatible directory files tree) :
    (tree.setAll (files.flatMap (changes directory tree))).IsFile location ↔
      (∃ file ∈ files, location = tree.destination (directory.join file.path)) ∨
        tree.IsFile location := by
  induction files generalizing tree with
  | nil => simp [FileTree.setAll]
  | cons file files ih =>
    obtain ⟨-, haccepts, hrest⟩ := compatible_cons_iff.1 h
    rw [setAll_changes_cons, ih hrest, changes, FileTree.isFile_setAll_changes_iff haccepts,
      List.exists_mem_cons_iff, or_left_comm, or_assoc]
    simp only [FileTree.destination_setAll]

theorem isDirectory_after_iff (h : Compatible directory files tree) :
    (tree.setAll (files.flatMap (changes directory tree))).get? location = some .directory ↔
      (∃ file ∈ files, location ∈ tree.waypoints (directory.join file.path)) ∨
        tree.get? location = some .directory := by
  induction files generalizing tree with
  | nil => simp [FileTree.setAll]
  | cons file files ih =>
    obtain ⟨-, haccepts, hrest⟩ := compatible_cons_iff.1 h
    rw [setAll_changes_cons, ih hrest, changes, FileTree.isDirectory_setAll_changes_iff haccepts,
      List.exists_mem_cons_iff, or_left_comm, or_assoc]
    simp only [FileTree.waypoints_setAll]

theorem Compatible.after (h : Compatible directory files tree) :
    Compatible directory files (tree.setAll (files.flatMap (changes directory tree))) := by
  refine ⟨h.confined, ?_, ?_⟩
  · intro file hfile
    have haccepts := h.accepts file hfile
    apply haccepts.setAll
    · intro place hplace hwritten
      rcases (isFile_after_iff h).1 hwritten with ⟨other, hother, rfl⟩ | hbefore
      · exact h.apart other hother file hfile hplace
      · exact haccepts.free place hplace hbefore
    · rw [Ne, isDirectory_after_iff h]
      rintro (⟨other, hother, hmade⟩ | hbefore)
      · exact h.apart file hfile other hother hmade
      · exact haccepts.vacant hbefore
  · intro file hfile other hother
    rw [FileTree.destination_setAll, FileTree.waypoints_setAll]
    exact h.apart file hfile other hother

/-- A run that has succeeded succeeds again on what it left, and changes nothing there. -/
theorem writeFiles_again (h : onTree (writeFiles directory files) tree = (.ok paths, tree')) :
    onTree (writeFiles directory files) tree' = (.ok paths, tree') := by
  obtain ⟨hcompatible, hpaths, rfl⟩ := writeFiles_ok_iff.1 h
  refine writeFiles_ok_iff.2 ⟨hcompatible.after, hpaths, ?_⟩
  rw [changes_setAll, FileTree.setAll_setAll]

/-- The third file is written over the first one. -/
def overwritingFiles : List GeneratedFile :=
  [⟨some "v1/a", some "x"⟩, ⟨some "b", some "y"⟩, ⟨some "v1//a", none⟩]

theorem writeFiles_again_overwriting :
    ∃ paths tree',
      onTree (writeFiles (Path.ofText "tmp/../gen") overwritingFiles) {} = (.ok paths, tree') ∧
      onTree (writeFiles (Path.ofText "tmp/../gen") overwritingFiles) tree' = (.ok paths, tree') := by
  have hok :
      (onTree (writeFiles (Path.ofText "tmp/../gen") overwritingFiles) {}).1.isOk = true := by
    decide +kernel
  cases hrun : onTree (writeFiles (Path.ofText "tmp/../gen") overwritingFiles) {} with
  | mk result tree' =>
    rw [hrun] at hok
    cases result with
    | error fault => cases hok
    | ok paths => exact ⟨paths, tree', rfl, writeFiles_again hrun⟩

theorem Compatible.of_subset (h : Compatible directory files tree)
    (hsubset : ∀ file ∈ files', file ∈ files) : Compatible directory files' tree where
  confined file hfile := h.confined file (hsubset file hfile)
  accepts file hfile := h.accepts file (hsubset file hfile)
  apart file hfile other hother := h.apart file (hsubset file hfile) other (hsubset other hother)

theorem mem_changes_iff {change : Location × Entry} :
    change ∈ changes directory tree file ↔
      change.1 ∈ tree.waypoints (directory.join file.path) ∧ change.2 = .directory ∨
        change.1 = tree.destination (directory.join file.path) ∧ change.2 = .file file.bytes := by
  obtain ⟨location, entry⟩ := change
  simp [changes, FileTree.changes, FileTree.directories, eq_comm]

/-- Files with different names have no different changes for one place. -/
theorem Compatible.changes_agree (h : Compatible directory files tree)
    (hdistinct : (files.map (·.path.names)).Nodup) {a b : Location × Entry}
    (ha : a ∈ files.flatMap (changes directory tree))
    (hb : b ∈ files.flatMap (changes directory tree)) (hplace : a.1 = b.1) : a.2 = b.2 := by
  obtain ⟨file, hfile, ha⟩ := List.mem_flatMap.1 ha
  obtain ⟨other, hother, hb⟩ := List.mem_flatMap.1 hb
  -- a directory and a file at one place would be a file on the way of another one
  rcases mem_changes_iff.1 ha with ⟨haway, ha⟩ | ⟨haend, ha⟩
  · rcases mem_changes_iff.1 hb with ⟨hbway, hb⟩ | ⟨hbend, hb⟩
    · rw [ha, hb]
    · rw [hplace, hbend] at haway
      exact absurd haway (h.apart other hother file hfile)
  · rcases mem_changes_iff.1 hb with ⟨hbway, hb⟩ | ⟨hbend, hb⟩
    · rw [← hplace, haend] at hbway
      exact absurd hbway (h.apart file hfile other hother)
    · rw [haend, hbend, FileTree.destination_join tree directory (h.confined file hfile),
        FileTree.destination_join tree directory (h.confined other hother),
        List.append_cancel_left_eq] at hplace
      rw [ha, hb, List.inj_on_of_nodup_map hdistinct hfile hother hplace]

/-- Files with different names can be written in any order: if they are written in one order,
so they are in every other one, with the same tree as a result and the same path for each file. -/
theorem writeFiles_perm (hdistinct : (files.map (·.path.components)).Nodup)
    (hperm : files'.Perm files)
    (h : onTree (writeFiles directory files) tree = (.ok paths, tree')) :
    ∃ paths', onTree (writeFiles directory files') tree = (.ok paths', tree') ∧
      paths'.length = files'.length ∧ (files'.zip paths').Perm (files.zip paths) := by
  obtain ⟨hcompatible, rfl, rfl⟩ := writeFiles_ok_iff.1 h
  have hnames : files.map (·.path.components) = files.map (·.path.names) :=
    List.map_congr_left fun file hfile =>
      Path.components_of_isConfined (hcompatible.confined file hfile)
  rw [hnames] at hdistinct
  have hzip : ∀ files : List GeneratedFile,
      files.zip (files.map fun file => directory.join file.path)
        = files.map fun file => (file, directory.join file.path) := by
    intro files
    have hzip := @List.zip_map' _ _ _ id (fun file => directory.join file.path) files
    rwa [List.map_id] at hzip
  refine ⟨files'.map fun file => directory.join file.path, ?_, List.length_map _, ?_⟩
  · refine writeFiles_ok_iff.2 ⟨hcompatible.of_subset fun file => hperm.mem_iff.1, rfl, ?_⟩
    symm
    apply FileTree.setAll_congr
    · intro change
      simp only [List.mem_flatMap, hperm.mem_iff]
    · intro a ha b hb
      exact hcompatible.changes_agree hdistinct ha hb
  · rw [hzip, hzip]
    exact hperm.map _

def siblingFiles : List GeneratedFile :=
  [⟨some "v1/a", some "x"⟩, ⟨some "v1/b/c", none⟩, ⟨some "b", some "y"⟩]

theorem writeFiles_perm_sibling :
    ∃ paths paths' tree',
      onTree (writeFiles (Path.ofText "gen") siblingFiles) {} = (.ok paths, tree') ∧
      onTree (writeFiles (Path.ofText "gen") siblingFiles.reverse) {} = (.ok paths', tree') ∧
      (siblingFiles.reverse.zip paths').Perm (siblingFiles.zip paths) := by
  have hok : (onTree (writeFiles (Path.ofText "gen") siblingFiles) {}).1.isOk = true := by
    decide +kernel
  have hdistinct : (siblingFiles.map (·.path.components)).Nodup := by decide +kernel
  cases hrun : onTree (writeFiles (Path.ofText "gen") siblingFiles) {} with
  | mk result tree' =>
    rw [hrun] at hok
    cases result with
    | error fault => cases hok
    | ok paths =>
      obtain ⟨paths', hrun', -, hzip⟩ :=
        writeFiles_perm hdistinct (List.reverse_perm siblingFiles) hrun
      exact ⟨paths, paths', tree', rfl, hrun', hzip⟩

/-- A file on the way of another one fails in both orders, for different reasons. -/
example :
    (onTree (writeFiles (Path.ofText "gen") [⟨some "a", none⟩, ⟨some "a/b", none⟩]) {}).1
        = .error (.storage "File exists (os error 17)") ∧
      (onTree (writeFiles (Path.ofText "gen") [⟨some "a/b", none⟩, ⟨some "a", none⟩]) {}).1
        = .error (.storage "Is a directory (os error 21)") := by
  decide +kernel

end OutputDirectory
end TwirpClients
