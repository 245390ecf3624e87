import Mathlib.Data.List.Forall2
import TwirpClients.Proofs.OutputDirectory.Confinement

/-!
# Files are written in order

A run writes one file after the other and ends at the first that cannot be written. Writing a file
puts its content at one place, and all it does beside that is to make directories on the
way there; a file that cannot be written leaves only such directories behind. So after a run that
succeeds every place has what the last file for it brought, and after one that fails all files are
as the run of the files before the failing one left them.
-/

namespace TwirpClients

namespace Path

/-- The text of a name behind that of a directory, with a slash between them unless one is
there or the directory has no text. -/
def spelled (directory name : String) : String :=
  if directory = "" ∨ directory.toList.getLast? = some '/' then directory ++ name
  else directory ++ "/" ++ name

theorem segments_ofText_slash (before after : String) :
    (ofText (before ++ "/" ++ after)).segments
      = (ofText before).segments ++ (ofText after).segments := by
  have htext : (before ++ "/" ++ after).toList = before.toList ++ '/' :: after.toList := by simp
  rw [ofText, htext, List.splitOn_append_cons_self, List.map_append]
  rfl

theorem getLast?_segments_eq_empty_iff (text : String) :
    (ofText text).segments.getLast? = some "" ↔ text = "" ∨ text.toList.getLast? = some '/' := by
  rw [← String.toList_eq_nil_iff, ← Text.afterLast_eq_nil_iff, ofText, List.getLast?_map,
    Text.getLast?_splitOn, Option.map_some, Option.some_inj, String.ofList_eq_empty_iff]

theorem join_ofText (directory name : String) :
    (ofText directory).join (ofText name) = ofText (spelled directory name) := by
  have hend := getLast?_segments_eq_empty_iff directory
  by_cases h : directory = "" ∨ directory.toList.getLast? = some '/'
  · rw [spelled, if_pos h, join, if_pos (hend.2 h)]
    rcases h with rfl | hslash
    · rw [String.empty_append]
      rfl
    · -- the text behind the last slash is empty, and it is the segment that is left out
      obtain ⟨before, hbefore⟩ := List.getLast?_eq_some_iff.1 hslash
      have hdirectory : directory = String.ofList before ++ "/" := by
        rw [← String.toList_inj, hbefore]
        simp
      have hsegments := segments_ofText_slash (String.ofList before) ""
      rw [String.append_empty, ← hdirectory] at hsegments
      change _ = _ ++ [""] at hsegments
      rw [hsegments, List.dropLast_concat, hdirectory, ← segments_ofText_slash]
  · have hlast : ¬ (ofText directory).segments.getLast? = some "" := fun heq => h (hend.1 heq)
    rw [spelled, if_neg h, join, if_neg hlast, ← segments_ofText_slash]

end Path

namespace FileTree

/-- The tree has the same files, and more directories at most: some that were missing on the way to
the path, short of where it ends. -/
structure Paved (path : Path) (tree tree' : FileTree) : Prop where
  keeps : Extends tree tree'
  made : ∀ location, tree'.get? location ≠ tree.get? location →
    tree.get? location = none ∧ tree'.get? location = some .directory ∧
      ∃ segments, segments <+: path.parent.segments ∧
        tree'.walk (tree'.start path) segments = .ok location

variable {path : Path} {tree tree' : FileTree}

theorem chains_paved (path : Path) : Chains (Paved path) where
  refl tree := ⟨Extends.refl tree, fun _ hne => absurd rfl hne⟩
  trans := by
    intro t₁ t₂ t₃ h h'
    refine ⟨h.keeps.trans h'.keeps, ?_⟩
    intro location hne
    by_cases h₁₂ : t₂.get? location = t₁.get? location
    · rw [← h₁₂] at hne ⊢
      exact h'.made location hne
    · obtain ⟨hmissing, hdirectory, segments, hway, hwalk⟩ := h.made location h₁₂
      refine ⟨hmissing, h'.keeps.get? location _ hdirectory, segments, hway, ?_⟩
      rw [start_of_here h'.keeps.here]
      exact h'.keeps.grows.walk hwalk

theorem paved_of_makeDirectory {above : List String} {last : String}
    (hidle : Path.isIdle last = false) (hway : above ++ [last] <+: path.parent.segments)
    (h : tree.makeDirectory ⟨above ++ [last]⟩ = .ok tree') : Paved path tree tree' := by
  refine ⟨extends_of_makeDirectory h, ?_⟩
  obtain ⟨location, hresolves, hmissing, rfl⟩ := resolves_of_makeDirectory hidle h
  intro other hne
  rw [get?_set tree hresolves.ne_nil] at hne ⊢
  by_cases hother : other = location
  · rw [if_pos hother, hother]
    exact ⟨hmissing, rfl, above ++ [last], hway,
      walk_of_made hidle (hway.trans (Path.parent_isPrefix path)) hresolves hmissing⟩
  · rw [if_neg hother] at hne
    exact absurd rfl hne

theorem paving_makeDirectories (path : Path) :
    Along (Paved path) (Storage.makeDirectories path.parent) :=
  (chains_paved path).makeDirectories path.parent fun _ _ hway hidle _ _ =>
    paved_of_makeDirectory hidle hway

theorem Paved.file_iff (h : Paved path tree tree') (location : Location) (content : List UInt8) :
    tree'.get? location = some (.file content) ↔ tree.get? location = some (.file content) := by
  constructor
  · intro hfile
    by_contra hne
    obtain ⟨-, hdirectory, -⟩ := h.made location (by rw [hfile]; exact Ne.symm hne)
    rw [hfile] at hdirectory
    cases hdirectory
  · exact h.keeps.get? location _

end FileTree

namespace OutputDirectory

variable {directory path : Path} {file : GeneratedFile} {tree tree' : FileTree} {fault : Fault}

section OnTree

variable {α β : Type}

theorem onTree_bind_error_iff {x : ExceptT Fault (StateM FileTree) α}
    {f : α → ExceptT Fault (StateM FileTree) β} :
    onTree (x >>= f) tree = (.error fault, tree') ↔
      onTree x tree = (.error fault, tree') ∨
        ∃ a next, onTree x tree = (.ok a, next) ∧ onTree (f a) next = (.error fault, tree') := by
  rw [onTree_bind]
  obtain ⟨result, next⟩ := onTree x tree
  cases result with
  | error fault' => simp
  | ok a =>
    constructor
    · intro h
      exact Or.inr ⟨a, next, rfl, h⟩
    · rintro (heq | ⟨_, _, heq, h⟩)
      · cases heq
      · cases heq
        exact h

theorem onTree_step_error_iff {operation : StateM FileTree (Except Failure α)} :
    onTree (step operation) tree = (.error fault, tree') ↔
      ∃ failure, operation.run tree = (.error failure, tree') ∧
        fault = .storage failure.message := by
  rw [onTree_step]
  generalize operation.run tree = result
  obtain ⟨result, next⟩ := result
  cases result with
  | ok a =>
    constructor
    · intro h
      cases h
    · rintro ⟨_, heq, -⟩
      cases heq
  | error failure =>
    constructor
    · intro h
      cases h
      exact ⟨failure, rfl, rfl⟩
    · rintro ⟨_, heq, rfl⟩
      cases heq
      rfl

end OnTree

/-- A file that cannot be written is refused, and nothing is done for it, or directories on the way
to it are made. -/
theorem paved_of_writeFile_error
    (h : onTree (writeFile directory file) tree = (.error fault, tree')) :
    FileTree.Paved (directory.join file.path) tree tree' := by
  have hchains := FileTree.chains_paved (directory.join file.path)
  cases hconfined : file.path.isConfined with
  | false =>
    rw [onTree_writeFile_of_refused hconfined] at h
    cases h
    exact hchains.refl tree
  | true =>
    rw [onTree_writeFile_of_confined hconfined] at h
    have hpaved := FileTree.paving_makeDirectories (directory.join file.path) tree
    rcases onTree_bind_error_iff.1 h with hmake | ⟨_, next, hmake, h⟩
    · obtain ⟨failure, hrun, -⟩ := onTree_step_error_iff.1 hmake
      rw [hrun] at hpaved
      exact hpaved
    · rw [onTree_step_ok_iff.1 hmake] at hpaved
      rcases onTree_bind_error_iff.1 h with hwrite | ⟨_, _, -, hreturn⟩
      · -- a write that fails leaves the tree as it is
        obtain ⟨failure, hrun, -⟩ := onTree_step_error_iff.1 hwrite
        rw [FileTree.writeFile_run] at hrun
        split at hrun
        · cases hrun
        · cases hrun
          exact hpaved
      · cases hreturn

theorem file_iff_of_writeFile (h : onTree (writeFile directory file) tree = (.ok path, tree'))
    {location : Location} (hother : ¬ FileTree.Resolves tree' path location)
    (content : List UInt8) :
    tree'.get? location = some (.file content) ↔ tree.get? location = some (.file content) := by
  obtain ⟨-, rfl, next, hmake, hwrite⟩ := onTree_writeFile_ok_iff.1 h
  obtain ⟨place, hresolves, hdirectory, rfl⟩ := FileTree.write_ok_iff.1 hwrite
  have hpaved := FileTree.paving_makeDirectories (directory.join file.path) tree
  rw [hmake] at hpaved
  have hne : location ≠ place := by
    rintro rfl
    exact hother ((FileTree.grows_set hresolves.ne_nil hdirectory _).resolves hresolves)
  rw [FileTree.get?_set next hresolves.ne_nil, if_neg hne]
  exact hpaved.file_iff location content

section Files

variable {files : List GeneratedFile} {paths : List Path}

theorem paths_of_writeFiles (h : onTree (writeFiles directory files) tree = (.ok paths, tree')) :
    paths = files.map fun file => directory.join file.path := by
  induction files generalizing tree paths with
  | nil =>
    cases h
    rfl
  | cons file files ih =>
    obtain ⟨path, next, rest, hfile, hrest, rfl⟩ := onTree_writeFiles_cons_ok_iff.1 h
    rw [List.map_cons, (onTree_writeFile_ok_iff.1 hfile).2.1, ← ih hrest]

theorem grows_of_writeFiles (h : onTree (writeFiles directory files) tree = (.ok paths, tree')) :
    FileTree.Grows tree tree' := by
  induction files generalizing tree paths with
  | nil =>
    cases h
    exact FileTree.Grows.refl _
  | cons file files ih =>
    obtain ⟨path, next, rest, hfile, hrest, -⟩ := onTree_writeFiles_cons_ok_iff.1 h
    exact (grows_of_writeFile hfile).trans (ih hrest)

theorem file_iff_of_writeFiles
    (h : onTree (writeFiles directory files) tree = (.ok paths, tree')) {location : Location}
    (hother : ∀ path ∈ paths, ¬ FileTree.Resolves tree' path location) (content : List UInt8) :
    tree'.get? location = some (.file content) ↔ tree.get? location = some (.file content) := by
  induction files generalizing tree paths with
  | nil =>
    cases h
    rfl
  | cons file files ih =>
    obtain ⟨path, next, rest, hfile, hrest, rfl⟩ := onTree_writeFiles_cons_ok_iff.1 h
    -- a path that leads to the location right after its file was written still does in the end
    have hpath : ¬ FileTree.Resolves next path location := fun hresolves =>
      hother path List.mem_cons_self ((grows_of_writeFiles hrest).resolves hresolves)
    calc tree'.get? location = some (.file content)
        ↔ next.get? location = some (.file content) :=
          ih hrest fun path hmem => hother path (List.mem_cons_of_mem _ hmem)
      _ ↔ tree.get? location = some (.file content) := file_iff_of_writeFile hfile hpath content

theorem onTree_writeFiles_append_error_iff {before after : List GeneratedFile} :
    onTree (writeFiles directory (before ++ after)) tree = (.error fault, tree') ↔
      onTree (writeFiles directory before) tree = (.error fault, tree') ∨
        ∃ paths next, onTree (writeFiles directory before) tree = (.ok paths, next) ∧
          onTree (writeFiles directory after) next = (.error fault, tree') := by
  unfold writeFiles
  rw [List.mapM_append]
  simp only [onTree_bind_error_iff, onTree_pure, Prod.mk.injEq, reduceCtorEq, false_and, and_false,
    exists_false, or_false]

theorem onTree_writeFiles_cons_error_iff :
    onTree (writeFiles directory (file :: files)) tree = (.error fault, tree') ↔
      onTree (writeFile directory file) tree = (.error fault, tree') ∨
        ∃ path next, onTree (writeFile directory file) tree = (.ok path, next) ∧
          onTree (writeFiles directory files) next = (.error fault, tree') := by
  unfold writeFiles
  rw [List.mapM_cons]
  simp only [onTree_bind_error_iff, onTree_pure, Prod.mk.injEq, reduceCtorEq, false_and, and_false,
    exists_false, or_false]

/-- The run gets as far as the file at this position: those before it are written, which gives
the tree `next`, and then it fails. -/
structure EndsAt (directory : Path) (files : List GeneratedFile) (tree : FileTree) (fault : Fault)
    (tree' : FileTree) (position : Nat) (file : GeneratedFile) (next : FileTree) : Prop where
  at_position : files[position]? = some file
  before : ∃ paths, onTree (writeFiles directory (files.take position)) tree = (.ok paths, next)
  fails : onTree (writeFile directory file) next = (.error fault, tree')

theorem exists_endsAt (h : onTree (writeFiles directory files) tree = (.error fault, tree')) :
    ∃ position file next, EndsAt directory files tree fault tree' position file next := by
  induction files generalizing tree with
  | nil => cases h
  | cons file files ih =>
    rcases onTree_writeFiles_cons_error_iff.1 h with hfile | ⟨path, next, hfile, hrest⟩
    · exact ⟨0, file, tree, rfl, ⟨[], rfl⟩, hfile⟩
    · obtain ⟨position, file', next', hat, ⟨paths, hbefore⟩, hfails⟩ := ih hrest
      refine ⟨position + 1, file', next', hat, ⟨path :: paths, ?_⟩, hfails⟩
      exact onTree_writeFiles_cons_ok_iff.2 ⟨path, next, paths, hfile, hbefore, rfl⟩

namespace EndsAt

variable {tree₁ tree₂ next₁ next₂ : FileTree} {fault₁ fault₂ : Fault} {i j : Nat}
  {file₁ file₂ : GeneratedFile}

/-- Whatever stands behind the file at which a run ends, the run is the same. -/
theorem run_append (h : EndsAt directory files tree fault tree₁ i file next₁)
    (others : List GeneratedFile) :
    onTree (writeFiles directory (files.take (i + 1) ++ others)) tree = (.error fault, tree₁) := by
  obtain ⟨paths, hbefore⟩ := h.before
  rw [List.take_add_one, h.at_position, Option.toList_some, List.append_assoc,
    List.singleton_append]
  refine onTree_writeFiles_append_error_iff.2 (Or.inr ⟨paths, next₁, hbefore, ?_⟩)
  exact onTree_writeFiles_cons_error_iff.2 (Or.inl h.fails)

theorem not_lt (h₁ : EndsAt directory files tree fault₁ tree₁ i file₁ next₁)
    (h₂ : EndsAt directory files tree fault₂ tree₂ j file₂ next₂) : ¬ i < j := by
  intro hlt
  obtain ⟨paths, hbefore⟩ := h₂.before
  obtain ⟨rest, hrest⟩ := List.take_prefix_take_left (Nat.succ_le_of_lt hlt)
  rw [← hrest, h₁.run_append] at hbefore
  cases hbefore

theorem position_eq (h₁ : EndsAt directory files tree fault₁ tree₁ i file₁ next₁)
    (h₂ : EndsAt directory files tree fault₂ tree₂ j file₂ next₂) : i = j := by
  have h₁₂ := h₁.not_lt h₂
  have h₂₁ := h₂.not_lt h₁
  omega

end EndsAt

/-- Either all files are written. Then the paths are, in order, the output directory with each name
behind it as it is spelled, each holds what the last file with the same names brought, and no other
place has got, lost or changed a file. Or the run ends at one of the files, whatever
stands behind it. Then all files are as those before it left them, and there are more directories
on the way to it at most, or nothing new if its name is refused. -/
theorem writeFiles_in_order (output : String) (files : List GeneratedFile) (tree : FileTree) :
    match onTree (writeFiles (Path.ofText output) files) tree with
    | (.ok paths, tree') =>
      List.Forall₂
        (fun file path =>
          path.text = Path.spelled output (file.name.getD "") ∧
          ∃ last, LastWith (·.path.names) last files ∧ last.path.names = file.path.names ∧
            tree'.read path = .ok last.bytes)
        files paths ∧
      ∀ location, (∀ path ∈ paths, ¬ FileTree.Resolves tree' path location) →
        ∀ content, tree'.get? location = some (.file content) ↔
          tree.get? location = some (.file content)
    | (.error fault, tree') =>
      ∃ position file next,
        EndsAt (Path.ofText output) files tree fault tree' position file next ∧
        (∀ fault' tree'' other file' next',
          EndsAt (Path.ofText output) files tree fault' tree'' other file' next' →
            other = position) ∧
        (∀ location content, tree'.get? location = some (.file content) ↔
          next.get? location = some (.file content)) ∧
        (∀ others,
          onTree (writeFiles (Path.ofText output) (files.take (position + 1) ++ others)) tree
            = (.error fault, tree')) ∧
        FileTree.Paved ((Path.ofText output).join file.path) next tree' ∧
        (file.path.isConfined = false → tree' = next) := by
  generalize hrun : onTree (writeFiles (Path.ofText output) files) tree = run
  obtain ⟨result, tree'⟩ := run
  cases result with
  | ok paths =>
    refine ⟨?_, fun location hother content => file_iff_of_writeFiles hrun hother content⟩
    rw [paths_of_writeFiles hrun, List.forall₂_map_right_iff, List.forall₂_same]
    intro file hfile
    obtain ⟨last, hlast, hnames⟩ := exists_lastWith hfile
    refine ⟨?_, last, hlast, hnames, read_of_writeFiles hrun hfile hlast hnames⟩
    rw [GeneratedFile.path, Path.join_ofText, Path.text_ofText]
  | error fault =>
    obtain ⟨position, file, next, h⟩ := exists_endsAt hrun
    have hpaved := paved_of_writeFile_error h.fails
    refine ⟨position, file, next, h, fun _ _ _ _ _ h' => h'.position_eq h, hpaved.file_iff,
      h.run_append, hpaved, ?_⟩
    intro hrefused
    have hfails := h.fails
    rw [onTree_writeFile_of_refused hrefused] at hfails
    cases hfails
    rfl

/-- One place under two spellings, the second time without a content. -/
def respelledFiles : List GeneratedFile := [⟨some "a/b", some "x"⟩, ⟨some "a//b", none⟩]

theorem bytes_of_lastWith_respelledFiles {last : GeneratedFile}
    (h : LastWith (·.path.names) last respelledFiles) : last.bytes = [] := by
  rcases lastWith_cons_iff.1 h with ⟨rfl, hnot⟩ | hsecond
  · exact absurd (by decide +kernel) hnot
  · rcases lastWith_cons_iff.1 hsecond with ⟨rfl, -⟩ | hnone
    · decide +kernel
    · cases hnone.mem

theorem writeFiles_in_order_respelled :
    ∃ first second tree',
      onTree (writeFiles (Path.ofText "out") respelledFiles) {} = (.ok [first, second], tree') ∧
      first.text = "out/a/b" ∧ second.text = "out/a//b" ∧
      tree'.read first = .ok [] ∧ tree'.read second = .ok [] := by
  have hok : (onTree (writeFiles (Path.ofText "out") respelledFiles) {}).1.isOk = true := by
    decide +kernel
  have h := writeFiles_in_order "out" respelledFiles {}
  generalize onTree (writeFiles (Path.ofText "out") respelledFiles) {} = run at h hok
  obtain ⟨result, tree'⟩ := run
  cases result with
  | error fault => cases hok
  | ok paths =>
    obtain ⟨first, _, ⟨hfirst, last₁, hlast₁, -, hread₁⟩, hrest, rfl⟩ :=
      List.forall₂_cons_left_iff.1 h.1
    obtain ⟨second, _, ⟨hsecond, last₂, hlast₂, -, hread₂⟩, hnone, rfl⟩ :=
      List.forall₂_cons_left_iff.1 hrest
    obtain rfl := List.forall₂_nil_left_iff.1 hnone
    rw [bytes_of_lastWith_respelledFiles hlast₁] at hread₁
    rw [bytes_of_lastWith_respelledFiles hlast₂] at hread₂
    exact ⟨first, second, tree', rfl, hfirst.trans (by decide +kernel),
      hsecond.trans (by decide +kernel), hread₁, hread₂⟩

/-- A file is in the place of a directory that the second name needs. -/
example :
    (onTree (writeFiles (Path.ofText "out")
      [⟨some "a", some "x"⟩, ⟨some "a/b", none⟩, ⟨some "c", none⟩]) {}).1
        = .error (.storage "File exists (os error 17)") := by
  decide +kernel

end Files

end OutputDirectory
end TwirpClients
