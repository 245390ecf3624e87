import TwirpClients.Proofs.OutputDirectory
import TwirpClients.Proofs.Text.Split

/-!
# Nothing is written outside the output directory

Each operation of the writer is for the path of a file, joined to the output directory, or for a
path on the way to it. If it changes anything it is at the end of that path, and this is a place
below the output directory or a directory that was missing on the way there. Changes of this kind
add up over a run, however it ends, because directories stay where they are and so a path leads
to the same place later on.
-/

namespace TwirpClients

namespace Path

def IsName (name : String) : Prop :=
  name ≠ "" ∧ name ≠ "." ∧ name ≠ ".." ∧ '/' ∉ name.toList

theorem slash_notMem_segments {text segment : String} (h : segment ∈ (ofText text).segments) :
    '/' ∉ segment.toList := by
  obtain ⟨part, hpart, rfl⟩ := List.mem_map.1 h
  rw [String.toList_ofList]
  exact Text.sep_notMem_of_mem_splitOn hpart

theorem parent_isPrefix (path : Path) : path.parent.segments <+: path.segments := by
  have hsuffix : (path.segments.reverse.dropWhile isIdle).drop 1 <:+ path.segments.reverse :=
    (List.drop_suffix 1 _).trans (List.dropWhile_suffix isIdle)
  rw [parent, ← List.reverse_suffix, List.reverse_reverse]
  exact hsuffix

theorem opening_isPrefix (directory : Path) : directory.opening <+: directory.segments := by
  unfold opening
  split
  · exact List.dropLast_prefix _
  · exact List.prefix_rfl

/-- A path on the way to a name in a directory is on the way to the directory, or it leads to a
beginning of the name. -/
theorem isPrefix_join_cases {directory name : Path} {segments : List String}
    (h : segments <+: (directory.join name).segments) :
    segments <+: directory.segments ∨
      ∃ start, start ≠ [] ∧ start <+: name.segments ∧
        (⟨segments⟩ : Path) = directory.join ⟨start⟩ := by
  obtain ⟨rest, hrest⟩ := h
  change segments ++ rest = directory.opening ++ name.segments at hrest
  rcases List.append_eq_append_iff.1 hrest with ⟨more, hopening, -⟩ | ⟨start, hsegments, hname⟩
  · left
    exact List.IsPrefix.trans ⟨more, hopening.symm⟩ directory.opening_isPrefix
  · by_cases hstart : start = []
    · left
      rw [hsegments, hstart, List.append_nil]
      exact directory.opening_isPrefix
    · right
      exact ⟨start, hstart, ⟨rest, hname.symm⟩, by rw [hsegments]; rfl⟩

section Confined

variable {text : String} {start : List String}

theorem isConfined_of_isPrefix {name : Path} (h : name.isConfined = true) (hne : start ≠ [])
    (hstart : start <+: name.segments) : isConfined ⟨start⟩ = true := by
  obtain ⟨⟨first, rest, hsegments, hidle⟩, hup⟩ := isConfined_iff.1 h
  refine isConfined_iff.2 ⟨?_, fun hmem => hup (hstart.subset hmem)⟩
  cases start with
  | nil => exact absurd rfl hne
  | cons first' rest' =>
    rw [hsegments, List.cons_prefix_cons] at hstart
    exact ⟨first', rest', rfl, by rw [hstart.1, hidle]⟩

theorem names_ne_nil {name : Path} (h : name.isConfined = true) : name.names ≠ [] := by
  obtain ⟨⟨first, rest, hsegments, hidle⟩, -⟩ := isConfined_iff.1 h
  simp [names, hsegments, hidle]

theorem isName_of_mem_names (h : (ofText text).isConfined = true)
    (hstart : start <+: (ofText text).segments) :
    ∀ name ∈ names ⟨start⟩, IsName name := by
  intro name hname
  obtain ⟨hmem, hidle⟩ := List.mem_filter.1 hname
  have hsegment := hstart.subset hmem
  have hup : name ≠ ".." := by
    intro heq
    rw [heq] at hsegment
    exact (isConfined_iff.1 h).2 hsegment
  have hproper : name ≠ "" ∧ name ≠ "." := by simpa [isIdle] using hidle
  exact ⟨hproper.1, hproper.2, hup, slash_notMem_segments hsegment⟩

end Confined

theorem head?_segments_eq_empty_iff (text : String) :
    (ofText text).segments.head? = some "" ↔ text = "" ∨ text.toList.head? = some '/' := by
  rw [← String.toList_eq_nil_iff]
  cases hcs : text.toList with
  | nil => simp [ofText, hcs, List.splitOn_nil]
  | cons c rest =>
    by_cases hc : c = '/'
    · simp [ofText, hcs, List.splitOn_cons_eq_if_modifyHead, hc]
    · obtain ⟨first, others, hparts⟩ := List.exists_cons_of_ne_nil (List.splitOn_ne_nil '/' rest)
      simp [ofText, hcs, List.splitOn_cons_eq_if_modifyHead, hc, hparts,
        ← String.toList_eq_nil_iff]

theorem isConfined_ofText_eq_false_iff (text : String) :
    (ofText text).isConfined = false ↔
      text = "" ∨ text.toList.head? = some '/' ∨ (ofText text).segments.head? = some "." ∨
        ".." ∈ (ofText text).segments := by
  rw [← or_assoc, ← head?_segments_eq_empty_iff]
  unfold isConfined
  cases hsegments : (ofText text).segments with
  | nil => simp [ofText, List.splitOn_ne_nil] at hsegments
  | cons first rest =>
    by_cases hidle : isIdle first = true
    · have hfirst : first = "" ∨ first = "." := by simpa [isIdle] using hidle
      rcases hfirst with rfl | rfl <;> simp [isIdle]
    · have hfirst : first ≠ "" ∧ first ≠ "." := by simpa [isIdle] using hidle
      simp [hidle, hfirst, Decidable.or_iff_not_imp_left]

end Path

namespace FileTree

/-- What may have become of a location when files are written below a directory: it is a place
below the directory with a file in it or a new directory, or it is the directory or on the way to
it and was made because it was missing. -/
inductive Touched (directory : Path) (tree tree' : FileTree) (location : Location) : Prop
  | below {base : Location} {names : List String}
      (leads : tree'.walk (tree'.start directory) directory.segments = .ok base)
      (nonempty : names ≠ []) (proper : ∀ name ∈ names, Path.IsName name)
      (place : location = base ++ names)
      (entry : (∃ content, tree'.get? location = some (.file content)) ∨
        tree.get? location = none ∧ tree'.get? location = some .directory)
  | above {segments : List String} (onTheWay : segments <+: directory.segments)
      (leads : tree'.walk (tree'.start directory) segments = .ok location)
      (missing : tree.get? location = none) (made : tree'.get? location = some .directory)

namespace Touched

variable {directory : Path} {tree tree' tree'' : FileTree} {location : Location}

theorem isSome (h : Touched directory tree tree' location) : tree'.get? location ≠ none := by
  cases h with
  | below _ _ _ _ entry =>
    rcases entry with ⟨content, hfile⟩ | ⟨-, hdirectory⟩
    · simp [hfile]
    · simp [hdirectory]
  | above _ _ _ made => simp [made]

theorem of_earlier (h : Touched directory tree' tree'' location)
    (heq : tree'.get? location = tree.get? location) : Touched directory tree tree'' location := by
  cases h with
  | below leads nonempty proper place entry =>
    rw [heq] at entry
    exact .below leads nonempty proper place entry
  | above onTheWay leads missing made =>
    rw [heq] at missing
    exact .above onTheWay leads missing made

theorem of_later (h : Touched directory tree tree' location) (hgrows : Grows tree' tree'')
    (heq : tree''.get? location = tree'.get? location) :
    Touched directory tree tree'' location := by
  have hstart : tree''.start directory = tree'.start directory := start_of_here hgrows.here
  cases h with
  | below leads nonempty proper place entry =>
    rw [← heq] at entry
    refine .below ?_ nonempty proper place entry
    rw [hstart]
    exact hgrows.walk leads
  | above onTheWay leads missing made =>
    rw [← heq] at made
    refine .above onTheWay ?_ missing made
    rw [hstart]
    exact hgrows.walk leads

/-- What was touched before can only have been written over. -/
theorem again (h : Touched directory tree tree' location)
    (h' : Touched directory tree' tree'' location) : Touched directory tree tree'' location := by
  cases h' with
  | below leads nonempty proper place entry =>
    rcases entry with hfile | ⟨hmissing, -⟩
    · exact .below leads nonempty proper place (Or.inl hfile)
    · exact absurd hmissing h.isSome
  | above _ _ missing _ => exact absurd missing h.isSome

end Touched

/-- Directories stay, and what changes is within bounds. -/
structure Within (directory : Path) (tree tree' : FileTree) : Prop where
  grows : Grows tree tree'
  touched : ∀ location, tree'.get? location ≠ tree.get? location →
    Touched directory tree tree' location

theorem Grows.refl (tree : FileTree) : Grows tree tree := (Extends.refl tree).grows

theorem chains_within (directory : Path) : Chains (Within directory) where
  refl tree := ⟨Grows.refl tree, fun _ hne => absurd rfl hne⟩
  trans := by
    intro t₁ t₂ t₃ h h'
    refine ⟨h.grows.trans h'.grows, ?_⟩
    intro location hne
    by_cases h₁₂ : t₂.get? location = t₁.get? location
    · have h₂₃ : t₃.get? location ≠ t₂.get? location := by rwa [h₁₂]
      exact (h'.touched location h₂₃).of_earlier h₁₂
    · by_cases h₂₃ : t₃.get? location = t₂.get? location
      · exact (h.touched location h₁₂).of_later h'.grows h₂₃
      · exact (h.touched location h₁₂).again (h'.touched location h₂₃)

theorem within_set {directory : Path} {tree : FileTree} {location : Location} {entry : Entry}
    (hne : location ≠ []) (hdir : tree.get? location ≠ some .directory)
    (htouched : Touched directory tree (tree.set location entry) location) :
    Within directory tree (tree.set location entry) := by
  refine ⟨grows_set hne hdir entry, ?_⟩
  intro other hother
  by_cases heq : other = location
  · rw [heq]
    exact htouched
  · rw [get?_set tree hne, if_neg heq] at hother
    exact absurd rfl hother

section Steps

variable {directory : Path} {text : String} {tree tree' : FileTree} {location : Location}

theorem within_below {start : List String} {entry : Entry}
    (hconfined : (Path.ofText text).isConfined = true) (hne : start ≠ [])
    (hstart : start <+: (Path.ofText text).segments)
    (hresolves : Resolves tree (directory.join ⟨start⟩) location)
    (hdir : tree.get? location ≠ some .directory)
    (hentry : (∃ content, entry = .file content) ∨
      tree.get? location = none ∧ entry = .directory) :
    Within directory tree (tree.set location entry) := by
  have hstart' := Path.isConfined_of_isPrefix hconfined hne hstart
  have hget : (tree.set location entry).get? location = some entry := by
    rw [get?_set tree hresolves.ne_nil, if_pos rfl]
  have hgrows := grows_set hresolves.ne_nil hdir entry
  obtain ⟨base, hbase, hplace⟩ := hresolves.below hstart'
  refine within_set hresolves.ne_nil hdir (.below (walk_of_base (hgrows.base hbase))
    (Path.names_ne_nil hstart') (Path.isName_of_mem_names hconfined hstart) hplace ?_)
  rw [hget]
  rcases hentry with ⟨content, rfl⟩ | ⟨hmissing, rfl⟩
  · exact Or.inl ⟨content, rfl⟩
  · exact Or.inr ⟨hmissing, rfl⟩

/-- A new directory can be entered, so the path that it was made for leads into it. -/
theorem walk_of_made {above : List String} {last : String} (hidle : Path.isIdle last = false)
    (hway : above ++ [last] <+: directory.segments)
    (hresolves : Resolves tree ⟨above ++ [last]⟩ location)
    (hmissing : tree.get? location = none) :
    (tree.set location .directory).walk (tree.start directory) (above ++ [last])
      = .ok location := by
  have hdir : tree.get? location ≠ some .directory := by simp [hmissing]
  have hgrows := grows_set hresolves.ne_nil hdir .directory
  obtain ⟨-, above', last', place, hsegments, -, hup, hwalk, hchild⟩ := resolves_iff.1 hresolves
  obtain ⟨rfl, hlast⟩ := List.append_inj' hsegments rfl
  cases hlast
  rw [start_of_isPrefix hidle hway] at hwalk
  have hget : (tree.set location .directory).get? location = some .directory := by
    rw [get?_set tree hresolves.ne_nil, if_pos rfl]
  have henter : (tree.set location .directory).enter place last = .ok location :=
    enter_ok_iff.2 (Or.inr (Or.inr ⟨hidle, hup, hchild, hget⟩))
  exact walk_append_ok_iff.2 ⟨place, hgrows.walk hwalk, walk_cons_ok_iff.2 ⟨location, henter, rfl⟩⟩

theorem within_above {above : List String} {last : String} (hidle : Path.isIdle last = false)
    (hway : above ++ [last] <+: directory.segments)
    (hresolves : Resolves tree ⟨above ++ [last]⟩ location)
    (hmissing : tree.get? location = none) :
    Within directory tree (tree.set location .directory) := by
  refine within_set hresolves.ne_nil (by simp [hmissing])
    (.above hway (walk_of_made hidle hway hresolves hmissing) hmissing ?_)
  rw [get?_set tree hresolves.ne_nil, if_pos rfl]

theorem within_makeDirectory (hconfined : (Path.ofText text).isConfined = true)
    {above : List String} {last : String} (hidle : Path.isIdle last = false)
    (hway : above ++ [last] <+: (directory.join (Path.ofText text)).segments)
    (h : tree.makeDirectory ⟨above ++ [last]⟩ = .ok tree') : Within directory tree tree' := by
  obtain ⟨location, hresolves, hmissing, rfl⟩ := resolves_of_makeDirectory hidle h
  rcases Path.isPrefix_join_cases hway with habove | ⟨start, hne, hstart, hpath⟩
  · exact within_above hidle habove hresolves hmissing
  · rw [hpath] at hresolves
    exact within_below hconfined hne hstart hresolves (by simp [hmissing])
      (Or.inr ⟨hmissing, rfl⟩)

theorem within_write (hconfined : (Path.ofText text).isConfined = true) {content : List UInt8}
    (h : tree.write (directory.join (Path.ofText text)) content = .ok tree') :
    Within directory tree tree' := by
  obtain ⟨location, hresolves, hdir, rfl⟩ := write_ok_iff.1 h
  obtain ⟨⟨first, rest, hsegments, -⟩, -⟩ := Path.isConfined_iff.1 hconfined
  exact within_below hconfined (by simp [hsegments]) List.prefix_rfl hresolves hdir
    (Or.inl ⟨content, rfl⟩)

end Steps

end FileTree

namespace OutputDirectory

variable {R : FileTree → FileTree → Prop} {α β : Type}

theorem along_bind (hR : FileTree.Chains R) {x : ExceptT Fault (StateM FileTree) α}
    {f : α → ExceptT Fault (StateM FileTree) β} (hx : FileTree.Along R x.run)
    (hf : ∀ a, FileTree.Along R (f a).run) : FileTree.Along R (x >>= f).run := by
  rw [ExceptT.run_bind]
  refine hR.bind hx fun result => ?_
  cases result with
  | ok a => exact hf a
  | error fault => exact hR.pure _

theorem along_step (hR : FileTree.Chains R) {operation : StateM FileTree (Except Failure α)}
    (h : FileTree.Along R operation) : FileTree.Along R (step operation).run :=
  hR.bind h fun _ => hR.pure _

theorem along_mapM (hR : FileTree.Chains R) {f : α → ExceptT Fault (StateM FileTree) β}
    (hf : ∀ a, FileTree.Along R (f a).run) (as : List α) :
    FileTree.Along R (as.mapM f).run := by
  induction as with
  | nil => exact hR.pure _
  | cons a as ih =>
    rw [List.mapM_cons]
    refine along_bind hR (hf a) fun b => ?_
    exact along_bind hR ih fun bs => hR.pure _

theorem within_writeFile (directory : Path) (file : GeneratedFile) :
    FileTree.Along (FileTree.Within directory) (writeFile directory file).run := by
  have hchains := FileTree.chains_within directory
  intro tree
  change FileTree.Within directory tree (onTree (writeFile directory file) tree).2
  by_cases hconfined : file.path.isConfined = true
  · rw [onTree_writeFile_of_confined hconfined]
    have hmake : FileTree.Along (FileTree.Within directory)
        (Storage.makeDirectories (directory.join file.path).parent) := by
      refine hchains.makeDirectories _ fun above last hway hidle tree tree' h => ?_
      exact FileTree.within_makeDirectory hconfined hidle
        (hway.trans (Path.parent_isPrefix _)) h
    have hwrite : FileTree.Along (FileTree.Within directory)
        (Storage.writeFile (directory.join file.path) file.bytes) := by
      intro tree
      rw [FileTree.writeFile_run]
      split
      · next h => exact FileTree.within_write hconfined h
      · exact hchains.refl tree
    refine along_bind hchains (along_step hchains hmake) (fun _ => ?_) tree
    exact along_bind hchains (along_step hchains hwrite) fun _ => hchains.pure _
  · rw [onTree_writeFile_of_refused (by simpa using hconfined)]
    exact hchains.refl tree

/-- However a run ends, no directory is lost, and whatever has changed is a file or a new directory
at a place below the output directory, with proper names only behind it, or a directory that was
missing on the way to the output directory. A name is refused if and only if it is empty, starts
with a slash or a single dot, or goes up somewhere, and then nothing is done for the file. For any
other name the directories are made and the file is written, so that only the tree can fail it. -/
theorem writeFiles_confined (directory : Path) (files : List GeneratedFile) (tree : FileTree) :
    FileTree.Within directory tree (onTree (writeFiles directory files) tree).2 ∧
    ∀ file : GeneratedFile,
      (file.path.isConfined = false ↔
        file.name.getD "" = "" ∨ (file.name.getD "").toList.head? = some '/' ∨
          file.path.segments.head? = some "." ∨ ".." ∈ file.path.segments) ∧
      (file.path.isConfined = false →
        onTree (writeFile directory file) tree
          = (.error (refusal (file.name.getD "")), tree)) ∧
      (file.path.isConfined = true →
        onTree (writeFile directory file) tree
          = onTree (do
              step (Storage.makeDirectories (directory.join file.path).parent)
              step (Storage.writeFile (directory.join file.path) file.bytes)
              return directory.join file.path) tree) := by
  refine ⟨?_, ?_⟩
  · exact along_mapM (FileTree.chains_within directory) (within_writeFile directory) files tree
  · intro file
    exact ⟨Path.isConfined_ofText_eq_false_iff _, onTree_writeFile_of_refused,
      onTree_writeFile_of_confined⟩

end OutputDirectory
end TwirpClients
