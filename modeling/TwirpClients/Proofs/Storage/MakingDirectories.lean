import TwirpClients.Proofs.Storage.Changes
import TwirpClients.Proofs.Storage.Ways
import TwirpClients.Proofs.Text.Split

/-!
# Making the directories of a path

The directories are tried from the last one up, and made from the first missing one down. What comes
out of it does not depend on that: it succeeds if and only if the way is passable, and then the
tree is the one before with a directory at each place on the way.
-/

namespace TwirpClients.FileTree

variable {tree tree' : FileTree} {path : Path} {location : Location} {above : List String}
  {last : String}

theorem isFile_setAll_directories_iff {locations : List Location} (hroot : [] ∉ locations)
    (hfree : ∀ place ∈ locations, ¬ tree.IsFile place) :
    (tree.setAll (directories locations)).IsFile location ↔ tree.IsFile location := by
  by_cases hmem : location ∈ locations
  · have hdirectory : (tree.setAll (directories locations)).get? location = some .directory := by
      rw [get?_setAll_directories hroot, if_pos hmem]
    exact iff_of_false (not_isFile_of_directory hdirectory) (hfree location hmem)
  · unfold IsFile
    rw [get?_setAll_directories hroot, if_neg hmem]

theorem check_ok_iff :
    check path = .ok () ↔ path.segments.any (·.toList.contains '\x00') = false ∧
      path.text ≠ "" ∧ path.text.utf8ByteSize < pathSizeLimit := by
  unfold check
  cases path.segments.any (·.toList.contains '\x00') with
  | true => simp [bind, Except.bind]
  | false =>
    by_cases htext : path.text = ""
    · simp [htext, bind, Except.bind]
    · by_cases hsize : path.text.utf8ByteSize ≥ pathSizeLimit
      · simp [htext, hsize]
      · have hlt : path.text.utf8ByteSize < pathSizeLimit := by omega
        simp [htext, hlt, pure, Except.pure]

theorem text_of_isPrefix {segments : List String} (hway : segments <+: path.segments) :
    ∃ rest, path.text = Path.text ⟨segments⟩ ++ rest := by
  obtain ⟨others, hothers⟩ := hway
  rw [Path.text, Path.text, ← hothers]
  by_cases hsegments : segments = []
  · refine ⟨"/".intercalate others, ?_⟩
    rw [hsegments, List.nil_append, String.intercalate_nil, String.empty_append]
  · by_cases hothers : others = []
    · exact ⟨"", by rw [hothers, List.append_nil, String.append_empty]⟩
    · rw [String.intercalate_append_of_ne_nil hsegments hothers, String.append_assoc]
      exact ⟨_, rfl⟩

theorem text_concat_ne_empty (hlast : last ≠ "") : Path.text ⟨above ++ [last]⟩ ≠ "" := by
  rw [Path.text]
  by_cases habove : above = []
  · simpa [habove] using hlast
  · rw [String.intercalate_append_of_ne_nil habove (List.cons_ne_nil _ _)]
    simp [String.append_eq_empty_iff]

theorem check_of_isPrefix (hidle : Path.isIdle last = false)
    (hway : above ++ [last] <+: path.segments) (h : check path = .ok ()) :
    check ⟨above ++ [last]⟩ = .ok () := by
  have hlast := (Path.isIdle_eq_false_iff.1 hidle).1
  obtain ⟨hnul, -, hsize⟩ := check_ok_iff.1 h
  obtain ⟨others, hothers⟩ := hway
  obtain ⟨rest, hrest⟩ := text_of_isPrefix ⟨others, hothers⟩
  rw [hrest, String.utf8ByteSize_append] at hsize
  rw [← hothers, List.any_append, Bool.or_eq_false_iff] at hnul
  exact check_ok_iff.2 ⟨hnul.1, text_concat_ne_empty hlast, by omega⟩

theorem target_concat (hidle : Path.isIdle last = false)
    (hcheck : check ⟨above ++ [last]⟩ = .ok ()) :
    tree.target ⟨above ++ [last]⟩ = do
      let location ← tree.walk (tree.start ⟨above ++ [last]⟩) above
      if last = ".." then return .directory location.dropLast
      return .name location last false := by
  have hlast := Path.isIdle_eq_false_iff.1 hidle
  have hdrop : (above ++ [last]).reverse.dropWhile (· == "") = last :: above.reverse := by
    simp [hlast.1]
  unfold target
  simp only [hcheck, hdrop, List.reverse_reverse]
  cases tree.walk (tree.start ⟨above ++ [last]⟩) above with
  | error failure => rfl
  | ok location =>
    by_cases hup : last = ".."
    · subst hup
      rfl
    · simp [hlast, hup, bind, Except.bind]

theorem ensureDirectory_of_walk_error {failure : Failure} (hidle : Path.isIdle last = false)
    (hcheck : check ⟨above ++ [last]⟩ = .ok ())
    (hwalk : tree.walk (tree.start ⟨above ++ [last]⟩) above = .error failure) :
    (Storage.ensureDirectory ⟨above ++ [last]⟩ : StateM FileTree _).run tree
      = (.error failure, tree) := by
  have hmake : tree.makeDirectory ⟨above ++ [last]⟩ = .error failure := by
    unfold makeDirectory
    rw [target_concat hidle hcheck, hwalk]
    rfl
  have hnot : tree.isDirectory ⟨above ++ [last]⟩ = false := by
    unfold isDirectory
    rw [hcheck]
    unfold walk at hwalk ⊢
    simp only [List.foldlM_append, hwalk]
    rfl
  rw [ensureDirectory_run, hmake]
  simp [hnot]

theorem makeDirectory_ok_iff (hidle : Path.isIdle last = false)
    (hcheck : check ⟨above ++ [last]⟩ = .ok ())
    (hwalk : tree.walk (tree.start ⟨above ++ [last]⟩) above = .ok location) :
    tree.makeDirectory ⟨above ++ [last]⟩ = .ok tree' ↔
      last ≠ ".." ∧ last.utf8ByteSize ≤ maxNameSize ∧ tree.get? (location ++ [last]) = none ∧
        tree' = tree.set (location ++ [last]) .directory := by
  constructor
  · intro h
    obtain ⟨place, hresolves, hmissing, htree⟩ := resolves_of_makeDirectory hidle h
    obtain ⟨-, above', last', location', hsegments, -, hup, hwalk', hchild⟩ :=
      resolves_iff.1 hresolves
    obtain ⟨rfl, hlast⟩ := List.append_inj' hsegments rfl
    cases hlast
    rw [hwalk] at hwalk'
    cases hwalk'
    obtain ⟨hsize, rfl⟩ := child_ok_iff.1 hchild
    exact ⟨hup, hsize, hmissing, htree⟩
  · rintro ⟨hup, hsize, hmissing, rfl⟩
    unfold makeDirectory
    rw [target_concat hidle hcheck, hwalk]
    have hchild : child location last = .ok (location ++ [last]) := child_ok_iff.2 ⟨hsize, rfl⟩
    simp [hup, hchild, hmissing, bind, Except.bind, pure, Except.pure]

theorem isDirectory_of_walk_ok (hcheck : check ⟨above ++ [last]⟩ = .ok ())
    (hwalk : tree.walk (tree.start ⟨above ++ [last]⟩) above = .ok location) :
    tree.isDirectory ⟨above ++ [last]⟩ = true ↔ ∃ final, tree.walk location [last] = .ok final := by
  unfold isDirectory
  unfold walk at hwalk ⊢
  simp only [hcheck, List.foldlM_append, hwalk]
  change (List.foldlM tree.enter location [last]).isOk = true ↔ _
  cases List.foldlM tree.enter location [last] with
  | error failure => simp [Except.isOk, Except.toBool]
  | ok final => simp [Except.isOk, Except.toBool]

theorem ensureDirectory_ok_iff :
    (Storage.ensureDirectory path : StateM FileTree _).run tree = (.ok (), tree') ↔
      tree.makeDirectory path = .ok tree' ∨
        (∀ made, tree.makeDirectory path ≠ .ok made) ∧ tree.isDirectory path = true ∧
          tree' = tree := by
  rw [ensureDirectory_run]
  cases tree.makeDirectory path with
  | ok made =>
    constructor
    · intro h
      cases h
      exact Or.inl rfl
    · rintro (heq | ⟨hnot, -⟩)
      · cases heq
        rfl
      · exact absurd rfl (hnot made)
  | error failure =>
    constructor
    · intro h
      cases hthere : tree.isDirectory path with
      | false =>
        simp only [hthere, Bool.false_eq_true, if_false] at h
        cases h
      | true =>
        simp only [hthere, if_true] at h
        cases h
        exact Or.inr ⟨by simp, rfl, rfl⟩
    · rintro (heq | ⟨-, hthere, rfl⟩)
      · cases heq
      · simp [hthere]

theorem tree_of_ensureDirectory_error {failure : Failure}
    (h : (Storage.ensureDirectory path : StateM FileTree _).run tree = (.error failure, tree')) :
    tree' = tree := by
  rw [ensureDirectory_run] at h
  split at h
  · cases h
  · exact (congrArg Prod.snd h).symm

theorem ensureDirectory_of_walk_ok (hidle : Path.isIdle last = false)
    (hcheck : check ⟨above ++ [last]⟩ = .ok ())
    (hwalk : tree.walk (tree.start ⟨above ++ [last]⟩) above = .ok location) :
    (Storage.ensureDirectory ⟨above ++ [last]⟩ : StateM FileTree _).run tree = (.ok (), tree') ↔
      Passable tree location [last] ∧
        tree' = tree.setAll (directories (passed location [last])) := by
  have hroot := nil_notMem_passed location [last]
  rw [ensureDirectory_ok_iff, isDirectory_of_walk_ok hcheck hwalk]
  constructor
  · rintro (hmade | ⟨-, ⟨final, hthere⟩, rfl⟩)
    · obtain ⟨hup, hsize, hmissing, rfl⟩ := (makeDirectory_ok_iff hidle hcheck hwalk).1 hmade
      rw [passed_name location hidle hup]
      refine ⟨⟨by simpa using hsize, ?_⟩, rfl⟩
      simp [passed_name location hidle hup, IsFile, hmissing]
    · obtain ⟨-, hdirectories, -⟩ := walk_ok_iff.1 hthere
      exact ⟨passable_of_walk hthere, (setAll_directories_eq_self hroot hdirectories).symm⟩
  · rintro ⟨hpassable, rfl⟩
    by_cases hup : last = ".."
    · subst hup
      right
      refine ⟨?_, ⟨location.dropLast, rfl⟩, rfl⟩
      intro made hmade
      exact ((makeDirectory_ok_iff hidle hcheck hwalk).1 hmade).1 rfl
    · have hsize := hpassable.short last List.mem_cons_self
      have hplace := hpassable.free
      rw [passed_name location hidle hup] at hplace ⊢
      have hfree := hplace (location ++ [last]) List.mem_cons_self
      cases hget : tree.get? (location ++ [last]) with
      | none => exact Or.inl ((makeDirectory_ok_iff hidle hcheck hwalk).2 ⟨hup, hsize, hget, rfl⟩)
      | some entry =>
        cases entry with
        | file content => exact absurd ⟨content, hget⟩ hfree
        | directory =>
          right
          refine ⟨?_, ⟨location ++ [last], ?_⟩, set_eq_self (by simp) hget⟩
          · intro made hmade
            have hmissing := ((makeDirectory_ok_iff hidle hcheck hwalk).1 hmade).2.2.1
            rw [hget] at hmissing
            cases hmissing
          · refine walk_ok_iff.2 ⟨hpassable.short, ?_, ?_⟩
            · simpa [passed_name location hidle hup] using hget
            · simp [follow, next, hidle, hup]

theorem ensureDirectory_concat_ok_iff (hidle : Path.isIdle last = false)
    (hcheck : check ⟨above ++ [last]⟩ = .ok ()) (hstart : tree.start ⟨above ++ [last]⟩ = location) :
    (Storage.ensureDirectory ⟨above ++ [last]⟩ : StateM FileTree _).run tree = (.ok (), tree') ↔
      tree.walk location above = .ok (follow location above) ∧
        Passable tree (follow location above) [last] ∧
        tree' = tree.setAll (directories (passed (follow location above) [last])) := by
  subst hstart
  cases hwalk : tree.walk (tree.start ⟨above ++ [last]⟩) above with
  | error failure =>
    rw [ensureDirectory_of_walk_error hidle hcheck hwalk]
    constructor
    · intro h
      cases h
    · intro h
      cases h.1
  | ok place =>
    obtain ⟨-, -, rfl⟩ := walk_ok_iff.1 hwalk
    rw [ensureDirectory_of_walk_ok hidle hcheck hwalk]
    simp

theorem makeDirectoriesAux_cons_ok_iff (hidle : Path.isIdle last = false) :
    (Storage.makeDirectoriesAux (last :: above) : StateM FileTree _).run tree = (.ok (), tree') ↔
      (Storage.ensureDirectory ⟨(last :: above).reverse⟩ : StateM FileTree _).run tree
          = (.ok (), tree') ∨
        ∃ before after,
          (Storage.ensureDirectory ⟨(last :: above).reverse⟩ : StateM FileTree _).run tree
            = (.error .notFound, before) ∧
          (Storage.makeDirectoriesAux above : StateM FileTree _).run before = (.ok (), after) ∧
          (Storage.ensureDirectory ⟨(last :: above).reverse⟩ : StateM FileTree _).run after
            = (.ok (), tree') := by
  have hneg : ¬ Path.isIdle last = true := by simp [hidle]
  rw [Storage.makeDirectoriesAux, if_neg hneg, StateT.run_bind]
  generalize (Storage.ensureDirectory ⟨(last :: above).reverse⟩ : StateM FileTree _).run tree
    = first
  obtain ⟨result, before⟩ := first
  change StateT.run _ before = _ ↔ _
  split
  · next hmissing =>
    obtain rfl : result = .error .notFound := hmissing
    rw [StateT.run_bind]
    cases hsecond : (Storage.makeDirectoriesAux above : StateM FileTree _).run before with
    | mk result after =>
      cases result with
      | ok done =>
        constructor
        · intro h
          exact Or.inr ⟨before, after, rfl, hsecond, h⟩
        · rintro (heq | ⟨before', after', heq, hmade, h⟩)
          · cases heq
          · cases heq
            rw [hsecond] at hmade
            cases hmade
            exact h
      | error failure =>
        constructor
        · intro h
          cases h
        · rintro (heq | ⟨before', after', heq, hmade, -⟩)
          · cases heq
          · cases heq
            rw [hsecond] at hmade
            cases hmade
  · next hother =>
    constructor
    · intro h
      exact Or.inl h
    · rintro (h | ⟨before', after', heq, -⟩)
      · exact h
      · cases heq
        exact absurd rfl hother

theorem setAll_directories_passed_append {others : List String} :
    tree.setAll (directories (passed location (above ++ others)))
      = (tree.setAll (directories (passed location above))).setAll
          (directories (passed (follow location above) others)) := by
  rw [passed_append, directories, List.map_append]
  exact setAll_append tree _ _

theorem passable_setAll_directories_iff {place : Location} {segments others : List String}
    (h : Passable tree location segments) :
    Passable (tree.setAll (directories (passed location segments))) place others ↔
      Passable tree place others := by
  have hfile : ∀ other, (tree.setAll (directories (passed location segments))).IsFile other ↔
      tree.IsFile other := fun other =>
    isFile_setAll_directories_iff (nil_notMem_passed location segments) h.free
  constructor
  · intro hafter
    exact ⟨hafter.short, fun other hother => by simpa [hfile] using hafter.free other hother⟩
  · intro hbefore
    exact ⟨hbefore.short, fun other hother => by simpa [hfile] using hbefore.free other hother⟩

theorem walk_setAll_directories {segments : List String} (h : Passable tree location segments) :
    (tree.setAll (directories (passed location segments))).walk location segments
      = .ok (follow location segments) := by
  refine walk_ok_iff.2 ⟨h.short, ?_, rfl⟩
  intro place hplace
  rw [get?_setAll_directories (nil_notMem_passed location segments), if_pos hplace]

theorem makeDirectoriesAux_ok_iff (hcheck : check path = .ok ())
    (hway : above.reverse <+: path.segments) :
    (Storage.makeDirectoriesAux above : StateM FileTree _).run tree = (.ok (), tree') ↔
      Passable tree (tree.start path) above.reverse ∧
        tree' = tree.setAll (directories (passed (tree.start path) above.reverse)) := by
  induction above generalizing tree tree' with
  | nil =>
    constructor
    · intro h
      cases h
      exact ⟨⟨by simp, by simp [passed]⟩, rfl⟩
    · rintro ⟨-, rfl⟩
      rfl
  | cons last above ih =>
    rw [List.reverse_cons] at hway ⊢
    have ih := fun {tree tree' : FileTree} =>
      @ih tree tree' ((List.prefix_append above.reverse [last]).trans hway)
    cases hidle : Path.isIdle last with
    | true =>
      have hnone : passed (follow (tree.start path) above.reverse) [last] = [] := by
        simp [passed_singleton, entered, hidle]
      have hpassable : Passable tree (follow (tree.start path) above.reverse) [last] :=
        ⟨by simpa using size_of_isIdle hidle, by simp [hnone]⟩
      rw [Storage.makeDirectoriesAux, if_pos hidle, ih, passable_append_iff, passed_append, hnone,
        List.append_nil]
      simp [hpassable]
    | false =>
      have hstart : ∀ tree : FileTree, tree.start ⟨above.reverse ++ [last]⟩ = tree.start path :=
        fun tree => start_of_isPrefix hidle hway
      have hlast := check_of_isPrefix hidle hway hcheck
      rw [makeDirectoriesAux_cons_ok_iff hidle, List.reverse_cons, passable_append_iff]
      constructor
      · rintro (hensure | ⟨before, after, hfails, hmade, hensure⟩)
        · obtain ⟨hwalk, hname, rfl⟩ :=
            (ensureDirectory_concat_ok_iff hidle hlast (hstart tree)).1 hensure
          obtain ⟨-, hdirectories, -⟩ := walk_ok_iff.1 hwalk
          refine ⟨⟨passable_of_walk hwalk, hname⟩, ?_⟩
          rw [setAll_directories_passed_append,
            setAll_directories_eq_self (nil_notMem_passed _ _) hdirectories]
        · have hbefore : before = tree := tree_of_ensureDirectory_error hfails
          subst hbefore
          obtain ⟨habove, rfl⟩ := ih.1 hmade
          obtain ⟨-, hname, rfl⟩ := (ensureDirectory_concat_ok_iff hidle hlast
            ((hstart _).trans (start_setAll _ _ path))).1 hensure
          rw [passable_setAll_directories_iff habove] at hname
          exact ⟨⟨habove, hname⟩, setAll_directories_passed_append.symm⟩
      · rintro ⟨⟨habove, hname⟩, rfl⟩
        rw [setAll_directories_passed_append]
        -- on a passable way the first try can only miss a directory, and it recovers from that
        rcases walk_of_passable habove with hwalk | hmissing
        · left
          obtain ⟨-, hdirectories, -⟩ := walk_ok_iff.1 hwalk
          rw [setAll_directories_eq_self (nil_notMem_passed _ _) hdirectories]
          exact (ensureDirectory_concat_ok_iff hidle hlast (hstart tree)).2 ⟨hwalk, hname, rfl⟩
        · right
          refine ⟨tree, _, ?_, ih.2 ⟨habove, rfl⟩, ?_⟩
          · rw [← hstart tree] at hmissing
            exact ensureDirectory_of_walk_error hidle hlast hmissing
          · refine (ensureDirectory_concat_ok_iff hidle hlast
              ((hstart _).trans (start_setAll _ _ path))).2
              ⟨walk_setAll_directories habove, ?_, rfl⟩
            exact (passable_setAll_directories_iff habove).2 hname

end TwirpClients.FileTree
