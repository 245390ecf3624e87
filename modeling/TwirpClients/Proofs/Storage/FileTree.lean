import TwirpClients.Proofs.Fallible
import TwirpClients.Storage.FileTree

/-!
# What the operations on a tree need and do

A path resolves to a location if all directories on the way are there. Reading and writing are
described by the location the path resolves to, and since directories are never taken away, a path
that resolves to a location keeps doing so in every later tree.
-/

namespace TwirpClients

theorem Path.isIdle_eq_false_iff {segment : String} :
    isIdle segment = false ↔ segment ≠ "" ∧ segment ≠ "." := by
  simp [isIdle]

namespace FileTree

theorem child_ok_iff {location final : Location} {name : String} :
    child location name = .ok final ↔
      name.utf8ByteSize ≤ maxNameSize ∧ final = location ++ [name] := by
  unfold child
  split
  · next h => simp only [reduceCtorEq, false_iff, not_and, Nat.not_le.2 h, false_implies]
  · next h => simp only [Except.ok.injEq, Nat.not_lt.1 h, true_and, eq_comm]

theorem ne_nil_of_child {location final : Location} {name : String}
    (h : child location name = .ok final) : final ≠ [] := by
  obtain ⟨-, rfl⟩ := child_ok_iff.1 h
  exact List.append_ne_nil_of_right_ne_nil location (List.cons_ne_nil name [])

structure Extends (tree tree' : FileTree) : Prop where
  here : tree'.here = tree.here
  get? : ∀ location entry, tree.get? location = some entry → tree'.get? location = some entry

/-- The directories of a tree are there in a later one. -/
structure Grows (tree tree' : FileTree) : Prop where
  here : tree'.here = tree.here
  directory : ∀ location, tree.get? location = some .directory →
    tree'.get? location = some .directory

theorem Extends.refl (tree : FileTree) : Extends tree tree := ⟨rfl, fun _ _ h => h⟩

theorem Extends.trans {t₁ t₂ t₃ : FileTree} (h : Extends t₁ t₂) (h' : Extends t₂ t₃) :
    Extends t₁ t₃ where
  here := h'.here.trans h.here
  get? location entry he := h'.get? location entry (h.get? location entry he)

theorem Extends.grows {tree tree' : FileTree} (h : Extends tree tree') : Grows tree tree' where
  here := h.here
  directory location := h.get? location .directory

theorem Grows.trans {t₁ t₂ t₃ : FileTree} (h : Grows t₁ t₂) (h' : Grows t₂ t₃) :
    Grows t₁ t₃ where
  here := h'.here.trans h.here
  directory location hd := h'.directory location (h.directory location hd)

theorem extends_set {tree : FileTree} {location : Location} (h : location ≠ [])
    (hnone : tree.get? location = none) (entry : Entry) :
    Extends tree (tree.set location entry) where
  here := rfl
  get? other e he := by
    have hne : other ≠ location := by
      rintro rfl
      rw [hnone] at he
      cases he
    rw [get?_set tree h, if_neg hne, he]

theorem grows_set {tree : FileTree} {location : Location} (h : location ≠ [])
    (hdir : tree.get? location ≠ some .directory) (entry : Entry) :
    Grows tree (tree.set location entry) where
  here := rfl
  directory other ho := by
    have hne : other ≠ location := by
      rintro rfl
      exact hdir ho
    rw [get?_set tree h, if_neg hne, ho]

section Resolution

variable {tree tree' : FileTree} {location final : Location} {segments : List String}

theorem enter_ok_iff {segment : String} :
    tree.enter location segment = .ok final ↔
      (Path.isIdle segment = true ∧ final = location) ∨
      (Path.isIdle segment = false ∧ segment = ".." ∧ final = location.dropLast) ∨
      (Path.isIdle segment = false ∧ segment ≠ ".." ∧ child location segment = .ok final ∧
        tree.get? final = some .directory) := by
  unfold enter
  cases hidle : Path.isIdle segment with
  | true => simp [eq_comm, pure, Except.pure]
  | false =>
    by_cases hup : segment = ".."
    · simp [hup, eq_comm, pure, Except.pure]
    · simp only [hup, Bool.false_eq_true, if_false, false_and, false_or, true_and, and_false, ne_eq,
        not_false_eq_true, bind_ok_iff]
      constructor
      · rintro ⟨next, hchild, hnext⟩
        split at hnext
        · cases hnext
        · cases hnext
        · next hdir =>
          cases hnext
          exact ⟨hchild, hdir⟩
      · rintro ⟨hchild, hdir⟩
        exact ⟨final, hchild, by simp only [hdir]; rfl⟩

theorem Grows.enter {segment : String} (h : Grows tree tree')
    (he : tree.enter location segment = .ok final) : tree'.enter location segment = .ok final := by
  rw [enter_ok_iff] at he ⊢
  rcases he with hidle | hup | ⟨hidle, hup, hchild, hdir⟩
  · exact Or.inl hidle
  · exact Or.inr (Or.inl hup)
  · exact Or.inr (Or.inr ⟨hidle, hup, hchild, h.directory final hdir⟩)

theorem walk_cons_ok_iff {segment : String} :
    tree.walk location (segment :: segments) = .ok final ↔
      ∃ next, tree.enter location segment = .ok next ∧ tree.walk next segments = .ok final := by
  unfold walk
  rw [List.foldlM_cons, bind_ok_iff]

theorem walk_append_ok_iff {others : List String} :
    tree.walk location (segments ++ others) = .ok final ↔
      ∃ next, tree.walk location segments = .ok next ∧ tree.walk next others = .ok final := by
  unfold walk
  rw [List.foldlM_append, bind_ok_iff]

theorem Grows.walk (h : Grows tree tree') (hw : tree.walk location segments = .ok final) :
    tree'.walk location segments = .ok final := by
  induction segments generalizing location with
  | nil => exact hw
  | cons segment rest ih =>
    obtain ⟨next, he, hrest⟩ := walk_cons_ok_iff.1 hw
    exact walk_cons_ok_iff.2 ⟨next, h.enter he, ih hrest⟩

theorem start_of_here {path : Path} (h : tree'.here = tree.here) :
    tree'.start path = tree.start path := by
  simp only [start, h]

theorem start_of_isPrefix {directory : Path} {above : List String} {last : String}
    (hidle : Path.isIdle last = false)
    (hway : above ++ [last] <+: directory.segments) :
    tree.start ⟨above ++ [last]⟩ = tree.start directory := by
  have hlast := (Path.isIdle_eq_false_iff.1 hidle).1
  obtain ⟨rest, hrest⟩ := hway
  unfold start Path.isAbsolute
  rw [← hrest]
  cases above with
  | nil => simp [hlast]
  | cons first above =>
    have hlength : 0 < above.length + (rest.length + 1) := by omega
    simp [hlength]

/-- The path names a place in a directory that is there, without a slash behind it. -/
def Resolves (tree : FileTree) (path : Path) (location : Location) : Prop :=
  ∃ directory name, tree.target path = .ok (.name directory name false) ∧
    child directory name = .ok location

theorem segments_of_dropWhile {last : String} {above : List String}
    (hdrop : segments.reverse.dropWhile (· == "") = last :: above)
    (hslash : segments.getLast? ≠ some "") : last ≠ "" ∧ segments = above.reverse ++ [last] := by
  rcases List.eq_nil_or_concat segments with rfl | ⟨before, final, rfl⟩
  · cases hdrop
  · have hfinal : final ≠ "" := by simpa using hslash
    have heq : final = last ∧ before.reverse = above := by simpa [hfinal] using hdrop
    obtain ⟨rfl, rfl⟩ := heq
    exact ⟨hfinal, by rw [List.reverse_reverse, List.concat_eq_append]⟩

theorem resolves_iff {path : Path} :
    Resolves tree path location ↔
      check path = .ok () ∧ ∃ above name directory, path.segments = above ++ [name] ∧
        Path.isIdle name = false ∧ name ≠ ".." ∧
        tree.walk (tree.start path) above = .ok directory ∧
        child directory name = .ok location := by
  unfold Resolves target
  simp only [bind_ok_iff]
  constructor
  · rintro ⟨directory, name, ⟨_, hcheck, htarget⟩, hchild⟩
    refine ⟨hcheck, ?_⟩
    split at htarget
    · cases htarget
    · next last above hdrop =>
      obtain ⟨place, hwalk, hplace⟩ := bind_ok_iff.1 htarget
      split at hplace
      · obtain ⟨_, -, hdirectory⟩ := bind_ok_iff.1 hplace
        cases hdirectory
      · next hdots =>
        have hparts : place = directory ∧ last = name ∧ path.segments.getLast? ≠ some "" := by
          simpa [pure, Except.pure] using hplace
        obtain ⟨rfl, rfl, hslash⟩ := hparts
        -- without a slash at the end nothing was dropped there
        obtain ⟨hlast, hsegments⟩ := segments_of_dropWhile hdrop hslash
        rw [not_or] at hdots
        exact ⟨above.reverse, last, place, hsegments, by simp [Path.isIdle, hlast, hdots.1],
          hdots.2, hwalk, hchild⟩
  · rintro ⟨hcheck, above, name, directory, hsegments, hidle, hup, hwalk, hchild⟩
    refine ⟨directory, name, ⟨(), hcheck, ?_⟩, hchild⟩
    have hname := Path.isIdle_eq_false_iff.1 hidle
    have hdrop : path.segments.reverse.dropWhile (· == "") = name :: above.reverse := by
      simp [hsegments, hname.1]
    have hdots : ¬ (name = "." ∨ name = "..") := by simp [hname.2, hup]
    have hslash : path.segments.getLast? ≠ some "" := by simp [hsegments, hname.1]
    rw [hdrop]
    refine bind_ok_iff.2 ⟨directory, by rw [List.reverse_reverse, hwalk], ?_⟩
    rw [if_neg hdots, decide_eq_false hslash]
    rfl

theorem Grows.resolves {path : Path} (h : Grows tree tree') (hr : Resolves tree path location) :
    Resolves tree' path location := by
  obtain ⟨hcheck, above, name, directory, hsegments, hidle, hup, hwalk, hchild⟩ :=
    resolves_iff.1 hr
  refine resolves_iff.2 ⟨hcheck, above, name, directory, hsegments, hidle, hup, ?_, hchild⟩
  rw [start_of_here h.here]
  exact h.walk hwalk

theorem Resolves.ne_nil {path : Path} (h : Resolves tree path location) : location ≠ [] := by
  obtain ⟨directory, name, -, hchild⟩ := h
  exact ne_nil_of_child hchild

theorem read_ok_iff {path : Path} {content : List UInt8} :
    tree.read path = .ok content ↔
      ∃ location, Resolves tree path location ∧ tree.get? location = some (.file content) := by
  unfold read Resolves
  rw [bind_ok_iff]
  constructor
  · rintro ⟨target, htarget, hread⟩
    cases target with
    | directory _ => cases hread
    | name directory name slash =>
      obtain ⟨location, hchild, hentry⟩ := bind_ok_iff.1 hread
      split at hentry
      · cases hentry
      · cases hentry
      · next hfile =>
        cases slash with
        | true => cases hentry
        | false =>
          cases hentry
          exact ⟨location, ⟨directory, name, htarget, hchild⟩, hfile⟩
  · rintro ⟨location, ⟨directory, name, htarget, hchild⟩, hfile⟩
    refine ⟨_, htarget, bind_ok_iff.2 ⟨location, hchild, ?_⟩⟩
    rw [hfile]
    rfl

theorem write_ok_iff {path : Path} {content : List UInt8} :
    tree.write path content = .ok tree' ↔
      ∃ location, Resolves tree path location ∧ tree.get? location ≠ some .directory ∧
        tree' = tree.set location (.file content) := by
  unfold write Resolves
  rw [bind_ok_iff]
  constructor
  · rintro ⟨target, htarget, hwrite⟩
    cases target with
    | directory _ => cases hwrite
    | name directory name slash =>
      cases slash with
      | true => cases hwrite
      | false =>
        obtain ⟨location, hchild, hentry⟩ := bind_ok_iff.1 hwrite
        split at hentry
        · cases hentry
        · next hdir =>
          cases hentry
          exact ⟨location, ⟨directory, name, htarget, hchild⟩, hdir, rfl⟩
  · rintro ⟨location, ⟨directory, name, htarget, hchild⟩, hdir, rfl⟩
    refine ⟨_, htarget, bind_ok_iff.2 ⟨location, hchild, ?_⟩⟩
    split
    · next h => exact absurd h hdir
    · rfl

theorem extends_of_makeDirectory {path : Path} (h : tree.makeDirectory path = .ok tree') :
    Extends tree tree' := by
  obtain ⟨target, -, hmake⟩ := bind_ok_iff.1 h
  cases target with
  | directory _ => cases hmake
  | name directory name slash =>
    obtain ⟨location, hchild, hentry⟩ := bind_ok_iff.1 hmake
    split at hentry
    · cases hentry
    · next hnone =>
      cases hentry
      exact extends_set (ne_nil_of_child hchild) hnone .directory

theorem slash_of_target {path : Path} {name : String} {slash : Bool}
    (h : tree.target path = .ok (.name location name slash)) :
    slash = decide (path.segments.getLast? = some "") := by
  obtain ⟨_, -, htarget⟩ := bind_ok_iff.1 h
  split at htarget
  · cases htarget
  · obtain ⟨place, -, hplace⟩ := bind_ok_iff.1 htarget
    split at hplace
    · obtain ⟨_, -, hdirectory⟩ := bind_ok_iff.1 hplace
      cases hdirectory
    · cases hplace
      rfl

theorem resolves_of_makeDirectory {above : List String} {last : String}
    (hidle : Path.isIdle last = false) (h : tree.makeDirectory ⟨above ++ [last]⟩ = .ok tree') :
    ∃ location, Resolves tree ⟨above ++ [last]⟩ location ∧ tree.get? location = none ∧
      tree' = tree.set location .directory := by
  have hlast := (Path.isIdle_eq_false_iff.1 hidle).1
  obtain ⟨target, htarget, hmake⟩ := bind_ok_iff.1 h
  cases target with
  | directory _ => cases hmake
  | name directory name slash =>
    have hslash : slash = false := by simpa [hlast] using slash_of_target htarget
    obtain ⟨location, hchild, hentry⟩ := bind_ok_iff.1 hmake
    rw [hslash] at htarget
    split at hentry
    · cases hentry
    · next hnone =>
      cases hentry
      exact ⟨location, ⟨directory, name, htarget, hchild⟩, hnone, rfl⟩

end Resolution

section Directories

theorem writeFile_run (path : Path) (content : List UInt8) (tree : FileTree) :
    (Storage.writeFile path content : StateM FileTree _).run tree
      = match tree.write path content with
        | .ok tree' => (.ok (), tree')
        | .error failure => (.error failure, tree) := rfl

theorem makeDirectory_run (path : Path) (tree : FileTree) :
    (Storage.makeDirectory path : StateM FileTree _).run tree
      = match tree.makeDirectory path with
        | .ok tree' => (.ok (), tree')
        | .error failure => (.error failure, tree) := rfl

theorem ensureDirectory_run (path : Path) (tree : FileTree) :
    (Storage.ensureDirectory path : StateM FileTree _).run tree
      = match tree.makeDirectory path with
        | .ok tree' => (.ok (), tree')
        | .error failure => (if tree.isDirectory path then .ok () else .error failure, tree) := by
  unfold Storage.ensureDirectory
  rw [StateT.run_bind, makeDirectory_run]
  cases tree.makeDirectory path with
  | ok tree' => rfl
  | error failure =>
    change StateT.run (if tree.isDirectory path then _ else _) tree = _
    cases tree.isDirectory path <;> rfl

/-- Whatever the computation returns, the tree it leaves is related to the one it starts with. -/
def Along {α : Type} (R : FileTree → FileTree → Prop) (x : StateM FileTree α) : Prop :=
  ∀ tree, R tree (x.run tree).2

/-- The relations that hold along a computation if they hold along its parts. -/
structure Chains (R : FileTree → FileTree → Prop) : Prop where
  refl : ∀ tree, R tree tree
  trans : ∀ {t₁ t₂ t₃}, R t₁ t₂ → R t₂ t₃ → R t₁ t₃

namespace Chains

variable {R : FileTree → FileTree → Prop} {α β : Type}

theorem pure (h : Chains R) (a : α) : Along R (pure a : StateM FileTree α) := h.refl

theorem bind (h : Chains R) {x : StateM FileTree α} {f : α → StateM FileTree β}
    (hx : Along R x) (hf : ∀ a, Along R (f a)) : Along R (x >>= f) := by
  intro tree
  rw [StateT.run_bind]
  exact h.trans (hx tree) (hf _ _)

theorem ensureDirectory (h : Chains R) {path : Path}
    (hmake : ∀ tree tree', tree.makeDirectory path = .ok tree' → R tree tree') :
    Along R (Storage.ensureDirectory path) := by
  intro tree
  rw [ensureDirectory_run]
  cases hresult : tree.makeDirectory path with
  | ok tree' => exact hmake tree tree' hresult
  | error failure => exact h.refl tree

theorem makeDirectoriesAux (h : Chains R) (segments : List String)
    (hstep : ∀ last above, last :: above <:+ segments → Path.isIdle last = false →
      Along R (Storage.ensureDirectory ⟨(last :: above).reverse⟩)) :
    Along R (Storage.makeDirectoriesAux segments) := by
  induction segments with
  | nil => exact h.pure _
  | cons last above ih =>
    have habove := ih fun last' above' hsuffix =>
      hstep last' above' (hsuffix.trans (List.suffix_cons last above))
    rw [Storage.makeDirectoriesAux]
    cases hidle : Path.isIdle last with
    | true => exact habove
    | false =>
      have hlast := hstep last above List.suffix_rfl hidle
      refine h.bind hlast fun result => ?_
      split
      · refine h.bind habove fun result => ?_
        split
        · exact hlast
        · exact h.pure _
      · exact h.pure _

/-- Directories are made on the way to a path only, each as one more segment of it. -/
theorem makeDirectories (h : Chains R) (path : Path)
    (hmake : ∀ above last, above ++ [last] <+: path.segments → Path.isIdle last = false →
      ∀ tree tree', tree.makeDirectory ⟨above ++ [last]⟩ = .ok tree' → R tree tree') :
    Along R (Storage.makeDirectories path) := by
  refine h.makeDirectoriesAux path.segments.reverse fun last above hsuffix hidle => ?_
  have hreverse : (last :: above).reverse = above.reverse ++ [last] := List.reverse_cons
  rw [hreverse]
  refine h.ensureDirectory (hmake above.reverse last ?_ hidle)
  rw [← hreverse, ← List.reverse_suffix, List.reverse_reverse]
  exact hsuffix

end Chains

theorem chains_extends : Chains Extends := ⟨Extends.refl, Extends.trans⟩

theorem extending_makeDirectories (path : Path) :
    Along Extends (Storage.makeDirectories path) :=
  chains_extends.makeDirectories path fun _ _ _ _ _ _ => extends_of_makeDirectory

end Directories

end FileTree
end TwirpClients
