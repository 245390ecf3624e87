import TwirpClients.Proofs.Storage.Ways

/-!
# Places below a directory

A confined path that is joined to a directory leads to the location of the directory with the names
of the path behind it. So two such paths lead to the same place if and only if they have
the same names, however they are spelled.
-/

namespace TwirpClients

namespace Path

/-- The segments of a path that count. -/
def names (path : Path) : List String := path.segments.filter (!isIdle ·)

/-- The segments of a directory that come before those of a path joined to it. -/
def opening (directory : Path) : List String :=
  if directory.segments.getLast? = some "" then directory.segments.dropLast else directory.segments

theorem isConfined_iff {path : Path} :
    path.isConfined = true ↔
      (∃ first rest, path.segments = first :: rest ∧ isIdle first = false) ∧
        ".." ∉ path.segments := by
  unfold isConfined
  cases path.segments with
  | nil => simp
  | cons first rest => simp

end Path

namespace FileTree

variable {tree tree' : FileTree} {directory name : Path} {location : Location}

theorem walk_down {segments : List String} {final : Location}
    (hw : tree.walk location segments = .ok final) (hup : ".." ∉ segments) :
    final = location ++ segments.filter (!Path.isIdle ·) := by
  obtain ⟨-, -, rfl⟩ := walk_ok_iff.1 hw
  exact follow_of_down hup

def base (tree : FileTree) (directory : Path) : Except Failure Location :=
  tree.walk (if directory.opening.head? = some "" then [] else tree.here) directory.opening

theorem Grows.base (h : Grows tree tree') (hb : tree.base directory = .ok location) :
    tree'.base directory = .ok location := by
  unfold FileTree.base at hb ⊢
  rw [h.here]
  exact h.walk hb

theorem start_eq_opening (tree : FileTree) (directory : Path) :
    tree.start directory = if directory.opening.head? = some "" then [] else tree.here := by
  obtain ⟨segments⟩ := directory
  match segments with
  | [] => rfl
  | [only] => by_cases h : only = "" <;> simp [start, Path.isAbsolute, Path.opening, h]
  | first :: second :: rest =>
    have hhead : (Path.opening ⟨first :: second :: rest⟩).head? = some first := by
      unfold Path.opening
      split <;> rfl
    simp [start, Path.isAbsolute, hhead]

theorem walk_of_base (h : tree.base directory = .ok location) :
    tree.walk (tree.start directory) directory.segments = .ok location := by
  unfold base at h
  rw [← start_eq_opening] at h
  by_cases hlast : directory.segments.getLast? = some ""
  · -- the empty segment at the end leads nowhere
    obtain ⟨before, hsegments⟩ := List.getLast?_eq_some_iff.1 hlast
    have hopening : directory.opening = before := by simp [Path.opening, hsegments]
    rw [hopening] at h
    rw [hsegments]
    exact walk_append_ok_iff.2 ⟨location, h, rfl⟩
  · simpa only [Path.opening, hlast, if_false] using h

theorem start_join (hname : name.isConfined = true) :
    tree.start (directory.join name)
      = if directory.opening.head? = some "" then [] else tree.here := by
  obtain ⟨⟨first, rest, hsegments, hidle⟩, -⟩ := Path.isConfined_iff.1 hname
  have hfirst : first ≠ "" := by
    rintro rfl
    cases hidle
  have habsolute : (directory.join name).isAbsolute = true ↔ directory.opening.head? = some "" := by
    have hjoin : (directory.join name).segments = directory.opening ++ first :: rest := by
      rw [← hsegments]
      rfl
    unfold Path.isAbsolute
    rw [hjoin]
    cases directory.opening with
    | nil => simp [hfirst]
    | cons d ds =>
      have hlength : 0 < ds.length + (rest.length + 1) := by omega
      simp [hlength]
  simp only [start, habsolute]

theorem Resolves.below (hname : name.isConfined = true)
    (h : Resolves tree (directory.join name) location) :
    ∃ base, tree.base directory = .ok base ∧ location = base ++ name.names := by
  obtain ⟨-, above, last, place, hsegments, hidle, hup, hwalk, hchild⟩ := resolves_iff.1 h
  obtain ⟨⟨first, rest, hfirst, -⟩, hdown⟩ := Path.isConfined_iff.1 hname
  rw [start_join hname] at hwalk
  change directory.opening ++ name.segments = above ++ [last] at hsegments
  rcases List.eq_nil_or_concat name.segments with hnil | ⟨before, last', hlast⟩
  · rw [hnil] at hfirst
    cases hfirst
  · rw [List.concat_eq_append] at hlast
    rw [hlast, ← List.append_assoc] at hsegments
    obtain ⟨rfl, heq⟩ := List.append_inj' hsegments rfl
    cases heq
    obtain ⟨base, hbase, hbefore⟩ := walk_append_ok_iff.1 hwalk
    have hplace := walk_down hbefore fun h => hdown (by simp [hlast, h])
    obtain ⟨-, rfl⟩ := child_ok_iff.1 hchild
    refine ⟨base, hbase, ?_⟩
    rw [hplace, Path.names, hlast, List.filter_append, List.append_assoc,
      List.filter_cons_of_pos (by simp [hidle]), List.filter_nil]

end FileTree
end TwirpClients
