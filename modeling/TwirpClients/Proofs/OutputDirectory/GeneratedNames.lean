import TwirpClients.Proofs.GeneratedFile
import TwirpClients.Proofs.OutputDirectory.Footprint

/-!
# Which generated names can be written

The name of a generated file is the directory of the proto file and one proper name behind it. So
whether it is refused depends on the directory alone, which is kept as it is spelled. Nothing about
the last part of the proto path matters, not even that it is empty or consists of dots: what it is
turned into is always a name that a file can have.
-/

namespace TwirpClients

namespace Path

/-- The directory starts at the root or with a single dot, or it goes up somewhere. -/
def Strays (directory : String) : Prop :=
  directory.toList.head? = some '/' ∨ (ofText directory).segments.head? = some "." ∨
    ".." ∈ (ofText directory).segments

variable {directory name : String}

/-- A name behind a directory that ends in a slash is one more segment. -/
theorem segments_ofText_append (hend : directory = "" ∨ directory.toList.getLast? = some '/')
    (hname : '/' ∉ name.toList) :
    ∃ above, (ofText directory).segments = above ++ [""] ∧
      (ofText (directory ++ name)).segments = above ++ [name] := by
  have hempty := (getLast?_segments_eq_empty_iff directory).2 hend
  obtain ⟨above, habove⟩ := List.getLast?_eq_some_iff.1 hempty
  have hjoin := join_ofText directory name
  rw [spelled, if_pos hend, join, if_pos hempty, habove, List.dropLast_concat] at hjoin
  refine ⟨above, habove, ?_⟩
  rw [← hjoin, ofText, List.splitOn_eq_singleton hname]
  simp

theorem isConfined_append_eq_false_iff
    (hend : directory = "" ∨ directory.toList.getLast? = some '/') (hname : '/' ∉ name.toList)
    (hproper : name ≠ "" ∧ name ≠ "." ∧ name ≠ "..") :
    (ofText (directory ++ name)).isConfined = false ↔ Strays directory := by
  obtain ⟨hempty, hdot, hup⟩ := hproper
  obtain ⟨above, hdirectory, hwhole⟩ := segments_ofText_append hend hname
  have htext : directory ++ name ≠ "" := by
    rw [Ne, String.append_eq_empty_iff]
    exact fun h => hempty h.2
  have hroot : (directory ++ name).toList.head? = some '/' ↔ directory.toList.head? = some '/' := by
    rw [String.toList_append]
    cases hchars : directory.toList with
    | nil =>
      have hfirst : name.toList.head? ≠ some '/' := fun h => hname (List.mem_of_mem_head? h)
      simpa using hfirst
    | cons c rest => rfl
  have hhead : (above ++ [name]).head? = some "." ↔ (above ++ [""]).head? = some "." := by
    cases above with
    | nil => simpa using hdot
    | cons first rest => rfl
  have hback : ".." ∈ above ++ [name] ↔ ".." ∈ above ++ [""] := by
    simp [Ne.symm hup]
  rw [isConfined_ofText_eq_false_iff, Strays, hdirectory, hwhole, hroot, hhead, hback]
  simp only [htext, false_or]

end Path

namespace OutputDirectory

open FileTree (Accepts)

/-- The name for a proto file is its directory as it is spelled and a name of the usual form behind
it, whatever the rest of the path is. It is refused if and only if the directory strays. Otherwise
it is written wherever the tree lets a file be written, and the file has that name. -/
theorem nameFor_refused_iff (protoPath : String) :
    ∃ directory base name : String,
      protoPath = directory ++ base ∧ '/' ∉ base.toList ∧
      (directory = "" ∨ directory.toList.getLast? = some '/') ∧
      GeneratedFile.nameFor protoPath = directory ++ name ∧
      GeneratedFile.IsClientName name.toList ∧
      (Path.ofText (GeneratedFile.nameFor protoPath)).segments.getLast? = some name ∧
      ((Path.ofText (GeneratedFile.nameFor protoPath)).isConfined = false ↔
        Path.Strays directory) ∧
      ∀ (output : Path) (content : Option String) (tree : FileTree),
        let file : GeneratedFile := ⟨some (GeneratedFile.nameFor protoPath), content⟩
        (Path.Strays directory →
          onTree (writeFile output file) tree
            = (.error (refusal (GeneratedFile.nameFor protoPath)), tree)) ∧
        (¬ Path.Strays directory → Accepts tree (output.join file.path) →
          ∃ tree', onTree (writeFile output file) tree = (.ok (output.join file.path), tree')) := by
  obtain ⟨directory, base, name, hproto, hbase, hend, hname, hclient⟩ :=
    GeneratedFile.nameFor_eq_append protoPath
  have hrefused := Path.isConfined_append_eq_false_iff hend hclient.one_part hclient.proper
  obtain ⟨above, -, hsegments⟩ := Path.segments_ofText_append hend hclient.one_part
  rw [← hname] at hrefused hsegments
  refine ⟨directory, base, name, hproto, hbase, hend, hname, hclient, ?_, hrefused, ?_⟩
  · rw [hsegments, List.getLast?_concat]
  · intro output content tree file
    constructor
    · intro hstrays
      exact onTree_writeFile_of_refused (hrefused.2 hstrays)
    · intro hsafe haccepts
      have hconfined : file.path.isConfined = true := by
        rw [← Bool.not_eq_false]
        exact fun h => hsafe (hrefused.1 h)
      exact ⟨_, writeFile_ok_iff.2 ⟨hconfined, rfl, haccepts, rfl⟩⟩

/-- Two dots are taken for the base name of a file here, and not for a way up. -/
example : GeneratedFile.nameFor "a/./.." = "a/./Twirp.cs" ∧
    (Path.ofText (GeneratedFile.nameFor "a/./..")).isConfined = true := by
  decide +kernel

end OutputDirectory

end TwirpClients
