import Mathlib.Data.List.Nodup
import TwirpClients.Proofs.Command.Generation
import TwirpClients.Proofs.Wire.Reading

/-!
# Which client is found where

The name of a generated file keeps less than the name it is made from, and files are written one
after the other without a look at what is there. So a run that succeeds leaves a file for every name
it was asked for, but names that lead to the same place share one file, and it is the last
of them whose client is found in it. Names that lead to different places each have their own.
-/

namespace TwirpClients

theorem lastWith_of_forall₂ {α β γ : Type} {R : α → γ → Prop} {key : α → β} {key' : γ → β}
    (hkey : ∀ a c, R a c → key' c = key a) {as : List α} {cs : List γ} (h : List.Forall₂ R as cs)
    {a : α} (hlast : LastWith key a as) : ∃ c, R a c ∧ LastWith key' c cs := by
  induction h with
  | nil => cases hlast.mem
  | cons hfirst hrest ih =>
    rcases lastWith_cons_iff.1 hlast with ⟨rfl, hnot⟩ | hlater
    · rw [← map_eq_of_forall₂ hkey hrest, ← hkey _ _ hfirst] at hnot
      exact ⟨_, hfirst, lastWith_cons_iff.2 (Or.inl ⟨rfl, hnot⟩)⟩
    · obtain ⟨c, hc, hlast'⟩ := ih hlater
      exact ⟨c, hc, lastWith_cons_iff.2 (Or.inr hlast')⟩

namespace GeneratedFile

/-- The names on the way from the output directory to the file generated for a name. -/
def place (name : String) : List String := (Path.ofText (nameFor name)).names

structure IsFor (options : Options) (set : DescriptorSet) (name : String) (file : GeneratedFile) :
    Prop where
  named : file.name = some (nameFor name)
  content : ∃ api, set.api? name = some api ∧ file.content = some (ClientText.render options api)

theorem IsFor.path {options : Options} {set : DescriptorSet} {name : String} {file : GeneratedFile}
    (h : IsFor options set name file) : file.path = Path.ofText (nameFor name) := by
  rw [GeneratedFile.path, h.named, Option.getD_some]

end GeneratedFile

namespace Command.Generation

variable {generation : Generation} {tree tree' : FileTree} {set : DescriptorSet}
  {options : Options} {files : List GeneratedFile} {paths : List Path}

/-- The file of the name holds the client of another name, which may be the same. -/
def Holds (generation : Generation) (options : Options) (set : DescriptorSet) (tree : FileTree)
    (name other : String) : Prop :=
  ∃ api, set.api? other = some api ∧
    tree.read ((Path.ofText generation.output).join (Path.ofText (GeneratedFile.nameFor name)))
      = .ok (ClientText.render options api).toUTF8.data.toList

theorem forall₂_isFor
    (h : Response.Complete (ClientText.renderer options)
      { files := generation.requested set, descriptors := set } { files }) :
    List.Forall₂ (GeneratedFile.IsFor options set) (generation.requested set) files := by
  refine h.files.imp ?_
  rintro name file ⟨text, ⟨api, hapi, hrender⟩, rfl⟩
  have htext : ClientText.render options api = text := Except.ok.inj hrender
  exact ⟨rfl, api, hapi, by rw [htext]⟩

theorem delivered_of_runOn {verbose : Bool} {outcome : Outcome}
    (hrun : generation.runOn verbose tree = (outcome, tree')) (hexit : outcome.exit = 0) :
    ∃ set options files paths, Loads tree generation.descriptorSet set ∧
      generation.options = .ok options ∧ generation.clients set = .ok files ∧
      List.Forall₂ (GeneratedFile.IsFor options set) (generation.requested set) files ∧
      generation.write files tree = (.ok paths, tree') := by
  obtain ⟨set, files, paths, hload, hclients, hwrite⟩ := written_of_runOn hrun hexit
  obtain ⟨options, hoptions, hcomplete⟩ := complete_of_clients_ok hclients
  exact ⟨set, options, files, paths, hload, hoptions, hclients, forall₂_isFor hcomplete, hwrite⟩

theorem holds_last (hwrite : generation.write files tree = (.ok paths, tree'))
    (hfiles : List.Forall₂ (GeneratedFile.IsFor options set) (generation.requested set) files)
    {name last : String} (hname : name ∈ generation.requested set)
    (hlast : LastWith GeneratedFile.place last (generation.requested set))
    (hplace : GeneratedFile.place last = GeneratedFile.place name) :
    generation.Holds options set tree' name last := by
  have hkey : ∀ name file, GeneratedFile.IsFor options set name file →
      file.path.names = GeneratedFile.place name := by
    intro name file hfile
    rw [hfile.path, GeneratedFile.place]
  obtain ⟨file, hmem, hfile⟩ := exists_of_forall₂ hfiles hname
  obtain ⟨lastFile, hfor, hlast'⟩ := lastWith_of_forall₂ hkey hfiles hlast
  obtain ⟨api, hapi, hcontent⟩ := hfor.content
  have hnames : lastFile.path.names = file.path.names := by
    rw [hkey _ _ hfor, hkey _ _ hfile, hplace]
  have hread := OutputDirectory.read_of_writeFiles hwrite hmem hlast' hnames
  rw [hfile.path, GeneratedFile.bytes, hcontent, Option.getD_some] at hread
  exact ⟨api, hapi, hread⟩

/-- A run that succeeds leaves a file for every name it was asked for, and in it is the client of
the last name that leads to the same place. If all names lead to different places, the files have
different names and each holds the client of its own name. -/
theorem run_delivers_last_client (generation : Generation) (verbose : Bool) {outcome : Outcome}
    (hrun : generation.runOn verbose tree = (outcome, tree')) (hexit : outcome.exit = 0) :
    ∃ set options files, Loads tree generation.descriptorSet set ∧
      generation.options = .ok options ∧ generation.clients set = .ok files ∧
      files.map (·.name)
        = (generation.requested set).map (some <| GeneratedFile.nameFor ·) ∧
      (∀ name ∈ generation.requested set, ∃ last,
        LastWith GeneratedFile.place last (generation.requested set) ∧
        GeneratedFile.place last = GeneratedFile.place name ∧
        generation.Holds options set tree' name last) ∧
      (((generation.requested set).map GeneratedFile.place).Nodup →
        (files.map (·.name)).Nodup ∧
        ∀ name ∈ generation.requested set, generation.Holds options set tree' name name) := by
  obtain ⟨set, options, files, paths, hload, hoptions, hclients, hfiles, hwrite⟩ :=
    delivered_of_runOn hrun hexit
  have hmap : files.map (·.name)
      = (generation.requested set).map (some <| GeneratedFile.nameFor ·) :=
    map_eq_of_forall₂ (fun _ _ h => h.named) hfiles
  refine ⟨set, options, files, hload, hoptions, hclients, hmap, ?_, ?_⟩
  · intro name hname
    obtain ⟨last, hlast, hplace⟩ := exists_lastWith hname
    exact ⟨last, hlast, hplace, holds_last hwrite hfiles hname hlast hplace⟩
  · intro hnodup
    refine ⟨?_, ?_⟩
    · have hplaces : (files.map (·.name)).map (fun name => (Path.ofText (name.getD "")).names)
          = (generation.requested set).map GeneratedFile.place := by
        rw [hmap, List.map_map]
        refine List.map_congr_left fun name _ => ?_
        simp only [Function.comp_apply, Option.getD_some, GeneratedFile.place]
      rw [← hplaces] at hnodup
      exact hnodup.of_map
    · intro name hname
      obtain ⟨last, hlast, hplace⟩ := exists_lastWith hname
      have heq := List.inj_on_of_nodup_map hnodup hlast.mem hname hplace
      rw [heq] at hlast
      exact holds_last hwrite hfiles hname hlast rfl

def usersFile : FileDescriptor :=
  { name := some "user_api.proto", services := [{ name := some "Users" }] }

def accountsFile : FileDescriptor :=
  { name := some "user-api.proto", services := [{ name := some "Accounts" }] }

def chatFile : FileDescriptor :=
  { name := some "chat/v1/chat.proto", services := [{ name := some "Chat" }] }

def teamSet : DescriptorSet where
  files := [usersFile, accountsFile, chatFile]

def teamTree : FileTree := FileTree.set {} ["team.bin"] (.file teamSet.toBytes)

def chatGeneration : Generation where
  descriptorSet := "team.bin"
  files := ["user_api.proto", "chat/v1/chat.proto"]
  output := "out"

theorem loads_teamSet : Loads teamTree "team.bin" teamSet :=
  ⟨teamSet.toBytes, by decide +kernel, by decide +kernel⟩

theorem run_delivers_last_client_chat :
    chatGeneration.Holds {} teamSet (chatGeneration.runOn false teamTree).2
        "user_api.proto" "user_api.proto" ∧
      chatGeneration.Holds {} teamSet (chatGeneration.runOn false teamTree).2
        "chat/v1/chat.proto" "chat/v1/chat.proto" := by
  obtain ⟨set, options, files, hload, hoptions, -, -, -, hown⟩ :=
    run_delivers_last_client chatGeneration false
      (show chatGeneration.runOn false teamTree = (_, _) from rfl) (by decide +kernel)
  have hset := hload.unique loads_teamSet
  have hdefault : chatGeneration.options = .ok {} := rfl
  have hoptions' := Except.ok.inj (hoptions.symm.trans hdefault)
  rw [hset, hoptions'] at hown
  have hholds := (hown (by decide +kernel)).2
  exact ⟨hholds _ List.mem_cons_self, hholds _ (List.mem_cons_of_mem _ List.mem_cons_self)⟩

/-- Without names given the command finds all three, and two of them have the same place. -/
def teamGeneration : Generation where
  descriptorSet := "team.bin"
  output := "out"

theorem lines_eq_of_render_eq {api api' : Api}
    (h : ClientText.render options api = ClientText.render options api') :
    (ClientText.lines options api).flatMap (·.toList ++ ['\n'])
      = (ClientText.lines options api').flatMap (·.toList ++ ['\n']) :=
  String.ofList_injective h

theorem render_usersFile_ne_accountsFile :
    (ClientText.render {} (.ofDescriptor usersFile)).toUTF8.data.toList
      ≠ (ClientText.render {} (.ofDescriptor accountsFile)).toUTF8.data.toList := by
  have hlines : (ClientText.lines {} (.ofDescriptor usersFile)).flatMap (·.toList ++ ['\n'])
      ≠ (ClientText.lines {} (.ofDescriptor accountsFile)).flatMap (·.toList ++ ['\n']) := by
    decide +kernel
  intro h
  exact hlines (lines_eq_of_render_eq (Wire.eq_of_utf8_eq h))

theorem run_loses_users_client :
    (teamGeneration.requested teamSet).Nodup ∧
      Loads teamTree teamGeneration.descriptorSet teamSet ∧
      (teamGeneration.runOn false teamTree).1.exit = 0 ∧
      (teamGeneration.clients teamSet).map (·.map (·.name))
        = .ok [some "UserApiTwirp.cs", some "UserApiTwirp.cs", some "chat/v1/ChatTwirp.cs"] ∧
      teamGeneration.Holds {} teamSet (teamGeneration.runOn false teamTree).2
        "user_api.proto" "user-api.proto" ∧
      ¬ teamGeneration.Holds {} teamSet (teamGeneration.runOn false teamTree).2
        "user_api.proto" "user_api.proto" := by
  have husers : teamSet.api? "user_api.proto" = some (.ofDescriptor usersFile) := by decide +kernel
  have haccounts : teamSet.api? "user-api.proto" = some (.ofDescriptor accountsFile) := by
    decide +kernel
  have hexit : (teamGeneration.runOn false teamTree).1.exit = 0 := by decide +kernel
  have hlast : LastWith GeneratedFile.place "user-api.proto" (teamGeneration.requested teamSet) :=
    ⟨["user_api.proto"], ["chat/v1/chat.proto"], by decide +kernel, by decide +kernel⟩
  have hholds : teamGeneration.Holds {} teamSet (teamGeneration.runOn false teamTree).2
      "user_api.proto" "user-api.proto" := by
    obtain ⟨set, options, files, paths, hload, hoptions, -, hfiles, hwrite⟩ :=
      delivered_of_runOn (show teamGeneration.runOn false teamTree = (_, _) from rfl) hexit
    have hset := hload.unique loads_teamSet
    have hdefault : teamGeneration.options = .ok {} := rfl
    have hoptions' := Except.ok.inj (hoptions.symm.trans hdefault)
    rw [hset, hoptions'] at hfiles
    exact holds_last hwrite hfiles (by decide +kernel) hlast (by decide +kernel)
  refine ⟨by decide +kernel, loads_teamSet, hexit, by decide +kernel, hholds, ?_⟩
  -- the file holds one text, and the two clients have different ones
  rintro ⟨api, hapi, hread⟩
  obtain ⟨api', hapi', hread'⟩ := hholds
  have husers' := Option.some.inj (hapi.symm.trans husers)
  have haccounts' := Option.some.inj (hapi'.symm.trans haccounts)
  have htexts := Except.ok.inj (hread.symm.trans hread')
  rw [husers', haccounts'] at htexts
  exact render_usersFile_ne_accountsFile htexts

end Command.Generation
end TwirpClients
