import TwirpClients.Batch
import TwirpClients.Proofs.Fallible

/-!
# All files or the first fault

A batch runs over the names of its request until one of them fails. What one name gives is said
by `Renders` and `Fails`, which exclude each other and cover all cases; what the list of names
gives follows by induction from where it stops. A batch that stops has looked at nothing behind the
name it stops at, so neither those names nor their descriptors nor what the renderer makes of
them can show in the response.
-/

namespace TwirpClients

section Forall₂

variable {α β γ : Type} {R : α → β → Prop} {as : List α} {bs : List β}

theorem exists_of_forall₂ (h : List.Forall₂ R as bs) {a : α} (ha : a ∈ as) : ∃ b ∈ bs, R a b := by
  induction h with
  | nil => cases ha
  | cons hfirst _ ih =>
    rcases List.mem_cons.1 ha with rfl | ha
    · exact ⟨_, List.mem_cons_self, hfirst⟩
    · obtain ⟨b, hb, hab⟩ := ih ha
      exact ⟨b, List.mem_cons_of_mem _ hb, hab⟩

theorem map_eq_of_forall₂ {f : α → γ} {g : β → γ} (hfg : ∀ a b, R a b → g b = f a)
    (h : List.Forall₂ R as bs) : bs.map g = as.map f := by
  induction h with
  | nil => rfl
  | cons hfirst _ ih => rw [List.map_cons, List.map_cons, hfg _ _ hfirst, ih]

end Forall₂

def Renders (renderer : Renderer) (descriptors : DescriptorSet) (name text : String) : Prop :=
  ∃ api, descriptors.api? name = some api ∧ renderer api = .ok text

inductive Fails (renderer : Renderer) (descriptors : DescriptorSet) (name : String) :
    Stage → Fault → Prop
  | descriptor : descriptors.api? name = none →
      Fails renderer descriptors name .descriptor (.descriptorNotFound name)
  | generate {api : Api} {fault : Fault} : descriptors.api? name = some api →
      renderer api = .error fault → Fails renderer descriptors name .generate fault

theorem ofName_ok_iff {renderer : Renderer} {descriptors : DescriptorSet} {name : String}
    {file : GeneratedFile} :
    GeneratedFile.ofName renderer descriptors name = .ok file ↔
      ∃ text, Renders renderer descriptors name text ∧
        file = ⟨some (GeneratedFile.nameFor name), some text⟩ := by
  unfold GeneratedFile.ofName Renders
  cases ha : descriptors.api? name with
  | none => simp
  | some api =>
    cases hr : renderer api with
    | error fault => simp [hr]
    | ok text => simp [hr, eq_comm]

theorem ofName_error_iff {renderer : Renderer} {descriptors : DescriptorSet} {name : String}
    {e : FileFault} :
    GeneratedFile.ofName renderer descriptors name = .error e ↔
      ∃ stage fault, Fails renderer descriptors name stage fault ∧ e = ⟨name, stage, fault⟩ := by
  unfold GeneratedFile.ofName
  constructor
  · intro h
    split at h
    · next ha =>
      cases h
      exact ⟨_, _, .descriptor ha, rfl⟩
    · next api ha =>
      split at h
      · next fault hr =>
        cases h
        exact ⟨_, _, .generate ha hr, rfl⟩
      · cases h
  · rintro ⟨stage, fault, hf, rfl⟩
    cases hf with
    | descriptor ha => simp only [ha]
    | generate ha hr => simp only [ha, hr]

theorem Fails.not_renders {renderer : Renderer} {descriptors : DescriptorSet} {name text : String}
    {stage : Stage} {fault : Fault} (h : Fails renderer descriptors name stage fault) :
    ¬ Renders renderer descriptors name text := by
  rintro ⟨api, ha, hr⟩
  cases h with
  | descriptor hnone => simp [hnone] at ha
  | generate hsome herror =>
    cases hsome.symm.trans ha
    simp [herror] at hr

namespace FileFault

theorem message_descriptor (name : String) :
    message ⟨name, .descriptor, .descriptorNotFound name⟩
      = "File[" ++ name ++ "][descriptor]: could not find descriptor for file: " ++ name := by
  have hjoin : "][descriptor]: could not find descriptor for file: "
      = "][" ++ "descriptor" ++ "]: " ++ "could not find descriptor for file: " := by
    simp only [String.reduceAppend]
  rw [hjoin]
  unfold message Fault.message Stage.name
  simp only [String.append_assoc]

theorem message_generate (name : String) (fault : Fault) :
    message ⟨name, .generate, fault⟩
      = "File[" ++ name ++ "][generate]: " ++ fault.message := by
  have hjoin : "][generate]: " = "][" ++ "generate" ++ "]: " := by
    simp only [String.reduceAppend]
  rw [hjoin]
  unfold message Stage.name
  simp only [String.append_assoc]

end FileFault

structure Response.Complete (renderer : Renderer) (request : Request) (response : Response) :
    Prop where
  error : response.error = none
  files : List.Forall₂ (fun name file => ∃ text, Renders renderer request.descriptors name text ∧
    file = ⟨some (GeneratedFile.nameFor name), some text⟩) request.files response.files

/-- A response without files, because after `before` the batch stopped at `name`. -/
structure Response.StoppedAt (renderer : Renderer) (request : Request) (before : List String)
    (name : String) (response : Response) : Prop where
  files : response.files = []
  names : ∃ after, request.files = before ++ name :: after
  before : ∀ earlier ∈ before, ∃ text, Renders renderer request.descriptors earlier text
  error : (request.descriptors.api? name = none ∧ response.error = some ("File[" ++ name
      ++ "][descriptor]: could not find descriptor for file: " ++ name)) ∨
    ∃ api fault, request.descriptors.api? name = some api ∧ renderer api = .error fault ∧
      response.error = some ("File[" ++ name ++ "][generate]: " ++ fault.message)

theorem Response.Complete.renders {renderer : Renderer} {request : Request} {response : Response}
    (h : response.Complete renderer request) :
    ∀ name ∈ request.files, ∃ text, Renders renderer request.descriptors name text := by
  intro name hname
  obtain ⟨file, -, text, ht, -⟩ := exists_of_forall₂ h.files hname
  exact ⟨text, ht⟩

theorem Response.StoppedAt.fails {renderer : Renderer} {request : Request}
    {before : List String} {name : String} {response : Response}
    (h : response.StoppedAt renderer request before name) :
    ∃ stage fault, Fails renderer request.descriptors name stage fault ∧
      response.error = some (FileFault.message ⟨name, stage, fault⟩) := by
  rcases h.error with ⟨hapi, herror⟩ | ⟨api, fault, hapi, hfault, herror⟩
  · refine ⟨_, _, .descriptor hapi, ?_⟩
    rw [herror, FileFault.message_descriptor]
  · refine ⟨_, _, .generate hapi hfault, ?_⟩
    rw [herror, FileFault.message_generate]

theorem Response.StoppedAt.not_renders {renderer : Renderer} {request : Request}
    {before : List String} {name : String} {response : Response}
    (h : response.StoppedAt renderer request before name) :
    ¬ ∀ name ∈ request.files, ∃ text, Renders renderer request.descriptors name text := by
  intro hall
  obtain ⟨after, hfiles⟩ := h.names
  obtain ⟨stage, fault, hf, -⟩ := h.fails
  obtain ⟨text, ht⟩ := hall name (by simp [hfiles])
  exact hf.not_renders ht

theorem respondWith_of_fails {renderer : Renderer} {request : Request} {before after : List String}
    {name : String} {stage : Stage} {fault : Fault}
    (hfiles : request.files = before ++ name :: after)
    (hbefore : ∀ earlier ∈ before, ∃ text, Renders renderer request.descriptors earlier text)
    (hf : Fails renderer request.descriptors name stage fault) :
    respondWith renderer request = { error := FileFault.message ⟨name, stage, fault⟩ } := by
  have hm : request.files.mapM (GeneratedFile.ofName renderer request.descriptors)
      = .error ⟨name, stage, fault⟩ := by
    refine mapM_error_iff.2 ⟨before, name, after, hfiles, ?_, ofName_error_iff.2 ⟨_, _, hf, rfl⟩⟩
    intro earlier he
    obtain ⟨text, ht⟩ := hbefore earlier he
    exact ⟨_, ofName_ok_iff.2 ⟨text, ht, rfl⟩⟩
  simp only [respondWith, hm]

theorem respondWith_complete_or_stoppedAt (renderer : Renderer) (request : Request) :
    (respondWith renderer request).Complete renderer request ∨
      ∃ before name, (respondWith renderer request).StoppedAt renderer request before name := by
  cases hm : request.files.mapM (GeneratedFile.ofName renderer request.descriptors) with
  | ok files =>
    left
    have hforall := (mapM_ok_iff.1 hm).imp fun _ _ => ofName_ok_iff.1
    simp only [respondWith, hm]
    exact ⟨rfl, hforall⟩
  | error e =>
    right
    obtain ⟨before, name, after, hfiles, hbefore, hname⟩ := mapM_error_iff.1 hm
    obtain ⟨stage, fault, hf, rfl⟩ := ofName_error_iff.1 hname
    simp only [respondWith, hm]
    refine ⟨before, name, rfl, ⟨after, hfiles⟩, ?_, ?_⟩
    · intro earlier he
      obtain ⟨file, hfile⟩ := hbefore earlier he
      obtain ⟨text, ht, -⟩ := ofName_ok_iff.1 hfile
      exact ⟨text, ht⟩
    · cases hf with
      | descriptor hapi =>
        rw [FileFault.message_descriptor]
        exact Or.inl ⟨hapi, rfl⟩
      | generate hapi hfault =>
        rw [FileFault.message_generate]
        exact Or.inr ⟨_, _, hapi, hfault, rfl⟩

/-- The names have the same APIs in both sets, and the same comes of these by both renderers. -/
structure AgreeOn (names : List String) (renderer renderer' : Renderer)
    (descriptors descriptors' : DescriptorSet) : Prop where
  apis : ∀ name ∈ names, descriptors'.api? name = descriptors.api? name
  texts : ∀ name ∈ names, ∀ api, descriptors.api? name = some api → renderer' api = renderer api

namespace AgreeOn

variable {names : List String} {renderer renderer' : Renderer}
  {descriptors descriptors' : DescriptorSet} {name text : String}

theorem renders (h : AgreeOn names renderer renderer' descriptors descriptors')
    (hn : name ∈ names) (hr : Renders renderer descriptors name text) :
    Renders renderer' descriptors' name text := by
  obtain ⟨api, ha, ht⟩ := hr
  exact ⟨api, (h.apis name hn).trans ha, (h.texts name hn api ha).trans ht⟩

theorem fails {stage : Stage} {fault : Fault}
    (h : AgreeOn names renderer renderer' descriptors descriptors') (hn : name ∈ names)
    (hf : Fails renderer descriptors name stage fault) :
    Fails renderer' descriptors' name stage fault := by
  cases hf with
  | descriptor ha => exact .descriptor ((h.apis name hn).trans ha)
  | generate ha hr => exact .generate ((h.apis name hn).trans ha) ((h.texts name hn _ ha).trans hr)

end AgreeOn

theorem respondWith_congr_of_stoppedAt {renderer renderer' : Renderer} {request request' : Request}
    {before after' : List String} {name : String}
    (h : (respondWith renderer request).StoppedAt renderer request before name)
    (hfiles' : request'.files = before ++ name :: after')
    (hagree : AgreeOn (before ++ [name]) renderer renderer' request.descriptors
      request'.descriptors) :
    respondWith renderer' request' = respondWith renderer request := by
  obtain ⟨after, hfiles⟩ := h.names
  obtain ⟨stage, fault, hf, -⟩ := h.fails
  have hbefore' : ∀ earlier ∈ before,
      ∃ text, Renders renderer' request'.descriptors earlier text := by
    intro earlier he
    obtain ⟨text, ht⟩ := h.before earlier he
    exact ⟨text, hagree.renders (List.mem_append_left _ he) ht⟩
  have hf' := hagree.fails (List.mem_append_right before (List.mem_singleton_self name)) hf
  rw [respondWith_of_fails hfiles h.before hf, respondWith_of_fails hfiles' hbefore' hf']

/-- A response always tells the same features and has one of two shapes: a file for every name,
which is so if and only if all names render, or no file and the fault of the first name that does
not. In the second case it stays the same whatever follows that name, and for every other renderer
and set that agree on the names up to it. -/
theorem respondWith_all_or_first_fault (renderer : Renderer) (request : Request) :
    (respondWith renderer request).features = 1 ∧
      ((respondWith renderer request).Complete renderer request ∨
        ∃ before name, (respondWith renderer request).StoppedAt renderer request before name) ∧
      ((respondWith renderer request).Complete renderer request ↔
        ∀ name ∈ request.files, ∃ text, Renders renderer request.descriptors name text) ∧
      ∀ before name, (respondWith renderer request).StoppedAt renderer request before name →
        ∀ (renderer' : Renderer) (request' : Request) (after' : List String),
          request'.files = before ++ name :: after' →
          AgreeOn (before ++ [name]) renderer renderer' request.descriptors
            request'.descriptors →
          respondWith renderer' request' = respondWith renderer request := by
  have hshape := respondWith_complete_or_stoppedAt renderer request
  refine ⟨?_, hshape, ⟨fun h => h.renders, ?_⟩, ?_⟩
  · unfold respondWith
    split <;> rfl
  · intro hall
    rcases hshape with hc | ⟨before, name, hs⟩
    · exact hc
    · exact absurd hall hs.not_renders
  · intro before name hs renderer' request' after' hfiles' hagree
    exact respondWith_congr_of_stoppedAt hs hfiles' hagree

end TwirpClients
