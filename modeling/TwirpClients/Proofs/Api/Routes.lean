import Mathlib.Data.List.Flatten
import Mathlib.Data.List.Nodup
import Mathlib.Data.List.Perm.Subperm
import TwirpClients.Api
import TwirpClients.Proofs.Descriptor
import TwirpClients.Proofs.Text.Split

/-!
# Routes tell calls apart

A route is put together from a package, a service and a method, and the package may hold any
characters, the separators included. Both separators are therefore looked for from the end: a
method has no slash, so the last slash ends the address of its service, and a service has no dot, so
the last dot ends the package, and without a dot there is no package.
-/

namespace TwirpClients

/-- What a route is made from. -/
structure CallName where
  package : String
  service : String
  method : String
deriving DecidableEq, Repr

namespace CallName

def route (call : CallName) : String := serviceUrl call.package call.service ++ "/" ++ call.method

structure Plain (call : CallName) : Prop where
  service : '.' ∉ call.service.toList
  method : '/' ∉ call.method.toList

end CallName

theorem toList_serviceUrl_of_package {package : String} (h : package ≠ "") (service : String) :
    (serviceUrl package service).toList = package.toList ++ '.' :: service.toList := by
  simp [serviceUrl, h]

theorem toList_serviceUrl_of_empty (service : String) :
    (serviceUrl "" service).toList = service.toList := by
  simp [serviceUrl]

theorem dot_mem_serviceUrl {package : String} (h : package ≠ "") (service : String) :
    '.' ∈ (serviceUrl package service).toList := by
  rw [toList_serviceUrl_of_package h]
  exact List.mem_append_right _ List.mem_cons_self

theorem bareTypeName_serviceUrl {service : String} (h : '.' ∉ service.toList) (package : String) :
    bareTypeName (serviceUrl package service) = service := by
  by_cases hp : package = ""
  · rw [bareTypeName, hp, toList_serviceUrl_of_empty, Text.afterLast_of_notMem h,
      String.ofList_toList]
  · rw [bareTypeName, toList_serviceUrl_of_package hp, Text.afterLast_append_cons h,
      String.ofList_toList]

theorem serviceUrl_inj {package package' service service' : String} (h : '.' ∉ service.toList)
    (h' : '.' ∉ service'.toList) (heq : serviceUrl package service = serviceUrl package' service') :
    package = package' ∧ service = service' := by
  have hservice : service = service' := by
    rw [← bareTypeName_serviceUrl h package, heq, bareTypeName_serviceUrl h']
  subst hservice
  refine ⟨?_, rfl⟩
  by_cases hp : package = ""
  · by_contra hne
    have hdot := dot_mem_serviceUrl (fun hp' => hne (hp.trans hp'.symm)) service
    rw [← heq, hp, toList_serviceUrl_of_empty] at hdot
    exact h hdot
  · by_cases hp' : package' = ""
    · have hdot := dot_mem_serviceUrl hp service
      rw [heq, hp', toList_serviceUrl_of_empty] at hdot
      exact absurd hdot h
    · have hlist := congrArg String.toList heq
      rw [toList_serviceUrl_of_package hp, toList_serviceUrl_of_package hp'] at hlist
      exact String.toList_injective (List.append_cancel_right hlist)

theorem CallName.route_inj {call call' : CallName} (h : call.Plain) (h' : call'.Plain)
    (heq : call.route = call'.route) : call = call' := by
  have hlist : (serviceUrl call.package call.service).toList ++ '/' :: call.method.toList
      = (serviceUrl call'.package call'.service).toList ++ '/' :: call'.method.toList := by
    simpa [CallName.route] using congrArg String.toList heq
  obtain ⟨hurl, hmethod⟩ := Text.append_cons_inj_of_notMem_right h.method h'.method hlist
  obtain ⟨hpackage, hservice⟩ :=
    serviceUrl_inj h.service h'.service (String.toList_injective hurl)
  obtain ⟨package, service, method⟩ := call
  simp only at hpackage hservice hmethod
  rw [hpackage, hservice, String.toList_injective hmethod]

def CallName.ofMethod (package service : String) (method : MethodDescriptor) : CallName :=
  ⟨package, service, method.name.getD ""⟩

theorem route_ofMethod (package service : String) (method : MethodDescriptor) :
    (Method.ofDescriptor (serviceUrl package service) service method).route
      = (CallName.ofMethod package service method).route := rfl

def FileDescriptor.calls (file : FileDescriptor) : List CallName :=
  file.services.flatMap fun service =>
    service.methods.map (CallName.ofMethod (file.package.getD "") (service.name.getD ""))

def Api.routes (api : Api) : List String := api.methods.map Method.route

theorem routes_ofDescriptor (file : FileDescriptor) :
    (Api.ofDescriptor file).routes = file.calls.map CallName.route := by
  simp only [Api.routes, Api.methods, Api.ofDescriptor, FileDescriptor.calls, List.flatMap_map,
    List.map_flatMap, List.map_map, Service.ofDescriptor]
  rfl

theorem flatMap_routes_ofDescriptor (files : List FileDescriptor) :
    (files.map Api.ofDescriptor).flatMap Api.routes
      = (files.flatMap (·.calls)).map CallName.route := by
  rw [List.flatMap_map, List.map_flatMap]
  simp only [routes_ofDescriptor]

theorem nodup_routes {files : List FileDescriptor}
    (hplain : ∀ call ∈ files.flatMap (·.calls), call.Plain)
    (hnodup : (files.flatMap (·.calls)).Nodup) :
    ((files.map Api.ofDescriptor).flatMap Api.routes).Nodup := by
  rw [flatMap_routes_ofDescriptor]
  apply List.Nodup.map_on _ hnodup
  intro call hcall call' hcall' heq
  exact CallName.route_inj (hplain call hcall) (hplain call' hcall') heq

namespace DescriptorSet

variable {set : DescriptorSet} {names : List String}

theorem nodup_filterMap_find? (h : names.Nodup) : (names.filterMap set.find?).Nodup := by
  apply h.filterMap
  intro name name' file hfile hfile'
  exact (mem_of_find? hfile).2.symm.trans (mem_of_find? hfile').2

theorem filterMap_find?_subset (set : DescriptorSet) (names : List String) :
    names.filterMap set.find? ⊆ set.files := by
  intro file hfile
  obtain ⟨name, -, hfind⟩ := List.mem_filterMap.1 hfile
  exact (mem_of_find? hfind).1

theorem filterMap_api? (set : DescriptorSet) (names : List String) :
    names.filterMap set.api? = (names.filterMap set.find?).map Api.ofDescriptor := by
  rw [List.map_filterMap]
  rfl

/-- Different names find different places of the set, so no call of the set is found twice. -/
theorem nodup_calls_found (hnodup : (set.files.flatMap (·.calls)).Nodup) (h : names.Nodup) :
    ((names.filterMap set.find?).flatMap (·.calls)).Nodup := by
  obtain ⟨files, hperm, hsublist⟩ :=
    (nodup_filterMap_find? h).subperm (filterMap_find?_subset set names)
  have hfiles : (files.flatMap (·.calls)).Nodup := (hsublist.flatMap _).nodup hnodup
  exact ((hperm.flatMap_right _).nodup_iff).1 hfiles

end DescriptorSet

/-- For services without a dot and methods without a slash, calls with the same route agree in
package, service and method, and the address of a service ends in its name. So if the calls of a set
are pairwise different, all routes of its APIs are, and so are those of the APIs that different
names find. -/
theorem routes_never_collide :
    (∀ (package package' service service' : String) (method method' : MethodDescriptor),
      '.' ∉ service.toList → '.' ∉ service'.toList →
      '/' ∉ (method.name.getD "").toList → '/' ∉ (method'.name.getD "").toList →
      (Method.ofDescriptor (serviceUrl package service) service method).route
        = (Method.ofDescriptor (serviceUrl package' service') service' method').route →
      package = package' ∧ service = service' ∧ method.name.getD "" = method'.name.getD "") ∧
    (∀ package service : String, '.' ∉ service.toList →
      bareTypeName (serviceUrl package service) = service) ∧
    ∀ set : DescriptorSet, (set.files.flatMap (·.calls)).Nodup →
      (∀ call ∈ set.files.flatMap (·.calls), call.Plain) →
      ((set.files.map Api.ofDescriptor).flatMap Api.routes).Nodup ∧
      ∀ names : List String, names.Nodup →
        ((names.filterMap set.api?).flatMap Api.routes).Nodup := by
  refine ⟨?_, fun package service h => bareTypeName_serviceUrl h package, ?_⟩
  · intro package package' service service' method method' hs hs' hm hm' heq
    rw [route_ofMethod, route_ofMethod] at heq
    have hplain : (CallName.ofMethod package service method).Plain := ⟨hs, hm⟩
    have hplain' : (CallName.ofMethod package' service' method').Plain := ⟨hs', hm'⟩
    have hcall := CallName.route_inj hplain hplain' heq
    simpa [CallName.ofMethod] using hcall
  · intro set hnodup hplain
    refine ⟨nodup_routes hplain hnodup, ?_⟩
    intro names hnames
    rw [DescriptorSet.filterMap_api?]
    apply nodup_routes _ (DescriptorSet.nodup_calls_found hnodup hnames)
    intro call hcall
    obtain ⟨file, hfile, hmem⟩ := List.mem_flatMap.1 hcall
    have hfiles := DescriptorSet.filterMap_find?_subset set names hfile
    exact hplain call (List.mem_flatMap.2 ⟨file, hfiles, hmem⟩)

/-- A package with both separators in it, and a file without a package. -/
def crossroads : DescriptorSet where
  files :=
    [{ name := some "x.proto"
       package := some "x/y.z"
       services :=
        [{ name := some "S", methods := [{ name := some "M" }, { name := some "N.M" }] }] },
      { services := [{ name := some "x/y", methods := [{ name := some "M" }] },
        { name := some "S", methods := [{ name := some "M" }] }] }]

theorem routes_never_collide_crossroads :
    (crossroads.files.map Api.ofDescriptor).flatMap Api.routes
        = ["x/y.z.S/M", "x/y.z.S/N.M", "x/y/M", "S/M"] ∧
      ((crossroads.files.map Api.ofDescriptor).flatMap Api.routes).Nodup ∧
      ((["", "x.proto"].filterMap crossroads.api?).flatMap Api.routes).Nodup ∧
      bareTypeName (serviceUrl "x/y.z" "S") = "S" ∧
      (Method.ofDescriptor (serviceUrl "x" "y/S") "y/S" { name := some "M" }).route
        ≠ (Method.ofDescriptor (serviceUrl "" "y/S") "y/S" { name := some "M" }).route := by
  obtain ⟨hroute, hservice, hset⟩ := routes_never_collide
  have hplain : ∀ call ∈ crossroads.files.flatMap (·.calls),
      '.' ∉ call.service.toList ∧ '/' ∉ call.method.toList := by
    decide +kernel
  obtain ⟨hfiles, hnames⟩ := hset crossroads (by decide +kernel)
    fun call hcall => ⟨(hplain call hcall).1, (hplain call hcall).2⟩
  refine ⟨by decide +kernel, hfiles, hnames _ (by decide), hservice _ _ (by decide), ?_⟩
  intro heq
  obtain ⟨hpackage, -⟩ := hroute _ _ _ _ _ _ (by decide) (by decide) (by decide) (by decide) heq
  exact absurd hpackage (by decide)

end TwirpClients
