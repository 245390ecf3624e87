import Mathlib.Data.List.Forall2
import TwirpClients.Api
import TwirpClients.Proofs.Text.Split
import TwirpClients.Proofs.Text.UpperCase

/-!
# Namespaces made from packages

A package is made a namespace part by part. Upper case can be longer than what it stands for, but it
brings in no dot, so the parts of the namespace are the capitalized parts of the package and nothing
is left to capitalize in them.
-/

namespace TwirpClients

/-- The second text is the first one with its first character in upper case. -/
inductive Capitalizes : List Char → List Char → Prop
  | empty : Capitalizes [] []
  | first (c : Char) (rest : List Char) : Capitalizes (c :: rest) (Text.upper c ++ rest)

theorem capitalizes_capitalize (part : List Char) : Capitalizes part (Text.capitalize part) := by
  cases part with
  | nil => exact .empty
  | cons c rest => exact .first c rest

theorem splitOn_capitalizePackage (package : String) :
    (capitalizePackage package).toList.splitOn '.'
      = (package.toList.splitOn '.').map Text.capitalize := by
  rw [capitalizePackage, String.toList_ofList]
  apply List.splitOn_intercalate
  · intro part hpart hdot
    obtain ⟨old, hold, rfl⟩ := List.mem_map.1 hpart
    exact Text.sep_notMem_of_mem_splitOn hold (Text.mem_of_mem_capitalize (by decide) hdot)
  · simp

theorem capitalizePackage_capitalizePackage (package : String) :
    capitalizePackage (capitalizePackage package) = capitalizePackage package := by
  have htwice : Text.capitalize ∘ Text.capitalize = Text.capitalize :=
    funext Text.capitalize_capitalize
  rw [capitalizePackage, splitOn_capitalizePackage, List.map_map, htwice, ← capitalizePackage]

/-- A namespace has as many dots as its package, and each of its parts is that of the package with
the first character in upper case. As a package it is its own namespace. -/
theorem capitalizePackage_part_by_part (package : String) :
    (capitalizePackage package).toList.count '.' = package.toList.count '.' ∧
      List.Forall₂ Capitalizes (package.toList.splitOn '.')
        ((capitalizePackage package).toList.splitOn '.') ∧
      capitalizePackage (capitalizePackage package) = capitalizePackage package := by
  have hparts := splitOn_capitalizePackage package
  refine ⟨?_, ?_, capitalizePackage_capitalizePackage package⟩
  · have hlength := congrArg List.length hparts
    rw [List.length_map, List.splitOn_eq_splitOnP, List.splitOn_eq_splitOnP, Text.length_splitOnP,
      Text.length_splitOnP] at hlength
    exact Nat.succ.inj hlength
  · rw [hparts, List.forall₂_map_right_iff, List.forall₂_same]
    exact fun part _ => capitalizes_capitalize part

example : capitalizePackage "my..\u00DFet.v1" = "My..SSet.V1" := by decide +kernel

end TwirpClients
