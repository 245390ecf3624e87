import Mathlib.Data.List.Forall2

/-!
# Computations that stop at the first error

A list is gone through with a step that may fail. All steps succeed, or there is a first one that
does not, and then its error is the result.
-/

namespace TwirpClients

variable {α β ε : Type}

theorem bind_ok_iff {x : Except ε α} {f : α → Except ε β} {b : β} :
    x >>= f = .ok b ↔ ∃ a, x = .ok a ∧ f a = .ok b := by
  cases x with
  | error e => simp [bind, Except.bind]
  | ok a => simp [bind, Except.bind]

theorem map_ok_iff {x : Except ε α} {f : α → β} {b : β} :
    x.map f = .ok b ↔ ∃ a, x = .ok a ∧ f a = b := by
  cases x with
  | error e => simp [Except.map]
  | ok a => simp [Except.map]

section Map

variable {f g : α → Except ε β}

theorem mapM_cons_eq (a : α) (as : List α) :
    (a :: as).mapM f = match f a, as.mapM f with
      | .error e, _ => .error e
      | .ok _, .error e => .error e
      | .ok b, .ok bs => .ok (b :: bs) := by
  rw [List.mapM_cons]
  cases f a with
  | error e => rfl
  | ok b => cases as.mapM f <;> rfl

theorem mapM_ok_iff {as : List α} {bs : List β} :
    as.mapM f = .ok bs ↔ List.Forall₂ (fun a b => f a = .ok b) as bs := by
  induction as generalizing bs with
  | nil =>
    rw [List.forall₂_nil_left_iff]
    constructor
    · intro h
      cases h
      rfl
    · rintro rfl
      rfl
  | cons a as ih =>
    rw [List.forall₂_cons_left_iff, mapM_cons_eq]
    constructor
    · intro h
      split at h
      · cases h
      · cases h
      · next b rest hb hrest =>
        cases h
        exact ⟨b, rest, hb, ih.1 hrest, rfl⟩
    · rintro ⟨b, rest, hb, hrest, rfl⟩
      rw [hb, ih.2 hrest]

theorem mapM_error_iff {as : List α} {e : ε} :
    as.mapM f = .error e ↔ ∃ before a after,
      as = before ++ a :: after ∧ (∀ b ∈ before, ∃ c, f b = .ok c) ∧ f a = .error e := by
  induction as with
  | nil => simp [pure, Except.pure]
  | cons a as ih =>
    rw [mapM_cons_eq]
    constructor
    · intro h
      split at h
      · next ha =>
        cases h
        exact ⟨[], a, as, rfl, by simp, ha⟩
      · next b _ hb hrest =>
        cases h
        obtain ⟨before, c, after, rfl, hbefore, hc⟩ := ih.1 hrest
        exact ⟨a :: before, c, after, rfl, List.forall_mem_cons.2 ⟨⟨b, hb⟩, hbefore⟩, hc⟩
      · cases h
    · rintro ⟨before, c, after, heq, hbefore, hc⟩
      cases before with
      | nil =>
        cases heq
        simp only [hc]
      | cons d before =>
        cases heq
        obtain ⟨⟨b, hb⟩, hbefore⟩ := List.forall_mem_cons.1 hbefore
        rw [hb, ih.2 ⟨before, c, after, rfl, hbefore, hc⟩]

theorem mapM_congr {as : List α} (h : ∀ a ∈ as, f a = g a) :
    as.mapM f = as.mapM g := by
  induction as with
  | nil => rfl
  | cons a as ih =>
    have hrest := ih fun b hb => h b (List.mem_cons_of_mem a hb)
    rw [mapM_cons_eq, mapM_cons_eq, h a List.mem_cons_self, hrest]

end Map

theorem foldlM_error_iff {f : β → α → Except ε β} {as : List α} {init : β} {e : ε} :
    as.foldlM f init = .error e ↔ ∃ before a after reached,
      as = before ++ a :: after ∧ before.foldlM f init = .ok reached ∧ f reached a = .error e := by
  constructor
  · intro h
    induction as generalizing init with
    | nil => cases h
    | cons first rest ih =>
      rw [List.foldlM_cons] at h
      cases hfirst : f init first with
      | error fault =>
        rw [hfirst] at h
        cases h
        exact ⟨[], first, rest, init, rfl, rfl, hfirst⟩
      | ok next =>
        rw [hfirst] at h
        obtain ⟨before, a, after, reached, rfl, hbefore, ha⟩ := ih h
        refine ⟨first :: before, a, after, reached, rfl, ?_, ha⟩
        rw [List.foldlM_cons, hfirst]
        exact hbefore
  · rintro ⟨before, a, after, reached, rfl, hbefore, ha⟩
    rw [List.foldlM_append, hbefore]
    change (a :: after).foldlM f reached = .error e
    rw [List.foldlM_cons, ha]
    rfl

end TwirpClients
