import Mathlib.Data.List.Basic

/-! # Scripts that stop at the first refusal

A script is a list of points that a procedure passes in order; at each it may be
refused, and then it stops.  `Ran script log` says that `log` is such a run from its
beginning to its end: the points that were reached, each with whether it was passed.
-/
namespace Script
variable {α : Type*}

/-- The log of a run of the script. -/
inductive Ran : List α → List (α × Bool) → Prop
  | done : Ran [] []
  | refused (p : α) (ps : List α) : Ran (p :: ps) [(p, false)]
  | passed {ps : List α} {log : List (α × Bool)} (p : α) :
      Ran ps log → Ran (p :: ps) ((p, true) :: log)

variable {ps : List α} {log : List (α × Bool)}

/-- **The points that were reached are a first part of the script.** -/
theorem Ran.isPrefix (h : Ran ps log) : log.map Prod.fst <+: ps := by
  induction h with
  | done => exact List.nil_prefix
  | refused p ps => exact ⟨ps, rfl⟩
  | passed p _ ih => exact List.cons_prefix_cons.mpr ⟨rfl, ih⟩

/-- **Nothing follows a refusal.** -/
theorem Ran.refused_last (h : Ran ps log) {before after : List (α × Bool)} {p : α}
    (heq : log = before ++ (p, false) :: after) : after = [] := by
  induction h generalizing before with
  | done => simp at heq
  | refused q ps =>
    cases before with
    | nil => exact (List.cons.inj heq).2.symm
    | cons x before => simp at heq
  | passed q _ ih =>
    cases before with
    | nil => simp at heq
    | cons x before => exact ih (List.cons.inj heq).2

/-- **A run goes through the script, or ends in a refusal.** -/
theorem Ran.complete_or_refused (h : Ran ps log) :
    log.map Prod.fst = ps ∧ (∀ x ∈ log, x.2 = true) ∨ ∃ before p, log = before ++ [(p, false)] := by
  induction h with
  | done => exact Or.inl ⟨rfl, fun x hx => by cases hx⟩
  | refused p ps => exact Or.inr ⟨[], p, rfl⟩
  | passed p _ ih =>
    rcases ih with ⟨hps, hall⟩ | ⟨before, q, heq⟩
    · refine Or.inl ⟨by rw [List.map_cons, hps], fun x hx => ?_⟩
      rcases List.mem_cons.mp hx with rfl | hx
      · rfl
      · exact hall x hx
    · exact Or.inr ⟨(p, true) :: before, q, by rw [heq]; rfl⟩

/-- What was passed before a run makes a longer one. -/
theorem Ran.passed_before {log' : List (α × Bool)} (h : Ran ps log)
    (hpassed : ∀ x ∈ log', x.2 = true) : Ran (log'.map Prod.fst ++ ps) (log' ++ log) := by
  induction log' with
  | nil => exact h
  | cons x log' ih =>
    obtain ⟨p, ok⟩ := x
    obtain rfl : ok = true := hpassed _ List.mem_cons_self
    exact .passed p (ih fun x hx => hpassed x (List.mem_cons_of_mem _ hx))

end Script
