import Mathlib.Logic.Relation
import Mathlib.Tactic.Common

/-! # Parent chains

A forest given by declarations: `decl a` is `none` when `a` is not declared,
`some none` when it is declared as a root, and `some (some p)` when it is declared
with the parent `p`.  Nothing keeps parents declared, or chains free of cycles, so
code that climbs a chain stops at what is not declared and after a number of
elements (`walk`).

`mem_walk` says what a climb meets.  On a chain that ends in a root and is no
longer than the bound, that is everything at or above its start
(`Chain.within_iff`).
-/
namespace ParentChain
variable {α : Type} (decl : α → Option (Option α))

/-- Climb from `cur` on, through at most `guard` declared elements. -/
def walk : Nat → Option α → List α
  | 0, _ => []
  | _, none => []
  | guard + 1, some cur =>
    match decl cur with
    | none => []
    | some parent => cur :: walk guard parent

/-- `a` is declared with the parent `p`. -/
def Parent (a p : α) : Prop := decl a = some (some p)

/-- `x` is `a` or above it. -/
def AtOrAbove : α → α → Prop := Relation.ReflTransGen (Parent decl)

/-- `x` is declared, and among the first `n` elements of the chain of `a`. -/
inductive Within : Nat → α → α → Prop
  | self {n : Nat} {a : α} : (decl a).isSome = true → Within (n + 1) a a
  | above {n : Nat} {a p x : α} : Parent decl a p → Within n p x → Within (n + 1) a x

/-- The chain of `a`: it passes through declared elements only and ends in a
root. -/
inductive Chain : α → List α → Prop
  | root {a : α} : decl a = some none → Chain a [a]
  | child {a p : α} {l : List α} : Parent decl a p → Chain p l → Chain a (a :: l)

variable {decl} {n : Nat} {a x : α}

theorem Within.atOrAbove (h : Within decl n a x) : AtOrAbove decl a x := by
  induction h with
  | self _ => exact .refl
  | above hp _ ih => exact .head hp ih

theorem not_within_zero : ¬ Within decl 0 a x := by
  intro h
  cases h

/-- **A climb meets what is within its bound.** -/
theorem mem_walk : x ∈ walk decl n (some a) ↔ Within decl n a x := by
  induction n generalizing a with
  | zero => simpa [walk] using not_within_zero
  | succ n ih =>
    unfold walk
    constructor
    · intro h
      split at h
      · cases h
      · rename_i parent hdecl
        rcases List.mem_cons.mp h with rfl | h
        · exact .self (by rw [hdecl]; rfl)
        · cases parent with
          | none => cases n <;> cases h
          | some p => exact .above hdecl (ih.mp h)
    · intro h
      cases h with
      | self hdecl =>
        obtain ⟨parent, hparent⟩ := Option.isSome_iff_exists.mp hdecl
        rw [hparent]
        exact List.mem_cons_self ..
      | above hp hw =>
        rw [Parent] at hp
        rw [hp]
        exact List.mem_cons_of_mem _ (ih.mpr hw)

/-- On a chain that ends in a root within the bound, a climb meets everything at
or above its start. -/
theorem Chain.within_iff {l : List α} (h : Chain decl a l) (hn : l.length ≤ n) :
    Within decl n a x ↔ AtOrAbove decl a x := by
  refine ⟨Within.atOrAbove, fun hx => ?_⟩
  -- along the chain, with one element of the bound used at each
  induction h generalizing n with
  | @root a hroot =>
    obtain ⟨m, rfl⟩ : ∃ m, n = m + 1 := ⟨n - 1, by simp at hn; omega⟩
    rcases Relation.ReflTransGen.cases_head hx with rfl | ⟨p, hp, -⟩
    · exact .self (by rw [hroot]; rfl)
    · rw [Parent, hroot] at hp
      cases hp
  | @child a p l hp _ ih =>
    obtain ⟨m, rfl⟩ : ∃ m, n = m + 1 := ⟨n - 1, by simp at hn; omega⟩
    rcases Relation.ReflTransGen.cases_head hx with rfl | ⟨p', hp', hx⟩
    · exact .self (by rw [hp]; rfl)
    · have hsame : p' = p := by
        rw [Parent, hp] at hp'
        exact (Option.some.inj (Option.some.inj hp')).symm
      subst hsame
      exact .above hp (ih (by simp at hn; omega) hx)

end ParentChain
