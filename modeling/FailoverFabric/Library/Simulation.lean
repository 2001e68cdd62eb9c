import FailoverFabric.Library.Reachability

/-! # A system that runs within another one

A refinement takes the states of one system to those of a more abstract one, and each of its
steps to a run there, which may be empty.  Then it takes what is reachable to what is
reachable (`Refines.reachable`), so that the invariants of the abstract system hold of the
image.

The guards of the two systems may differ: what the abstract system has to assume of its steps,
the concrete one may see to by itself.
-/
namespace Transition

variable {State Label State' Label' : Type}

section Later
variable {T : System State Label} {ok : State → Label → Prop}

theorem Later.refl (c : State) : Later T ok c c := Relation.ReflTransGen.refl

theorem Later.single {c : State} {l : Label} (hok : ok c l) : Later T ok c (T.step c l) :=
  Relation.ReflTransGen.single ⟨l, hok, rfl⟩

theorem Later.trans {c d e : State} (hcd : Later T ok c d) (hde : Later T ok d e) :
    Later T ok c e := Relation.ReflTransGen.trans hcd hde

theorem Later.mono {ok' : State → Label → Prop} {c d : State} (h : Later T ok c d)
    (hle : ∀ s l, ok s l → ok' s l) : Later T ok' c d := by
  induction h with
  | refl => exact .refl c
  | tail _ hs ih =>
    obtain ⟨l, hok, rfl⟩ := hs
    exact ih.trans (.single (hle _ l hok))

theorem Reachable.later {c d : State} (hc : Reachable T ok c) (h : Later T ok c d) :
    Reachable T ok d := by
  induction h with
  | refl => exact hc
  | tail _ hs ih =>
    obtain ⟨l, hok, rfl⟩ := hs
    exact .step ih hok

/-- A computed run whose steps all pass the guard's test. -/
theorem Later.run {b : State → Label → Bool} {c : State} (ls : List Label)
    (h : T.permits b c ls = true) : Later T (fun s l => b s l = true) c (T.run c ls) := by
  induction ls generalizing c with
  | nil => exact .refl c
  | cons l ls ih =>
    rw [System.permits, Bool.and_eq_true] at h
    have hone : Later T (fun s l => b s l = true) c (T.step c l) := .single h.1
    exact hone.trans (ih h.2)

/-- Every run has its history. -/
theorem Reachable.withHistory {History : Type} (start : History)
    (note : State → Label → History → History) {s : State}
    (h : Reachable T (fun _ _ => True) s) :
    ∃ past, Reachable (T.withHistory start note) (fun _ _ => True) (s, past) := by
  induction h with
  | initial h0 => exact ⟨start, .initial ⟨h0, rfl⟩⟩
  | step _ _ ih =>
    obtain ⟨past, hpast⟩ := ih
    exact ⟨_, .step hpast trivial⟩

end Later

/-- `abs` takes the runs of `T` to runs of `U`. -/
structure Refines (T : System State Label) (ok : State → Label → Prop) (U : System State' Label')
    (ok' : State' → Label' → Prop) (abs : State → State') : Prop where
  initial : ∀ s, T.initial s → Reachable U ok' (abs s)
  step : ∀ s l, Reachable T ok s → ok s l → Later U ok' (abs s) (abs (T.step s l))

namespace Refines
variable {T : System State Label} {ok : State → Label → Prop} {U : System State' Label'}
  {ok' : State' → Label' → Prop} {abs : State → State'}

theorem reachable (h : Refines T ok U ok' abs) {s : State} (hs : Reachable T ok s) :
    Reachable U ok' (abs s) := by
  induction hs with
  | initial h0 => exact h.initial _ h0
  | step hr hok ih => exact ih.later (h.step _ _ hr hok)

end Refines

/-- **A step for a step**: each step of `T` is one that `U` takes, or leaves the image as it is. -/
theorem refines_of_step {T : System State Label} {ok : State → Label → Prop}
    {U : System State' Label'} {ok' : State' → Label' → Prop} {abs : State → State'}
    (hinitial : ∀ s, T.initial s → U.initial (abs s)) (image : State → Label → Option Label')
    (hnone : ∀ s l, image s l = none → abs (T.step s l) = abs s)
    (hsome : ∀ s l l', Reachable T ok s → ok s l → image s l = some l' →
      ok' (abs s) l' ∧ abs (T.step s l) = U.step (abs s) l') :
    Refines T ok U ok' abs where
  initial s hs := .initial (hinitial s hs)
  step s l hr hok := by
    cases himage : image s l with
    | none =>
      rw [hnone s l himage]
      exact .refl _
    | some l' =>
      obtain ⟨hok', hstep⟩ := hsome s l l' hr hok himage
      rw [hstep]
      exact .single hok'

end Transition
