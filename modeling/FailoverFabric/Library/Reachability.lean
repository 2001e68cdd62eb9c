import Mathlib.Logic.Relation
import Mathlib.Data.List.Induction

/-! # Labelled transition systems and their runs

A system is a set of initial states and a labelled step function.  A run may be
restricted by a guard on its steps (`ok`), so that "in every run whose steps all
meet this condition" is `Reachable T ok`; the unrestricted runs are those with
`ok = fun _ _ => True`.

Three induction rules are packaged here.  `Reachable.invariant` is the usual one,
for a property of one state.  `Path.stable` is for a relation between a state of
the run and a later one: what some earlier state had, and what is left of it
now.  `throughout_iff` is for a property that some steps break at once: it holds all
along a run exactly if none of these is taken.
-/
namespace Transition

/-- A transition system.  `step` is total: a label that is not enabled leaves
the state alone. -/
structure System (State Label : Type) where
  initial : State → Prop
  step : State → Label → State

variable {State Label : Type} (T : System State Label) (ok : State → Label → Prop)

/-- The states of the runs whose steps all satisfy `ok`. -/
inductive Reachable : State → Prop
  | initial {s : State} : T.initial s → Reachable s
  | step {s : State} {l : Label} : Reachable s → ok s l → Reachable (T.step s l)

/-- One run: the states passed so far, most recent first, and the present one. -/
inductive Path : List State → State → Prop
  | initial {s : State} : T.initial s → Path [] s
  | step {past : List State} {s : State} {l : Label} :
      Path past s → ok s l → Path (s :: past) (T.step s l)

/-- `d` is reached from `c` by steps that all satisfy `ok`. -/
def Later (c d : State) : Prop :=
  Relation.ReflTransGen (fun s s' => ∃ l, ok s l ∧ s' = T.step s l) c d

variable {T ok}

/-- **The invariant rule.**  A property of the initial states that every
permitted step preserves holds in every reachable state. -/
theorem Reachable.invariant {P : State → Prop} (h0 : ∀ s, T.initial s → P s)
    (hstep : ∀ s l, Reachable T ok s → P s → ok s l → P (T.step s l)) {s : State}
    (h : Reachable T ok s) : P s := by
  induction h with
  | initial hs => exact h0 _ hs
  | step hr hok ih => exact hstep _ _ hr ih hok

theorem Path.reachable {past : List State} {s : State} (h : Path T ok past s) :
    Reachable T ok s := by
  induction h with
  | initial hs => exact .initial hs
  | step _ hok ih => exact .step ih hok

theorem Path.reachable_of_mem {past : List State} {s : State} (h : Path T ok past s) :
    ∀ u ∈ s :: past, Reachable T ok u := by
  induction h with
  | initial hs =>
    intro u hu
    rw [List.mem_singleton] at hu
    exact hu ▸ .initial hs
  | step hp hok ih =>
    intro u hu
    rcases List.mem_cons.mp hu with rfl | hu
    · exact .step hp.reachable hok
    · exact ih u hu

/-- **The stability rule.**  A relation that holds between every reachable state
and itself, and that a step of the later state preserves, holds between every
state of a run and the present one. -/
theorem Path.stable {R : State → State → Prop} (hrefl : ∀ s, Reachable T ok s → R s s)
    (hstep : ∀ u s l, Reachable T ok s → R u s → ok s l → R u (T.step s l))
    {past : List State} {s : State} (h : Path T ok past s) : ∀ u ∈ s :: past, R u s := by
  induction h with
  | initial hs =>
    intro u hu
    rw [List.mem_singleton] at hu
    subst hu
    exact hrefl u (.initial hs)
  | step hp hok ih =>
    intro u hu
    rcases List.mem_cons.mp hu with rfl | hu
    · exact hrefl _ (.step hp.reachable hok)
    · exact hstep u _ _ hp.reachable (ih u hu) hok

/-! ## Runs that are computed -/

/-- The state after a list of labels. -/
def System.run (T : System State Label) (s : State) (ls : List Label) : State := ls.foldl T.step s

theorem System.run_concat (T : System State Label) (s : State) (ls : List Label) (l : Label) :
    T.run s (ls ++ [l]) = T.step (T.run s ls) l := by
  rw [System.run, List.foldl_append]
  rfl

/-- Every step of the run passes the test. -/
def System.permits (T : System State Label) (b : State → Label → Bool) :
    State → List Label → Bool
  | _, [] => true
  | s, l :: ls => b s l && T.permits b (T.step s l) ls

/-- A computed run that passes the guard's test reaches its last state. -/
theorem Reachable.run {b : State → Label → Bool} {s : State} (ls : List Label)
    (hs : Reachable T (fun s l => b s l = true) s) (h : T.permits b s ls = true) :
    Reachable T (fun s l => b s l = true) (T.run s ls) := by
  induction ls generalizing s with
  | nil => exact hs
  | cons l ls ih =>
    rw [System.permits, Bool.and_eq_true] at h
    exact ih (.step hs h.1) h.2

theorem Reachable.run_all {s : State} (ls : List Label) (hs : Reachable T (fun _ _ => True) s) :
    Reachable T (fun _ _ => True) (T.run s ls) := by
  induction ls generalizing s with
  | nil => exact hs
  | cons l ls ih => exact ih (.step hs trivial)

/-- A computed run extends a path, and the states it starts from are in its
past. -/
theorem Path.run {b : State → Label → Bool} {past : List State} {s : State} (ls : List Label)
    (hp : Path T (fun s l => b s l = true) past s) (h : T.permits b s ls = true) :
    ∃ past', Path T (fun s l => b s l = true) past' (T.run s ls) ∧
      ∀ u ∈ s :: past, u ∈ T.run s ls :: past' := by
  induction ls generalizing past s with
  | nil => exact ⟨past, hp, fun _ hu => hu⟩
  | cons l ls ih =>
    rw [System.permits, Bool.and_eq_true] at h
    obtain ⟨past', hp', hsub⟩ := ih (.step hp h.1) h.2
    exact ⟨past', hp', fun u hu => hsub u (List.mem_cons_of_mem _ hu)⟩

/-! ## The step to blame

A run from a fixed start is its list of labels, and each of its steps a label
together with those before it. -/

/-- The steps of a run that is one label longer. -/
theorem forall_step_append {Q : List Label → Label → Prop} (ls : List Label) (l : Label) :
    (∀ past l', past ++ [l'] <+: ls ++ [l] → Q past l') ↔
      (∀ past l', past ++ [l'] <+: ls → Q past l') ∧ Q ls l := by
  constructor
  · intro h
    exact ⟨fun past l' hp => h past l' (hp.trans (List.prefix_append ls [l])),
      h ls l (List.prefix_refl _)⟩
  · rintro ⟨hbefore, hlast⟩ past l' hp
    rcases List.prefix_concat_iff.mp hp with heq | hp
    · obtain ⟨rfl, hl⟩ := List.append_inj' heq rfl
      cases hl
      exact hlast
    · exact hbefore past l' hp

/-- What holds of the empty run and what every blameless step keeps, a run of
blameless steps has. -/
theorem of_blameless {I : List Label → Prop} {blameless : List Label → Label → Prop} (h0 : I [])
    (hstep : ∀ past l, I past → blameless past l → I (past ++ [l])) (ls : List Label)
    (h : ∀ past l, past ++ [l] <+: ls → blameless past l) : I ls := by
  induction ls using List.reverseRecOn with
  | nil => exact h0
  | append_singleton ls l ih =>
    obtain ⟨hbefore, hlast⟩ := (forall_step_append ls l).mp h
    exact hstep ls l (ih hbefore) hlast

/-- **A property holds all along a run exactly if every step is blameless.**  Here
a step is blameless if it keeps an invariant that gives the property, and a step
that is not breaks the property at once. -/
theorem throughout_iff {I P : List Label → Prop} {blameless : List Label → Label → Prop} (h0 : I [])
    (hP : ∀ past, I past → P past)
    (hstep : ∀ past l, I past → blameless past l → I (past ++ [l]))
    (hblame : ∀ past l, I past → P (past ++ [l]) → blameless past l) (ls : List Label) :
    (∀ past, past <+: ls → P past) ↔ ∀ past l, past ++ [l] <+: ls → blameless past l := by
  constructor
  · induction ls using List.reverseRecOn with
    | nil => exact fun _ past l hp => absurd (List.prefix_nil.mp hp) (by simp)
    | append_singleton ls l ih =>
      intro hall
      -- the steps before the last are blameless, so the invariant is there for it
      have hbefore := ih fun past hp => hall past (hp.trans (List.prefix_append ls [l]))
      have hlast := hblame ls l (of_blameless h0 hstep ls hbefore) (hall _ (List.prefix_refl _))
      exact (forall_step_append ls l).mpr ⟨hbefore, hlast⟩
  · intro hall past hp
    exact hP past (of_blameless h0 hstep past fun past' l hp' => hall past' l (hp'.trans hp))

/-- The same for the runs whose labels all meet a condition. -/
theorem throughout_iff_of {I P : List Label → Prop} {blameless : List Label → Label → Prop}
    {D : Label → Prop} (h0 : I []) (hP : ∀ past, I past → P past)
    (hstep : ∀ past l, D l → I past → blameless past l → I (past ++ [l]))
    (hblame : ∀ past l, D l → I past → P (past ++ [l]) → blameless past l) (ls : List Label)
    (hD : ∀ l ∈ ls, D l) :
    (∀ past, past <+: ls → P past) ↔ ∀ past l, past ++ [l] <+: ls → blameless past l := by
  have hlast : ∀ past l, (∀ l' ∈ past ++ [l], D l') → (∀ l' ∈ past, D l') ∧ D l := by
    intro past l h
    exact ⟨fun l' hl' => h l' (List.mem_append_left _ hl'), h l (by simp)⟩
  -- of the other runs nothing is asked
  have hall : (∀ past, past <+: ls → (∀ l ∈ past, D l) → P past) ↔
      ∀ past l, past ++ [l] <+: ls → (∀ l' ∈ past ++ [l], D l') → blameless past l :=
    throughout_iff (I := fun past => (∀ l ∈ past, D l) → I past)
      (fun _ => h0) (fun past h hd => hP past (h hd))
      (fun past l h hb hd => hstep past l (hlast past l hd).2 (h (hlast past l hd).1) (hb hd))
      (fun past l h hp hd => hblame past l (hlast past l hd).2 (h (hlast past l hd).1) (hp hd)) ls
  constructor
  · intro h past l hp
    exact hall.mp (fun past hp _ => h past hp) past l hp fun l' hl' => hD l' (hp.subset hl')
  · intro h past hp
    exact hall.mpr (fun past l hp _ => h past l hp) past hp fun l' hl' => hD l' (hp.subset hl')

/-! ## History variables -/

/-- The system with a variable beside it that records what its steps find. -/
def System.withHistory {History : Type} (T : System State Label) (start : History)
    (note : State → Label → History → History) : System (State × History) Label where
  initial p := T.initial p.1 ∧ p.2 = start
  step p l := (T.step p.1 l, note p.1 l p.2)

/-- The variable takes no part in the run. -/
theorem Reachable.fst {History : Type} {start : History} {note : State → Label → History → History}
    {ok : State × History → Label → Prop} {p : State × History}
    (h : Reachable (T.withHistory start note) ok p) : Reachable T (fun _ _ => True) p.1 := by
  induction h with
  | initial hp => exact .initial hp.1
  | step _ _ ih => exact .step ih trivial

/-! ## Stability -/

/-- **What every step keeps, every later state has.** -/
theorem Later.stable {P : State → Prop} (hstep : ∀ s l, P s → ok s l → P (T.step s l))
    {c d : State} (h : Later T ok c d) (hc : P c) : P d := by
  induction h with
  | refl => exact hc
  | tail _ hs ih =>
    obtain ⟨l, hok, rfl⟩ := hs
    exact hstep _ l ih hok

end Transition
