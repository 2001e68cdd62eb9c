import FailoverFabric.Library.Reachability
import Mathlib.Data.Set.Basic

/-! # Fencing before replacement, abstractly

Authority over slots is held by boots.  A holder may be replaced only once it is
fenced, some boots being exempt.  If every step of a system keeps to that rule
and never takes a fence back, then in every run every boot that ever held a slot
is exempt, fenced, or still its holder.
-/
namespace Fencing
open Transition

variable {Slot Boot : Type}

/-- Who holds each slot, and which boots are fenced. -/
structure Authority (Slot Boot : Type) where
  holder : Slot → Option Boot
  fenced : Set Boot

variable (exempt : Set Boot)

/-- Every holder of `c` is exempt, or fenced or still the holder in `c'`. -/
def Accounted (c c' : Authority Slot Boot) : Prop :=
  ∀ k b, c.holder k = some b → b ∈ exempt ∨ b ∈ c'.fenced ∨ c'.holder k = some b

/-- A step that keeps to the rule: fences stay, and nobody is replaced unfenced. -/
structure Replaces (c c' : Authority Slot Boot) : Prop where
  fenced : c.fenced ⊆ c'.fenced
  holder : Accounted exempt c c'

variable {exempt} {c c' c'' : Authority Slot Boot}

theorem Accounted.refl (c : Authority Slot Boot) : Accounted exempt c c :=
  fun _ _ h => Or.inr (Or.inr h)

theorem Accounted.step (h : Accounted exempt c c') (hs : Replaces exempt c' c'') :
    Accounted exempt c c'' := by
  intro k b hb
  rcases h k b hb with he | hf | hh
  · exact Or.inl he
  · exact Or.inr (Or.inl (hs.fenced hf))
  · exact hs.holder k b hh

/-- **Nobody is forgotten.**  A system whose states are abstracted to authority,
and whose permitted steps all keep to the rule, accounts at the end of a run for
the holders of all its states. -/
theorem accounted_of_path {State Label : Type} {T : System State Label}
    {ok : State → Label → Prop} (abs : State → Authority Slot Boot)
    (h : ∀ s l, Reachable T ok s → ok s l → Replaces exempt (abs s) (abs (T.step s l)))
    {past : List State} {s : State} (hp : Path T ok past s) :
    ∀ u ∈ s :: past, Accounted exempt (abs u) (abs s) :=
  hp.stable (R := fun u s => Accounted exempt (abs u) (abs s)) (fun _ _ => .refl _)
    fun _ s l hr hacc hok => hacc.step (h s l hr hok)

end Fencing
