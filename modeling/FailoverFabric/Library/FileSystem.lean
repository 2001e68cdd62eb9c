import Mathlib.Logic.Function.Basic
import Mathlib.Tactic.Common

/-! # Files and crashes

A file system is a map from paths to contents, and a program's effect on it is
the list of its actions, each of them atomic.  A process may crash between any
two actions, so what may be found after a crash is what the prefixes of the list
leave behind (`CrashState`).

`CrashState.append` cuts a program into parts, and `run_of_untouched` says that a
path that no action touches keeps its content: a property of one path at every
crash point is then a property of the few actions that touch it.
-/
namespace FileSystem
variable {Path Byte : Type}

/-- The contents of the files that exist. -/
abbrev Disk (Path Byte : Type) := Path → Option (List Byte)

/-- What a program does to files, one atomic action at a time. -/
inductive Action (Path Byte : Type)
  | truncate (p : Path)
  | append (p : Path) (bytes : List Byte)
  | remove (p : Path)
  | rename (src dst : Path)

/-- The paths that an action may change. -/
def Action.Touches : Action Path Byte → Path → Prop
  | truncate p, x => x = p
  | append p _, x => x = p
  | remove p, x => x = p
  | rename src dst, x => x = src ∨ x = dst

variable [DecidableEq Path]

/-- One action; renaming replaces the destination. -/
def Action.apply (d : Disk Path Byte) : Action Path Byte → Disk Path Byte
  | truncate p => Function.update d p (some [])
  | append p bytes => Function.update d p ((d p).map (· ++ bytes))
  | remove p => Function.update d p none
  | rename src dst =>
    match d src with
    | some content => Function.update (Function.update d src none) dst (some content)
    | none => d

/-- The disk after a program. -/
def run (d : Disk Path Byte) (as : List (Action Path Byte)) : Disk Path Byte := as.foldl Action.apply d

/-- A disk that a crash of the program may leave behind. -/
def CrashState (as : List (Action Path Byte)) (d d' : Disk Path Byte) : Prop :=
  ∃ k, d' = run d (as.take k)

variable {d d' : Disk Path Byte} {as bs : List (Action Path Byte)} {p x : Path}

theorem run_append : run d (as ++ bs) = run (run d as) bs := by
  rw [run, List.foldl_append]
  rfl

theorem Action.apply_rename {src dst : Path} {content : List Byte} (h : d src = some content) :
    (Action.rename src dst).apply d =
      Function.update (Function.update d src none) dst (some content) := by
  simp [Action.apply, h]

theorem Action.apply_of_untouched {a : Action Path Byte} (h : ¬ a.Touches x) : a.apply d x = d x := by
  cases a with
  | truncate p => exact Function.update_of_ne h ..
  | append p bytes => exact Function.update_of_ne h ..
  | remove p => exact Function.update_of_ne h ..
  | rename src dst =>
    cases hsrc : d src with
    | none => simp [Action.apply, hsrc]
    | some content =>
      rw [Action.apply_rename hsrc, Function.update_of_ne fun he => h (Or.inr he),
        Function.update_of_ne fun he => h (Or.inl he)]

/-- **What no action touches is kept.** -/
theorem run_of_untouched (h : ∀ a ∈ as, ¬ a.Touches x) : run d as x = d x := by
  induction as generalizing d with
  | nil => rfl
  | cons a as ih =>
    show run (a.apply d) as x = d x
    rw [ih fun b hb => h b (List.mem_cons_of_mem _ hb),
      Action.apply_of_untouched (h a (List.mem_cons_self ..))]

/-- Appending pieces appends them all. -/
theorem run_appends (pieces : List (List Byte)) :
    run d (pieces.map (.append p)) p = (d p).map (· ++ pieces.flatten) := by
  induction pieces generalizing d with
  | nil => simp [run]
  | cons bytes pieces ih =>
    show run ((Action.append p bytes).apply d) (pieces.map (.append p)) p = _
    rw [ih]
    simp [Action.apply, Function.comp_def, List.append_assoc]

/-! ## Crashes -/

theorem CrashState.done : CrashState as d (run d as) := ⟨as.length, by rw [List.take_length]⟩

theorem CrashState.nil : CrashState [] d d' ↔ d' = d := by simp [CrashState, run]

theorem CrashState.cons {a : Action Path Byte} :
    CrashState (a :: as) d d' ↔ d' = d ∨ CrashState as (a.apply d) d' := by
  constructor
  · rintro ⟨k, rfl⟩
    cases k with
    | zero => exact Or.inl rfl
    | succ k => exact Or.inr ⟨k, rfl⟩
  · rintro (rfl | ⟨k, rfl⟩)
    · exact ⟨0, rfl⟩
    · exact ⟨k + 1, rfl⟩

/-- A crash of two programs, one after the other, is a crash of the first, or of
the second after the first is done. -/
theorem CrashState.append :
    CrashState (as ++ bs) d d' ↔ CrashState as d d' ∨ CrashState bs (run d as) d' := by
  induction as generalizing d with
  | nil =>
    refine ⟨Or.inr, ?_⟩
    rintro (h | h)
    · exact ⟨0, CrashState.nil.mp h⟩
    · exact h
  | cons a as ih => rw [List.cons_append, CrashState.cons, ih, CrashState.cons, or_assoc]; rfl

theorem CrashState.of_untouched (hc : CrashState as d d') (h : ∀ a ∈ as, ¬ a.Touches x) :
    d' x = d x := by
  obtain ⟨k, rfl⟩ := hc
  exact run_of_untouched fun a ha => h a (List.mem_of_mem_take ha)

end FileSystem
