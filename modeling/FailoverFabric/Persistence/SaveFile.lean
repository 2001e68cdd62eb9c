import FailoverFabric.Persistence.Format
import FailoverFabric.Library.FileSystem

/-! # Writing the file

`persistence::save_file` writes the blob to a temporary beside the path, removes
the file at the path, and renames the temporary to it.  Between the removal and
the renaming the path holds nothing, although the temporary holds the whole new
blob (`save_recoverable`).  A save is crash-atomic exactly when it never gets to
remove the old file (`save_atomic_iff`).
-/
namespace FailoverFabric
namespace Persistence
open FileSystem

/-- How the operating system answers one call: whether the temporary opens, into
which pieces the blob is cut and whether all of it is written, and whether
removing and renaming succeed. -/
structure Answers where
  opened : Bool := true
  cuts : List Nat := []
  good : Bool := true
  removed : Bool := true
  renamed : Bool := true

/-- Why a save ended by an exception. -/
inductive SaveError
  | encoding (e : Error)
  | cannotOpen (path : Text)
  | writeFailed
  | renameFailed
  deriving DecidableEq

/-- The text that `save_file` throws; an encoder's error has its own. -/
def SaveError.what : SaveError → Option Text
  | encoding _ => none
  | cannotOpen path => some (text "cannot open persistence file for write: " ++ path)
  | writeFailed => some (text "persistence write failed")
  | renameFailed => some (text "persistence rename failed")

/-- The temporary of a path. -/
def temporary (path : Text) : Text := path ++ text ".tmp"

/-- The pieces that are written of a blob: as it was cut, and the rest of it
unless the writing failed. -/
def pieces (good : Bool) : List Nat → List UInt8 → List (List UInt8)
  | [], blob => if good then [blob] else []
  | n :: cuts, blob => blob.take n :: pieces good cuts (blob.drop n)

/-- Opening the temporary, and writing to it. -/
def writes (io : Answers) (path : Text) (blob : List UInt8) : List (Action Text UInt8) :=
  .truncate (temporary path) :: (pieces io.good io.cuts blob).map (.append (temporary path))

/-- The temporary is written, and the old file removed.  The result of the removal
is not looked at. -/
def cleared (io : Answers) (path : Text) (blob : List UInt8) : List (Action Text UInt8) :=
  writes io path blob ++ if io.removed then [.remove path] else []

/-- `save_file`: the actions it takes, and how it ends. -/
def saveFile (io : Answers) (path : Text) (s : PersistenceSnapshot) :
    List (Action Text UInt8) × Except SaveError Unit :=
  match encode s with
  | .error e => ([], .error (.encoding e))
  | .ok blob =>
    if !io.opened then ([], .error (.cannotOpen path))
    else if !io.good then (writes io path blob, .error .writeFailed)
    else if !io.renamed then (cleared io path blob, .error .renameFailed)
    else (cleared io path blob ++ [.rename (temporary path) path], .ok ())

/-- Why a load ended by an exception. -/
inductive LoadError
  | cannotOpen (path : Text)
  | decoding (e : Error)
  deriving DecidableEq

/-- The text that `load_file` throws; a decoder's error has its own. -/
def LoadError.what : LoadError → Option Text
  | cannotOpen path => some (text "cannot open persistence file: " ++ path)
  | decoding _ => none

/-- `load_file`. -/
def loadFile (ord : CallOrders) (d : Disk Text UInt8) (path : Text) :
    Except LoadError PersistenceSnapshot :=
  match d path with
  | none => .error (.cannotOpen path)
  | some blob => (decode ord blob).mapError .decoding

/-! ## The temporary -/

theorem temporary_ne (path : Text) : temporary path ≠ path := by
  intro h
  have hlen := congrArg List.length h
  have htext : (text ".tmp").length = 4 := by decide
  rw [temporary, List.length_append, htext] at hlen
  omega

/-- All pieces together are the blob, if the writing did not fail. -/
theorem pieces_flatten (cuts : List Nat) (blob : List UInt8) :
    (pieces true cuts blob).flatten = blob := by
  induction cuts generalizing blob with
  | nil => simp [pieces]
  | cons n cuts ih => rw [pieces, List.flatten_cons, ih, List.take_append_drop]

section
variable {io : Answers} {path : Text} {blob : List UInt8} {d d' : Disk Text UInt8}

theorem writes_untouched {x : Text} (hx : x ≠ temporary path) :
    ∀ a ∈ writes io path blob, ¬ a.Touches x := by
  intro a ha
  rcases List.mem_cons.mp ha with rfl | ha
  · exact hx
  · obtain ⟨bytes, -, rfl⟩ := List.mem_map.mp ha
    exact hx

/-- **Writing the temporary** leaves the path alone, and leaves the whole blob in
the temporary unless it failed. -/
theorem run_writes (hgood : io.good = true) :
    run d (writes io path blob) path = d path ∧
      run d (writes io path blob) (temporary path) = some blob := by
  refine ⟨run_of_untouched (writes_untouched (temporary_ne path).symm), ?_⟩
  show run (Action.apply d (.truncate (temporary path))) _ (temporary path) = some blob
  rw [run_appends, hgood, pieces_flatten]
  simp [Action.apply]

/-- What a crash before the renaming leaves: the old file, or none. -/
theorem crash_cleared (hgood : io.good = true) (hc : CrashState (cleared io path blob) d d') :
    d' path = d path ∨
      io.removed = true ∧ d' path = none ∧ d' (temporary path) = some blob := by
  obtain ⟨hpath, htmp⟩ : run d (writes io path blob) path = d path ∧ _ := run_writes hgood
  rcases CrashState.append.mp hc with hc | hc
  · exact Or.inl (hc.of_untouched (writes_untouched (temporary_ne path).symm))
  split at hc
  · rename_i hremoved
    rcases CrashState.cons.mp hc with rfl | hc
    · exact Or.inl hpath
    · rw [CrashState.nil.mp hc]
      refine Or.inr ⟨hremoved, Function.update_self .., ?_⟩
      rw [← htmp]
      exact Function.update_of_ne (temporary_ne path) ..
  · rw [CrashState.nil.mp hc]
    exact Or.inl hpath

theorem run_cleared_temporary (hgood : io.good = true) :
    run d (cleared io path blob) (temporary path) = some blob := by
  have htmp : run d (writes io path blob) (temporary path) = some blob := (run_writes hgood).2
  rw [cleared, run_append, run_of_untouched, htmp]
  intro a ha
  split at ha
  · rw [List.mem_singleton] at ha
    rw [ha]
    exact temporary_ne path
  · cases ha

end

/-! ## The whole call -/

section
variable {io : Answers} {path : Text} {s : PersistenceSnapshot} {d d' : Disk Text UInt8}

/-- **The call gets to remove the old file**: the snapshot is encoded, the temporary
opened and written, and the removal succeeds. -/
def RemovesOld (io : Answers) (s : PersistenceSnapshot) : Prop :=
  (∃ blob, encode s = .ok blob) ∧ io.opened = true ∧ io.good = true ∧ io.removed = true

/-- **What a crash leaves at the path**: the old file, the whole new blob, or
nothing.  Then the call had removed the old file, and the temporary holds the
whole new blob. -/
theorem save_recoverable (hc : CrashState (saveFile io path s).1 d d') :
    d' path = d path ∨ ∃ blob, encode s = .ok blob ∧ (d' path = some blob ∨
      RemovesOld io s ∧ d' path = none ∧ d' (temporary path) = some blob) := by
  unfold saveFile at hc
  cases henc : encode s with
  | error e =>
    rw [henc] at hc
    rw [CrashState.nil.mp hc]
    exact Or.inl rfl
  | ok blob =>
    rw [henc] at hc
    simp only at hc
    suffices h : d' path = d path ∨ d' path = some blob ∨
        RemovesOld io s ∧ d' path = none ∧ d' (temporary path) = some blob from
      h.imp_right fun h => ⟨blob, rfl, h⟩
    have hcleared : io.opened = true → io.good = true → CrashState (cleared io path blob) d d' →
        d' path = d path ∨ d' path = some blob ∨
          RemovesOld io s ∧ d' path = none ∧ d' (temporary path) = some blob := by
      intro hopen hgood hc
      rcases crash_cleared hgood hc with h | ⟨hremoved, h⟩
      · exact Or.inl h
      · exact Or.inr (Or.inr ⟨⟨⟨blob, henc⟩, hopen, hgood, hremoved⟩, h⟩)
    split_ifs at hc with hopen hgood hrenamed
    · rw [CrashState.nil.mp hc]
      exact Or.inl rfl
    · exact Or.inl (hc.of_untouched (writes_untouched (temporary_ne path).symm))
    · simp only [Bool.not_eq_true', Bool.not_eq_false] at hopen hgood
      exact hcleared hopen hgood hc
    · simp only [Bool.not_eq_true', Bool.not_eq_false] at hopen hgood
      rcases CrashState.append.mp hc with hc | hc
      · exact hcleared hopen hgood hc
      rcases CrashState.cons.mp hc with rfl | hc
      · exact hcleared hopen hgood .done
      -- the temporary is whole when it is renamed
      · rw [CrashState.nil.mp hc]
        refine Or.inr (Or.inl ?_)
        rw [Action.apply_rename (run_cleared_temporary hgood), Function.update_self]

/-- After the removal, and before the renaming, the path holds nothing. -/
theorem crash_removed (h : RemovesOld io s) :
    ∃ d', CrashState (saveFile io path s).1 d d' ∧ d' path = none := by
  obtain ⟨⟨blob, henc⟩, hopen, hgood, hremoved⟩ := h
  refine ⟨run d (cleared io path blob), ?_, ?_⟩
  · unfold saveFile
    rw [henc]
    simp only [hopen, hgood, Bool.not_true, Bool.false_eq_true, if_false]
    split
    · exact .done
    · exact CrashState.append.mpr (Or.inl .done)
  · rw [cleared, hremoved, run_append]
    exact Function.update_self ..

/-- **A crash-atomic save**: at every point where the process may crash, and where
an exception leaves it, the path holds the old file or the whole new blob. -/
def CrashAtomic (io : Answers) (path : Text) (s : PersistenceSnapshot) (d : Disk Text UInt8) : Prop :=
  ∀ d', CrashState (saveFile io path s).1 d d' →
    d' path = d path ∨ ∃ blob, encode s = .ok blob ∧ d' path = some blob

/-- **A save is crash-atomic exactly when it does not get to remove the old file.**
For every snapshot, every file at the path and all answers of the system. -/
theorem save_atomic_iff (io : Answers) (path : Text) (s : PersistenceSnapshot)
    (d : Disk Text UInt8) {old : List UInt8} (hold : d path = some old) :
    CrashAtomic io path s d ↔ ¬ RemovesOld io s := by
  constructor
  · intro h hremoves
    obtain ⟨d', hc, hnone⟩ : ∃ d', CrashState (saveFile io path s).1 d d' ∧ d' path = none :=
      crash_removed hremoves
    rcases h d' hc with hsame | ⟨blob, -, hnew⟩
    · rw [hnone, hold] at hsame
      cases hsame
    · rw [hnone] at hnew
      cases hnew
  · intro h d' hc
    rcases save_recoverable hc with hsame | ⟨blob, henc, hnew | ⟨hremoves, -⟩⟩
    · exact Or.inl hsame
    · exact Or.inr ⟨blob, henc, hnew⟩
    · exact absurd hremoves h

/-- **A save that returns is what the next load reads.**  Nothing else has changed,
but that there is no temporary. -/
theorem save_then_load (ord : CallOrders) (h : (saveFile io path s).2 = .ok ()) :
    ∃ blob, encode s = .ok blob ∧
      loadFile ord (run d (saveFile io path s).1) path = (decode ord blob).mapError .decoding ∧
      run d (saveFile io path s).1 (temporary path) = none ∧
      ∀ x, x ≠ path → x ≠ temporary path → run d (saveFile io path s).1 x = d x := by
  unfold saveFile at h ⊢
  cases henc : encode s with
  | error e =>
    rw [henc] at h
    cases h
  | ok blob =>
    rw [henc] at h
    simp only at h ⊢
    split_ifs at h ⊢ with hopen hgood hrenamed
    simp only [Bool.not_eq_true', Bool.not_eq_false] at hgood
    have hdisk : run d (cleared io path blob ++ [.rename (temporary path) path]) = _ :=
      run_append.trans (Action.apply_rename (run_cleared_temporary hgood))
    refine ⟨blob, rfl, ?_, ?_, fun x hx htmp => ?_⟩
    · rw [loadFile, hdisk, Function.update_self]
    · rw [hdisk, Function.update_of_ne (temporary_ne path), Function.update_self]
    · rw [hdisk, Function.update_of_ne hx, Function.update_of_ne htmp, cleared, run_append,
        run_of_untouched, run_of_untouched (writes_untouched htmp)]
      intro a ha
      split at ha
      · rw [List.mem_singleton] at ha
        exact ha ▸ hx
      · cases ha

end

/-- A save whose removal fails: the renaming replaces the file in one action. -/
theorem save_atomic_unremoved :
    ∃ old d, encode {} = .ok old ∧ d (text "ff") = some old ∧
      CrashAtomic { removed := false, cuts := [3, 5] } (text "ff") { lastAuthorityGen := ⟨2⟩ } d := by
  have hok : (encode {}).toBool = true := by decide +kernel
  cases henc : encode {} with
  | error e =>
    rw [henc] at hok
    cases hok
  | ok old =>
    refine ⟨old, fun _ => some old, rfl, rfl, (save_atomic_iff _ _ _ (fun _ => some old) rfl).mpr ?_⟩
    rintro ⟨-, -, -, hremoved⟩
    cases hremoved

/-- **The old file is gone before the new one is there.**  A crash between the
removal and the renaming leaves no file at the path. -/
theorem save_window :
    ¬ ∀ io path s d s0 old, encode s0 = .ok old → d path = some old → CrashAtomic io path s d := by
  intro h
  have hok : (encode {}).toBool = true := by decide +kernel
  cases henc : encode {} with
  | error e =>
    rw [henc] at hok
    cases hok
  | ok old =>
    have hremoves : RemovesOld {} {} := ⟨⟨old, henc⟩, rfl, rfl, rfl⟩
    obtain ⟨d', hc, hnone⟩ : ∃ d', CrashState (saveFile {} (text "ff") {}).1 (fun _ => some old) d' ∧
        d' (text "ff") = none := crash_removed hremoves
    rcases h {} (text "ff") {} (fun _ => some old) {} old henc rfl d' hc with hsame | ⟨blob, -, hnew⟩
    · rw [hnone] at hsame
      cases hsame
    · rw [hnone] at hnew
      cases hnew

end Persistence
end FailoverFabric
