import FailoverFabric.Durability

/-! # Incarnations of the coordinator

`coordinator_main.cpp`: a coordinator process is started, without `--load` the
first time and with `--load` of one file after every crash, serves messages, and
crashes.  A restarted process adopts the epoch after the one in the file, in
memory; the file carries the new epoch only once something saves.

In every run in which each incarnation has written the file before it crashes, and
the compiler reads the epoch's value first, the adopted epochs increase
(`epochs_increase`).  An incarnation that crashes before it saves is followed by
one with the same epoch (`epoch_reused`).
-/
namespace FailoverFabric
open Fabric Persistence

/-- The start of a coordinator process: `main` up to its listening socket.
`loaded` is the file's bytes when `--load` is given. -/
def start (ord : CallOrders) (checkpoint : Text) (loaded : Option (Option (List UInt8))) :
    Except Error Fabric :=
  let fabric := ({} : Fabric).setCheckpointPath checkpoint
  match loaded with
  | none => .ok (fabric.setCoordinatorIdentity ⟨1⟩ 1)
  | some none => .error (.runtimeError "cannot open persistence file")
  | some (some blob) =>
    (fabric.load ord blob).map fun s => s.setCoordinatorIdentity ⟨1⟩ (s.epoch.value + 1)

/-- The steps that messages can cause: the identity, the checkpoint path and the
load are `main`'s. -/
def fromMessage : Label → Bool
  | .op (.setCoordinatorIdentity _ _) => false
  | .op (.setCheckpointPath _) => false
  | .op (.load _) => false
  | .restart _ => false
  | _ => true

/-- The coordinator over its incarnations: the running process, the files, the
epochs adopted so far, latest first, and whether the last incarnation has written
the file that the next one loads. -/
structure Coordinator where
  process : Option SystemState
  disk : Text → Option (List UInt8)
  adopted : List UInt64
  saved : Bool

/-- What can happen to a coordinator.  `removed` is a save that got no further
than removing the old file. -/
inductive Event
  | message (l : Label)
  | save (path : Text)
  | removed (path : Text)
  | crash (checkpoint : Text)

/-- What the attempt of a call has written. -/
def writtenBy (σ : SystemState) (i : Nat) : List (Text × List UInt8) :=
  (((σ.calls[i]?).bind Call.attempt).map (·.written)).getD []

/-- The files that a step of a process writes: its checkpoints. -/
def newWrites (σ σ' : SystemState) : Label → List (Text × List UInt8)
  | .advance i _ => (writtenBy σ' i).drop (writtenBy σ i).length
  | _ => []

namespace Coordinator

/-- Files are written. -/
def write (path : Text) (c : Coordinator) (ws : List (Text × List UInt8)) : Coordinator :=
  { c with
    disk := diskAfter c.disk ws
    saved := c.saved || ws.any fun w => w.1 == path }

/-- One event of a coordinator whose incarnations load `path`. -/
def step (env : Env) (path : Text) (c : Coordinator) : Event → Coordinator
  | .message l =>
    match c.process with
    | some σ =>
      if fromMessage l then
        { c.write path (newWrites σ (σ.step env l) l) with process := some (σ.step env l) }
      else c
    | none => c
  | .save p =>
    match c.process with
    | some σ =>
      match σ.fabric.save with
      | .ok blob => c.write path [(p, blob)]
      | .error _ => c
    | none => c
  | .removed p => { c with disk := Function.update c.disk p none }
  | .crash checkpoint =>
    match start env.ord checkpoint (some (c.disk path)) with
    | .ok s =>
      { c with process := some { fabric := s }, adopted := s.epoch.value :: c.adopted, saved := false }
    | .error _ => { c with process := none }

/-- The first incarnation. -/
def Initial (env : Env) (c : Coordinator) : Prop :=
  ∃ checkpoint s disk, start env.ord checkpoint none = .ok s ∧
    c = ⟨some { fabric := s }, disk, [s.epoch.value], false⟩

end Coordinator

/-- The system of all incarnations. -/
def coordinator (env : Env) (path : Text) : Transition.System Coordinator Event where
  initial := Coordinator.Initial env
  step := Coordinator.step env path

/-! ## The epoch of a running process -/

theorem apply_epoch {env : Env} {s : Fabric} {o : Op} (h : fromMessage (.op o) = true) :
    (s.apply env o).epoch = s.epoch := by
  have heff := apply_effect env s o
  generalize s.apply env o = s' at heff
  cases heff with
  | transient ht => rw [ht]
  | identity id epoch => cases h
  | created hs => rw [(createService_eq hs).1]
  | assigned hs => rw [(setInitialAssignment_eq_ok hs).fabric]
  | installed entry boot => rw [installRoute_eq]
  | loaded hd => cases h
  | _ => rfl

/-- **No message changes the epoch.** -/
theorem message_epoch {env : Env} {σ : SystemState} {l : Label} (h : fromMessage l = true) :
    (σ.step env l).fabric.epoch = σ.fabric.epoch := by
  cases l with
  | op o => exact apply_epoch h
  | beginPlan plan ops => rfl
  | beginFailback slot ops => rfl
  | advance i rd => exact (advance_confined env σ i rd).epoch
  | restart cfg => cases h

/-- A step of a call writes nothing, or a save of the state before it. -/
theorem advance_written (env : Env) (σ : SystemState) (i : Nat) (rd : Readings) :
    writtenBy (σ.step env (.advance i rd)) i = writtenBy σ i ∨
      ∃ w, σ.fabric.save = .ok w.2 ∧
        writtenBy (σ.step env (.advance i rd)) i = writtenBy σ i ++ [w] := by
  rcases step_advance_cases env σ i rd with hstep | ⟨c, hc, hstep⟩
  · rw [hstep]
    exact Or.inl rfl
  rw [hstep]
  have hlt := (List.getElem?_eq_some_iff.mp hc).1
  have hbefore : writtenBy σ i = (c.attempt.map (·.written)).getD [] := by
    rw [writtenBy, hc, Option.bind_some]
  have hafter : writtenBy ⟨(σ.fabric.callStep env rd c).1,
      σ.calls.set i (σ.fabric.callStep env rd c).2⟩ i =
      ((σ.fabric.callStep env rd c).2.attempt.map (·.written)).getD [] := by
    rw [writtenBy, List.getElem?_set_self hlt, Option.bind_some]
  rw [hbefore, hafter]
  rcases callStep_effect env rd σ.fabric c with ⟨-, hsame⟩ | ⟨-, hnone, plan, ops, hnow⟩ |
    ⟨a, ha, -, hnow⟩
  · exact Or.inl (by rw [hsame])
  · exact Or.inl (by rw [hnone, hnow]; rfl)
  · rw [ha, hnow]
    rcases attemptStep_written rd σ.fabric a with hw | ⟨blob, hsave, hw⟩
    · exact Or.inl hw
    · exact Or.inr ⟨(σ.fabric.checkpointPath, blob), hsave, hw⟩

/-- A checkpoint that a step writes is a save of the state before it. -/
theorem newWrites_saved {env : Env} {σ : SystemState} {l : Label} {w : Text × List UInt8}
    (hw : w ∈ newWrites σ (σ.step env l) l) : σ.fabric.save = .ok w.2 := by
  cases l with
  | advance i rd =>
    change w ∈ (writtenBy (σ.step env (.advance i rd)) i).drop (writtenBy σ i).length at hw
    rcases advance_written env σ i rd with hsame | ⟨w', hsave, happ⟩
    · rw [hsame, List.drop_length] at hw
      cases hw
    · rw [happ, List.drop_left, List.mem_singleton] at hw
      exact hw ▸ hsave
  | op o => cases hw
  | beginPlan plan ops => cases hw
  | beginFailback slot ops => cases hw
  | restart cfg => cases hw

/-! ## Epochs -/

/-- The compiler evaluates the epoch's value before its id and boot. -/
def Persistence.ArgOrder.valueFirst : ArgOrder → Bool
  | .valueIdBoot | .valueBootId => true
  | _ => false

theorem Persistence.ArgOrder.reread_value {ord : ArgOrder} (h : ord.valueFirst = true)
    (e : CoordinatorEpoch) : (ord.reread e).value = e.value := by
  cases ord <;> first | rfl | cases h

/-- A crash comes after the incarnation has written the file, and before the last
epoch. -/
def savedBeforeCrash (c : Coordinator) : Event → Bool
  | .crash _ => c.saved && c.adopted.head? != some 18446744073709551615
  | _ => true

/-- The file at the path, if there is one, was saved in the given epoch. -/
def FileOf (file : Option (List UInt8)) (epoch : UInt64) : Prop :=
  ∀ blob, file = some blob → ∃ s : Fabric, s.save = .ok blob ∧ s.epoch.value = epoch

theorem FileOf.diskAfter {disk : Text → Option (List UInt8)} {path : Text} {epoch : UInt64}
    {ws : List (Text × List UInt8)}
    (hws : ∀ w ∈ ws, ∃ s : Fabric, s.save = .ok w.2 ∧ s.epoch.value = epoch)
    (h : (∃ w ∈ ws, w.1 = path) ∨ FileOf (disk path) epoch) :
    FileOf (diskAfter disk ws path) epoch := by
  induction ws generalizing disk with
  | nil => exact h.resolve_left (by simp)
  | cons w ws ih =>
    refine ih (fun x hx => hws x (List.mem_cons_of_mem _ hx)) ?_
    show _ ∨ FileOf (Function.update disk w.1 (some w.2) path) epoch
    by_cases hp : w.1 = path
    · right
      rw [hp, Function.update_self]
      intro blob hb
      cases hb
      exact hws w (List.mem_cons_self ..)
    · rw [Function.update_of_ne (Ne.symm hp)]
      refine h.imp_left ?_
      rintro ⟨x, hx, hxp⟩
      rcases List.mem_cons.mp hx with rfl | hx
      · exact absurd hxp hp
      · exact ⟨x, hx, hxp⟩

/-- **The epochs so far.**  They increase, the running process has the last one,
and so has the file if the incarnation has written it. -/
structure Epochs (path : Text) (c : Coordinator) : Prop where
  increasing : c.adopted.Pairwise (· > ·)
  last : ∃ epoch, c.adopted.head? = some epoch ∧
    (∀ σ, c.process = some σ → σ.fabric.epoch.value = epoch) ∧
    (c.saved = true → FileOf (c.disk path) epoch)

theorem Epochs.write {path : Text} {c : Coordinator} (h : Epochs path c)
    {ws : List (Text × List UInt8)} {σ : SystemState} (hσ : c.process = some σ)
    (hws : ∀ w ∈ ws, σ.fabric.save = .ok w.2) : Epochs path (c.write path ws) := by
  obtain ⟨epoch, hhead, hproc, hfile⟩ := h.last
  refine ⟨h.increasing, epoch, hhead, hproc, fun hsaved => ?_⟩
  refine FileOf.diskAfter (fun w hw => ⟨σ.fabric, hws w hw, hproc σ hσ⟩) ?_
  rcases Bool.or_eq_true_iff.mp hsaved with hold | hnew
  · exact Or.inr (hfile hold)
  · obtain ⟨w, hw, hp⟩ := List.any_eq_true.mp hnew
    exact Or.inl ⟨w, hw, eq_of_beq hp⟩

/-- A started process adopts the epoch after the file's. -/
theorem start_epoch {ord : CallOrders} (hord : ord.decEpoch.valueFirst = true) {checkpoint : Text}
    {file : Option (List UInt8)} {s : Fabric} {epoch : UInt64}
    (h : start ord checkpoint (some file) = .ok s) (hfile : FileOf file epoch) :
    s.epoch.value = epoch + 1 := by
  cases file with
  | none => cases h
  | some blob =>
    obtain ⟨s', hsave, rfl⟩ := hfile blob rfl
    unfold start at h
    simp only at h
    cases hl : load ord (setCheckpointPath {} checkpoint) blob with
    | error e => rw [hl] at h; cases h
    | ok loaded =>
      rw [hl] at h
      cases h
      obtain ⟨snap, hd, rfl⟩ := load_eq_ok.mp hl
      show snap.epoch.value + 1 = _
      rw [(decode_save hsave hd).1]
      show (ord.decEpoch.reread s'.epoch).value + 1 = _
      rw [ArgOrder.reread_value hord]

theorem lt_add_one_of_ne_max {e : UInt64} (h : e ≠ 18446744073709551615) : e < e + 1 := by
  have hne : e.toNat ≠ 18446744073709551615 := fun he => h (UInt64.toNat.inj (by simpa using he))
  have hlt := e.toNat_lt
  rw [UInt64.lt_iff_toNat_lt, UInt64.toNat_add]
  simp only [UInt64.toNat_one]
  omega

/-- A new epoch greater than the last one is greater than all. -/
theorem pairwise_cons_of_head {adopted : List UInt64} (h : adopted.Pairwise (· > ·)) {last e : UInt64}
    (hhead : adopted.head? = some last) (he : e > last) : (e :: adopted).Pairwise (· > ·) := by
  obtain ⟨rest, rfl⟩ := List.head?_eq_some_iff.mp hhead
  rw [List.pairwise_cons] at h
  refine List.pairwise_cons.mpr ⟨fun x hx => ?_, List.pairwise_cons.mpr h⟩
  rcases List.mem_cons.mp hx with rfl | hx
  · exact he
  · exact UInt64.lt_trans (h.1 x hx) he

section
variable {env : Env} {path : Text} {c : Coordinator}

theorem Epochs.message (h : Epochs path c) (l : Label) :
    Epochs path (c.step env path (.message l)) := by
  unfold Coordinator.step
  simp only
  split
  · rename_i σ hσ
    split
    · rename_i hmsg
      have hw : Epochs path (c.write path (newWrites σ (σ.step env l) l)) :=
        h.write hσ fun w hw => newWrites_saved hw
      obtain ⟨epoch', hhead', hproc', hfile'⟩ := hw.last
      refine ⟨hw.increasing, epoch', hhead', fun τ hτ => ?_, hfile'⟩
      cases hτ
      rw [message_epoch hmsg]
      exact hproc' σ hσ
    · exact h
  · exact h

theorem Epochs.save (h : Epochs path c) (p : Text) : Epochs path (c.step env path (.save p)) := by
  unfold Coordinator.step
  simp only
  split
  · rename_i σ hσ
    split
    · rename_i blob hsave
      refine h.write hσ fun w hw => ?_
      rw [List.mem_singleton] at hw
      exact hw ▸ hsave
    · exact h
  · exact h

theorem Epochs.removed (h : Epochs path c) (p : Text) :
    Epochs path (c.step env path (.removed p)) := by
  obtain ⟨epoch, hhead, hproc, hfile⟩ := h.last
  refine ⟨h.increasing, epoch, hhead, hproc, fun hsaved => ?_⟩
  show FileOf (Function.update c.disk p none path) epoch
  by_cases hp : path = p
  · subst hp
    rw [Function.update_self]
    intro blob hb
    cases hb
  · rw [Function.update_of_ne hp]
    exact hfile hsaved

/-- After a crash, a new incarnation adopts a greater epoch, or none. -/
theorem Epochs.crash (hord : env.ord.decEpoch.valueFirst = true) (h : Epochs path c)
    {checkpoint : Text} (hok : savedBeforeCrash c (.crash checkpoint) = true) :
    Epochs path (c.step env path (.crash checkpoint)) := by
  obtain ⟨epoch, hhead, hproc, hfile⟩ := h.last
  obtain ⟨hsaved, hmax⟩ := Bool.and_eq_true_iff.mp hok
  unfold Coordinator.step
  simp only
  split
  · rename_i s hs
    -- the file carries the last adopted epoch, because that incarnation wrote it
    have hepoch := start_epoch hord hs (hfile hsaved)
    have hne : epoch ≠ 18446744073709551615 := by
      rintro rfl
      rw [hhead] at hmax
      cases hmax
    refine ⟨pairwise_cons_of_head h.increasing hhead ?_, s.epoch.value, rfl, ?_, fun hw => ?_⟩
    · rw [hepoch]
      exact lt_add_one_of_ne_max hne
    · intro τ hτ
      cases hτ
      rfl
    · cases hw
  · refine ⟨h.increasing, epoch, hhead, ?_, hfile⟩
    intro τ hτ
    cases hτ

theorem Epochs.step (hord : env.ord.decEpoch.valueFirst = true) (h : Epochs path c) {e : Event}
    (hok : savedBeforeCrash c e = true) : Epochs path (c.step env path e) := by
  cases e with
  | message l => exact h.message l
  | save p => exact h.save p
  | removed p => exact h.removed p
  | crash checkpoint => exact h.crash hord hok

end

/-- **Epochs are never reused** in the runs in which every incarnation has written
the file before it crashes: the epoch that each incarnation adopts is greater than
those of all earlier ones. -/
theorem epochs_increase (env : Env) (hord : env.ord.decEpoch.valueFirst = true) (path : Text)
    {c : Coordinator}
    (h : Transition.Reachable (coordinator env path) (fun c e => savedBeforeCrash c e = true) c) :
    c.adopted.Pairwise (· > ·) := by
  refine (h.invariant (P := Epochs path) ?_ fun c e _ hc hok => hc.step hord hok).increasing
  rintro c ⟨checkpoint, s, disk, hs, rfl⟩
  refine ⟨List.pairwise_singleton .., s.epoch.value, rfl, ?_, nofun⟩
  intro σ hσ
  cases hσ
  rfl

namespace Reference

/-- The file of the reference coordinator. -/
def file : Text := text "coordinator"

/-- The first incarnation of a coordinator, with no files. -/
def firstIncarnation : Coordinator :=
  ⟨some { fabric := setCoordinatorIdentity {} ⟨1⟩ 1 }, fun _ => none, [1], false⟩

theorem firstIncarnation_initial : (coordinator env file).initial firstIncarnation :=
  ⟨[], _, fun _ => none, rfl, rfl⟩

end Reference

open Reference in
/-- Two incarnations that save, and a third. -/
theorem epochs_increase_reference :
    let c := (coordinator env file).run firstIncarnation [.save file, .crash [], .save file, .crash []]
    c.adopted = [3, 2, 1] ∧ c.adopted.Pairwise (· > ·) := by
  intro c
  have hreach := Transition.Reachable.run (T := coordinator env file) (b := savedBeforeCrash)
    [.save file, .crash [], .save file, .crash []] (.initial firstIncarnation_initial)
    (by decide +kernel)
  exact ⟨by decide +kernel, epochs_increase env rfl file hreach⟩

open Reference in
/-- **An epoch can be reused.**  The second incarnation crashes before anything
saves its epoch; the third adopts it again. -/
theorem epoch_reused :
    ¬ ∀ c, Transition.Reachable (coordinator env file) (fun _ _ => True) c →
      c.adopted.Pairwise (· > ·) := by
  intro h
  have hpair := h _ (.run_all [.save file, .crash [], .crash []] (.initial firstIncarnation_initial))
  exact absurd hpair (by decide +kernel)

end FailoverFabric
