import FailoverFabric.WorkerService

/-! # A worker that comes back

A stateful worker saves its checkpoint into the file at its state path in place: the file is
truncated when it is opened, and written after that.  A kill, or a full disk, between the two
leaves nothing or a part of the checkpoint.  A part is never taken for a whole one
(`loadCheckpoint_torn`), so that what a new process starts with is the last checkpoint that
was written whole at its path, if the file has not been truncated since
(`resumes_from_last_save`).

`Ledger` counts the work that was done on the host, by all its processes.  No process ever
claims more of it (`committed_never_ahead`), and what one claims grows with exactly the
requests that it has worked on.
-/
namespace FailoverFabric
namespace Worker
open Codec Protocol

/-! ## Torn checkpoints -/

theorem Checkpoint.length_bytes (c : Checkpoint) : c.bytes.length = 29 + c.model.length := by
  rw [Checkpoint.bytes, length_saveCheckpoint]
  omega

/-- The header of a checkpoint, of which the first part is left. -/
theorem modelLength_take {c : Checkpoint} (hmodel : c.model.length < 2 ^ 32) {n : Nat} (hn : 25 ≤ n) :
    modelLength (c.bytes.take n) = c.model.length := by
  have hlength := c.length_bytes
  have hbody : c.bytes.take (25 + c.model.length) = checkpointBody c.session c.seq c.model := by
    rw [Checkpoint.bytes, saveCheckpoint, List.take_left' (length_checkpointBody ..)]
  obtain ⟨-, -, -, hlen, -⟩ := take_eq_checkpointBody (by omega) hbody
  have hslice : slice (c.bytes.take n) 21 4 = slice c.bytes 21 4 := by
    rw [slice, slice, List.drop_take, List.take_take, Nat.min_eq_left (by omega)]
  rw [modelLength, getLE_of_slice (UInt32.toNat_lt _) (hslice.trans hlen),
    UInt32.toNat_ofNat_of_lt' hmodel]

theorem magic_take (c : Checkpoint) {n : Nat} (hn : 5 ≤ n) :
    (c.bytes.take n).take 5 = checkpointMagic := by
  have hmagic : c.bytes.take 5 = checkpointMagic := by
    rw [Checkpoint.bytes, saveCheckpoint, checkpointBody, List.append_assoc]
    exact List.take_left' rfl
  rw [List.take_take, Nat.min_eq_left hn, hmagic]

/-- **A part of a checkpoint is not loaded.**  It is refused, or read past its end where it
stops inside of the header. -/
theorem loadCheckpoint_torn (c : Checkpoint) (hmodel : c.model.length < 2 ^ 32) {n : Nat}
    (hn : n < c.bytes.length) (wantSession : UInt64) :
    (∃ r, loadCheckpoint (some (c.bytes.take n)) wantSession = .returned false r) ∨
      20 ≤ n ∧ n < 25 ∧ loadCheckpoint (some (c.bytes.take n)) wantSession = .outOfBounds := by
  have hlength : (c.bytes.take n).length = n := List.length_take_of_le (Nat.le_of_lt hn)
  by_cases hshort : n < 20
  · exact .inl ⟨_, loadCheckpoint_refused wantSession (.inl (by omega))⟩
  have hmagic := magic_take c (n := n) (by omega)
  by_cases hheader : n < 25
  · refine .inr ⟨by omega, hheader, ?_⟩
    rw [loadCheckpoint_admitted wantSession (by omega) hmagic, readCheckpoint_short (by omega)]
  · rw [loadCheckpoint_long wantSession (by omega) hmagic, modelLength_take hmodel (by omega), hlength]
    rw [c.length_bytes] at hn
    rw [if_pos (by omega)]
    exact .inl ⟨_, rfl⟩

/-- A worker that finds a part of a checkpoint starts without one, if it starts. -/
theorem start_torn {o : Options} {c : Checkpoint} (hmodel : c.model.length < 2 ^ 32) {n : Nat}
    (hn : n < c.bytes.length) (hstateful : o.stateful = true) {w : WorkerState}
    (h : start o (some (c.bytes.take n)) = some w) : w = {} := by
  simp only [start, if_pos hstateful] at h
  rcases loadCheckpoint_torn c hmodel hn o.session with ⟨r, hr⟩ | ⟨-, -, hout⟩
  · rw [hr] at h
    exact (Option.some.inj h).symm
  · rw [hout] at h
    cases h

/-- What a worker starts with that finds a whole checkpoint. -/
def resumed (o : Options) (c : Checkpoint) : WorkerState where
  committedSeq := c.seq
  modelKey := if c.model.isEmpty then defaultModelKey else c.model
  restored := c.session == o.session

theorem start_whole {o : Options} {c : Checkpoint} (hmodel : c.model.length < 2 ^ 32)
    (hstateful : o.stateful = true) : start o (some c.bytes) = some (resumed o c) := by
  simp only [start, if_pos hstateful, Checkpoint.bytes, loadCheckpoint_saveCheckpoint _ _ _ hmodel,
    adopt, Bool.true_and]
  rfl

/-! ## The ledger of a host -/

/-- What has been done on a host: how many requests were worked on, with what sequence the
running process began and how many of them it did, and for each path the last checkpoint
that was written whole, unless the file was truncated after it, or a note written there. -/
structure Ledger where
  served : Nat := 0
  base : UInt64 := 0
  since : Nat := 0
  saved : Text → Option Checkpoint := fun _ => none

namespace Ledger

/-- What a thread of the process does. -/
def noteRunning (p : Process) (led : Ledger) : HostEvent → Ledger
  | .perform i opened =>
    match p.admittedAt i with
    | some w =>
      if w.request.counts then { led with served := led.served + 1, since := led.since + 1 }
      else if p.truncates w opened then
        { led with saved := Function.update led.saved p.options.statePath none }
      else led
    | none => led
  | .write i n =>
    match p.savingAt i with
    | some (_, c) =>
      if c.bytes.length ≤ n then
        { led with saved := Function.update led.saved p.options.statePath (some c) }
      else led
    | none => led
  | _ => led

/-- What was saved at a path is lost to a note. -/
def marked (led : Ledger) (mark : Option (Text × List UInt8)) : Ledger :=
  match mark with
  | some (path, _) => { led with saved := Function.update led.saved path none }
  | none => led

def note (h : Host) (e : HostEvent) (led : Ledger) : Ledger :=
  match h.process with
  | some p => (led.noteRunning p e).marked (p.marks e)
  | none =>
    match e with
    | .start o =>
      ((Worker.start o.toOptions (h.files o.statePath)).map fun w =>
        { led with base := w.committedSeq, since := 0 }).getD led
    | _ => led

end Ledger

/-- A host with its ledger. -/
def ledgered : Transition.System (Host × Ledger) HostEvent := hosting.withHistory {} Ledger.note

/-- A write is cut short only in a file that nothing was written to. -/
def wholeWrites (hl : Host × Ledger) : HostEvent → Bool
  | .write i n => hl.1.process.all fun p => (p.savingAt i).all fun wc =>
      decide (wc.2.bytes.length ≤ n) || hl.1.files p.options.statePath == some []
  | _ => true

/-! ## What the ledger says -/

/-- A file is the last checkpoint that was saved there, or a part of one, or a note. -/
structure Filed (file : Option (List UInt8)) (saved : Option Checkpoint) (served : Nat) : Prop where
  whole : ∀ c, saved = some c →
    file = some c.bytes ∧ c.seq.toNat ≤ served ∧ c.model.length < 2 ^ 32
  part : saved = none → file = none ∨ (∃ f, file = some f ∧ f.length < 20) ∨
    ∃ (c : Checkpoint) (n : Nat), file = some (c.bytes.take n) ∧ n < c.bytes.length ∧
      c.model.length < 2 ^ 32

/-- A process and what it has done. -/
structure Exact (files : FileSystem.Disk Text UInt8) (p : Process) (led : Ledger) : Prop where
  seq : p.state.committedSeq = led.base + UInt64.ofNat led.since
  bound : led.base.toNat + led.since ≤ led.served
  name : p.state.modelKey.length < 2 ^ 32
  saving : ∀ w ∈ p.threads, ∀ c, w.stage = .saving c →
    c.seq.toNat ≤ led.served ∧ c.model = p.state.modelKey ∧
      ∃ f, files p.options.statePath = some f ∧ f.length ≤ c.bytes.length

structure Accounted (hl : Host × Ledger) : Prop where
  running : ∀ p, hl.1.process = some p → Exact hl.1.files p hl.2
  filed : ∀ path, Filed (hl.1.files path) (hl.2.saved path) hl.2.served

section Accounts
variable {files : FileSystem.Disk Text UInt8} {p p' : Process} {led : Ledger}

/-- The sequence of a process is not ahead of the work. -/
theorem Exact.not_ahead (h : Exact files p led) : p.state.committedSeq.toNat ≤ led.served := by
  rw [h.seq, UInt64.toNat_add, UInt64.toNat_ofNat']
  have hbound := h.bound
  have hmod := Nat.mod_le (led.base.toNat + led.since % 2 ^ 64) (2 ^ 64)
  have hsince := Nat.mod_le led.since (2 ^ 64)
  omega

/-! ## What an event does to the accounts -/

theorem Quiet.noteRunning {e : HostEvent} (h : Quiet p e) (led : Ledger) :
    led.noteRunning p e = led := by
  cases e with
  | perform i opened =>
    have hnone : p.admittedAt i = none := by simpa [Process.performs] using h.performs
    simp only [Ledger.noteRunning, hnone]
  | write i n =>
    have hnone : p.savingAt i = none := by simpa [Process.writes] using h.writes
    simp only [Ledger.noteRunning, hnone]
  | _ => rfl

/-- A thread that is saving was so before, or has just begun. -/
theorem mem_setStage {i : Nat} {w v : Work} {stage : WorkStage} (hthreads : p'.threads = p.threads)
    (hv : v ∈ (p'.setStage i w stage).threads) : v ∈ p.threads ∨ v.stage = stage := by
  change v ∈ p'.threads.set i { w with stage := stage } at hv
  rw [hthreads] at hv
  rcases List.mem_or_eq_of_mem_set hv with hold | rfl
  · exact .inl hold
  · exact .inr rfl

/-- A process that goes on as before, perhaps with a thread at another stage. -/
theorem Exact.kept (h : Exact files p led) (hstate : p'.state = p.state)
    (hoptions : p'.options = p.options)
    (hthreads : ∀ v ∈ p'.threads, v ∈ p.threads ∨ ∀ c, v.stage ≠ .saving c) :
    Exact files p' led where
  seq := hstate ▸ h.seq
  bound := h.bound
  name := hstate ▸ h.name
  saving v hv c hc := by
    rcases hthreads v hv with hold | hother
    · rw [hstate, hoptions]
      exact h.saving v hold c hc
    · exact absurd hc (hother c)

/-- The state file is replaced, in the disk and in the ledger. -/
theorem Filed.replaced {file : Option (List UInt8)} {saved : Option Checkpoint}
    (hfiled : ∀ path, Filed (files path) (led.saved path) led.served) (path₀ : Text)
    (h : Filed file saved led.served) (path : Text) :
    Filed (Function.update files path₀ file path) (Function.update led.saved path₀ saved path)
      led.served := by
  by_cases hpath : path = path₀
  · subst hpath
    rw [Function.update_self, Function.update_self]
    exact h
  · rw [Function.update_of_ne hpath, Function.update_of_ne hpath]
    exact hfiled path

/-- The state file has been truncated for a save. -/
theorem Accounted.truncated (h : Exact files p led)
    (hfiled : ∀ path, Filed (files path) (led.saved path) led.served) (i : Nat) (w : Work) :
    Accounted (⟨some (p.setStage i w (.saving p.checkpoint)),
        Function.update files p.options.statePath (some [])⟩,
      { led with saved := Function.update led.saved p.options.statePath none }) where
  running p' hp' := by
    cases hp'
    have hempty : Function.update files p.options.statePath (some []) p.options.statePath =
      some [] := Function.update_self ..
    refine ⟨h.seq, h.bound, h.name, fun v hv c hc => ?_⟩
    rcases mem_setStage rfl hv with hold | hnew
    · obtain ⟨hseq, hmodel, -⟩ := h.saving v hold c hc
      exact ⟨hseq, hmodel, [], hempty, Nat.zero_le _⟩
    · rw [hnew] at hc
      cases hc
      exact ⟨h.not_ahead, rfl, [], hempty, Nat.zero_le _⟩
  filed := by
    exact Filed.replaced hfiled _ ⟨fun c hc => (by cases hc), fun _ => .inr (.inl ⟨[], rfl, by decide⟩)⟩

/-- A request has been worked on. -/
theorem Accounted.worked (h : Exact files p led)
    (hfiled : ∀ path, Filed (files path) (led.saved path) led.served) (i : Nat) (w : Work)
    (fields : List Field) :
    Accounted (⟨some ({ p with state.committedSeq := p.state.committedSeq + 1 }.setStage i w
      (.answered fields)), files⟩, { led with served := led.served + 1, since := led.since + 1 }) where
  running p' hp' := by
    cases hp'
    refine ⟨?_, ?_, h.name, fun v hv c hc => ?_⟩
    · show p.state.committedSeq + 1 = led.base + UInt64.ofNat (led.since + 1)
      rw [h.seq, UInt64.ofNat_add, UInt64.add_assoc]
      rfl
    · show led.base.toNat + (led.since + 1) ≤ led.served + 1
      have hbound := h.bound
      omega
    · rcases mem_setStage rfl hv with hold | hnew
      · obtain ⟨hseq, hmodel, hfile⟩ := h.saving v hold c hc
        exact ⟨Nat.le_succ_of_le hseq, hmodel, hfile⟩
      · rw [hnew] at hc
        cases hc
  filed path := by
    refine ⟨fun c hc => ?_, (hfiled path).part⟩
    obtain ⟨hfile, hseq, hmodel⟩ := (hfiled path).whole c hc
    exact ⟨hfile, Nat.le_succ_of_le hseq, hmodel⟩

theorem Accounted.performed {h' : Host} {i : Nat} {opened : Bool} {w : Work}
    (hexact : Exact files p led) (hfiled : ∀ path, Filed (files path) (led.saved path) led.served)
    (hw : p.admittedAt i = some w) (hdone : Performed p files i opened w h') :
    Accounted (h', led.noteRunning p (.perform i opened)) := by
  simp only [Ledger.noteRunning, hw]
  cases hdone with
  | @steered p' stage hsteers hkept hthreads hstate hoptions _ hst =>
    rw [if_neg (by rw [hsteers]; exact Bool.false_ne_true), if_neg hkept]
    refine ⟨fun p'' hp'' => ?_, hfiled⟩
    cases hp''
    refine hexact.kept hstate hoptions fun v hv => ?_
    refine (mem_setStage hthreads hv).imp_right fun hnew c hc => ?_
    rw [hnew] at hc
    rcases hst with rfl | rfl | rfl <;> cases hc
  | saving htruncates =>
    have hsteers := counts_of_input (.inr (.inr htruncates.1))
    rw [if_neg (by rw [hsteers]; exact Bool.false_ne_true), if_pos htruncates]
    exact .truncated hexact hfiled i w
  | worked hcounts =>
    rw [if_pos hcounts]
    exact .worked hexact hfiled i w _

theorem overwrite_whole {f bytes : List UInt8} (h : f.length ≤ bytes.length) :
    overwrite f bytes = bytes := by
  rw [overwrite, List.drop_eq_nil_of_le h, List.append_nil]

/-- A checkpoint has been written, or the first part of one into an empty file. -/
theorem Accounted.wrote {i n : Nat} {w : Work} {c : Checkpoint} (hexact : Exact files p led)
    (hfiled : ∀ path, Filed (files path) (led.saved path) led.served)
    (hw : p.savingAt i = some (w, c))
    (hwhole : c.bytes.length ≤ n ∨ files p.options.statePath = some []) (fields : List Field) :
    Accounted (⟨some (p.setStage i w (.answered fields)), p.overwritten files (c.bytes.take n)⟩,
      led.noteRunning p (.write i n)) := by
  obtain ⟨hthread, hstage⟩ := savingAt_eq_some.mp hw
  obtain ⟨hseq, hmodel, f, hf, hle⟩ := hexact.saving w (List.mem_of_getElem? hthread) c hstage
  have hname : c.model.length < 2 ^ 32 := hmodel ▸ hexact.name
  simp only [Ledger.noteRunning, hw]
  rw [Process.overwritten, hf, Option.getD_some]
  -- all the threads save under one name, so that what is written is no longer than a checkpoint
  have hrun : ∀ {g : List UInt8} {led' : Ledger}, g.length ≤ c.bytes.length →
      led'.base = led.base → led'.since = led.since → led'.served = led.served →
      ∀ p', some (p.setStage i w (.answered fields)) = some p' →
        Exact (Function.update files p.options.statePath (some g)) p' led' := by
    intro g led' hg hbase hsince hserved p' hp'
    cases hp'
    refine ⟨by rw [hbase, hsince]; exact hexact.seq, by rw [hbase, hsince, hserved]; exact hexact.bound,
      hexact.name, fun v hv d hd => ?_⟩
    rcases mem_setStage rfl hv with hold | hnew
    · obtain ⟨hdseq, hdmodel, -⟩ := hexact.saving v hold d hd
      refine ⟨hserved ▸ hdseq, hdmodel, g, Function.update_self .., hg.trans (Nat.le_of_eq ?_)⟩
      rw [c.length_bytes, d.length_bytes, hmodel, hdmodel]
    · rw [hnew] at hd
      cases hd
  by_cases hn : c.bytes.length ≤ n
  · rw [if_pos hn, List.take_of_length_le hn, overwrite_whole hle]
    refine ⟨hrun (Nat.le_refl _) rfl rfl rfl, Filed.replaced hfiled _ ⟨fun d hd => ?_, fun hnone => ?_⟩⟩
    · cases hd
      exact ⟨rfl, hseq, hname⟩
    · cases hnone
  · -- the file was empty, so nothing in it was saved
    have hempty : files p.options.statePath = some [] := hwhole.resolve_left hn
    obtain rfl : f = [] := Option.some.inj (hf.symm.trans hempty)
    have hnone : led.saved p.options.statePath = none := by
      cases hsaved : led.saved p.options.statePath with
      | none => rfl
      | some d =>
        have hbytes : d.bytes = [] :=
          Option.some.inj (((hfiled _).whole d hsaved).1.symm.trans hempty)
        have hlength := d.length_bytes
        rw [hbytes, List.length_nil] at hlength
        omega
    rw [if_neg hn, overwrite, List.drop_nil, List.append_nil]
    refine ⟨hrun ?_ rfl rfl rfl, ?_⟩
    · rw [List.length_take]
      exact Nat.min_le_right ..
    · have hpart : Filed (some (c.bytes.take n)) none led.served :=
        ⟨fun d hd => (by cases hd), fun _ => .inr (.inr ⟨c, n, rfl, Nat.not_le.mp hn, hname⟩)⟩
      have hreplaced := Filed.replaced hfiled p.options.statePath hpart
      rwa [← hnone, Function.update_eq_self] at hreplaced

theorem Accounted.running_step {h h' : Host} {e : HostEvent} (hp : h.process = some p)
    (hacc : Accounted (h, led)) (heff : Effect h p e h') (hwhole : wholeWrites (h, led) e = true) :
    Accounted (h', led.noteRunning p e) := by
  have hexact := hacc.running p hp
  cases heff with
  | kept hquiet hthreads hstate hoptions _ =>
    rw [hquiet.noteRunning]
    refine ⟨fun p' hp' => ?_, hacc.filed⟩
    cases hp'
    exact hexact.kept hstate hoptions fun v hv => .inl (hthreads ▸ hv)
  | ended hquiet =>
    rw [hquiet.noteRunning]
    exact ⟨fun p' hp' => (by cases hp'), hacc.filed⟩
  | arrived hquiet q =>
    rw [hquiet.noteRunning]
    refine ⟨fun p' hp' => ?_, hacc.filed⟩
    cases hp'
    refine hexact.kept rfl rfl fun v hv => ?_
    refine (List.mem_append.mp hv).imp_right fun hnew c hc => ?_
    rw [List.mem_singleton.mp hnew] at hc
    cases hc
  | tested hw _ =>
    refine ⟨fun p' hp' => ?_, hacc.filed⟩
    cases hp'
    refine hexact.kept rfl rfl fun v hv => ?_
    refine (mem_setStage rfl hv).imp_right fun hnew c hc => ?_
    rw [hnew] at hc
    split at hc <;> cases hc
  | performed hw => exact .performed hexact hacc.filed hw (perform_performed ..)
  | @wrote i n w c hw =>
    refine .wrote hexact hacc.filed hw ?_ _
    simpa [wholeWrites, hp, hw] using hwhole

/-- The reference result is masked to thirty bits. -/
theorem referenceResult_lt (a b : UInt64) : (referenceResult a b).toNat < 2 ^ 30 := by
  rw [referenceResult, List.range_succ, List.foldl_append, List.foldl_cons, List.foldl_nil,
    UInt64.toNat_and]
  exact Nat.lt_of_le_of_lt Nat.and_le_right (by decide)

/-- A note is shorter than a checkpoint. -/
theorem marks_short {e : HostEvent} {path : Text} {content : List UInt8}
    (h : p.marks e = some (path, content)) : content.length < 20 := by
  cases e with
  | control f opened =>
    simp only [Process.marks] at h
    split at h
    · cases h
      decide
    · cases h
  | perform i opened =>
    simp only [Process.marks] at h
    split at h
    · rename_i w _
      split at h
      · cases h
        have hresult := referenceResult_lt (w.request.a &&& 0xFFFFFFFFFFFF) w.request.b
        have hlen := length_decimal_le (k := 10) (by decide) (Nat.lt_trans hresult (by decide))
        rw [List.length_append, referenceText]
        exact Nat.lt_of_le_of_lt (Nat.add_le_add_right hlen 1) (by decide)
      · cases h
    · cases h
  | _ => cases h

/-- A note has been left behind, perhaps at a state path. -/
theorem Accounted.marked {h : Host} {mark : Option (Text × List UInt8)} (hacc : Accounted (h, led))
    (hshort : ∀ path content, mark = some (path, content) → content.length < 20) :
    Accounted (h.marked mark, led.marked mark) := by
  obtain _ | ⟨path, content⟩ := mark
  · exact hacc
  have hcontent := hshort path content rfl
  refine ⟨fun p hp => ?_, Filed.replaced hacc.filed path ⟨fun c hc => (by cases hc),
    fun _ => .inr (.inl ⟨content, rfl, hcontent⟩)⟩⟩
  have hexact := hacc.running p hp
  refine ⟨hexact.seq, hexact.bound, hexact.name, fun w hw c hc => ?_⟩
  obtain ⟨hseq, hmodel, f, hf, hle⟩ := hexact.saving w hw c hc
  refine ⟨hseq, hmodel, ?_⟩
  by_cases hpath : p.options.statePath = path
  · refine ⟨content, by rw [hpath]; exact Function.update_self .., ?_⟩
    rw [c.length_bytes]
    omega
  · exact ⟨f, (Function.update_of_ne hpath ..).trans hf, hle⟩

/-- What a process starts with is what was saved, or nothing. -/
theorem Filed.start {file : Option (List UInt8)} {saved : Option Checkpoint} {served : Nat}
    (h : Filed file saved served) {o : Options} {w : WorkerState} (hw : start o file = some w) :
    w = (if o.stateful then saved.elim {} (resumed o) else { restored := true }) := by
  by_cases hstateful : o.stateful = true
  · rw [if_pos hstateful]
    cases saved with
    | some c =>
      obtain ⟨hfile, -, hmodel⟩ := h.whole c rfl
      rw [hfile, start_whole hmodel hstateful] at hw
      exact (Option.some.inj hw).symm
    | none =>
      rcases h.part rfl with hfile | ⟨f, hfile, hshort⟩ | ⟨c, n, hfile, hn, hmodel⟩
      · rw [hfile] at hw
        simp only [Worker.start, if_pos hstateful] at hw
        exact (Option.some.inj hw).symm
      · rw [hfile] at hw
        simp only [Worker.start, if_pos hstateful,
          loadCheckpoint_refused o.session (.inl hshort)] at hw
        exact (Option.some.inj hw).symm
      · rw [hfile] at hw
        exact start_torn hmodel hn hstateful hw
  · rw [if_neg hstateful]
    simp only [Worker.start, if_neg hstateful] at hw
    exact (Option.some.inj hw).symm

theorem Accounted.started {h : Host} (hacc : Accounted (h, led)) {o : ServiceOptions}
    {w : WorkerState} (hw : start o.toOptions (h.files o.statePath) = some w) :
    Accounted ({ h with process := some { options := o, state := w } },
      { led with base := w.committedSeq, since := 0 }) where
  running p' hp' := by
    cases hp'
    have hblank : ∀ restored, ({ restored := restored } : WorkerState).committedSeq.toNat ≤ led.served ∧
        ({ restored := restored } : WorkerState).modelKey.length < 2 ^ 32 :=
      fun _ => ⟨Nat.zero_le _, (by decide : defaultModelKey.length < 2 ^ 32)⟩
    have hstart : w.committedSeq.toNat ≤ led.served ∧ w.modelKey.length < 2 ^ 32 := by
      rw [(hacc.filed o.statePath).start hw]
      split
      · cases hsaved : led.saved o.statePath with
        | none => exact hblank false
        | some c =>
          obtain ⟨-, hseq, hmodel⟩ := (hacc.filed o.statePath).whole c hsaved
          refine ⟨hseq, ?_⟩
          show (if c.model.isEmpty then defaultModelKey else c.model).length < 2 ^ 32
          split
          · decide
          · exact hmodel
      · exact hblank true
    refine ⟨?_, hstart.1, hstart.2, fun v hv => (by cases hv)⟩
    show w.committedSeq = w.committedSeq + UInt64.ofNat 0
    exact (UInt64.add_zero _).symm
  filed path := ⟨(hacc.filed path).whole, (hacc.filed path).part⟩

end Accounts

theorem Accounted.step {hl : Host × Ledger} (hacc : Accounted hl) {e : HostEvent}
    (hwhole : wholeWrites hl e = true) : Accounted (ledgered.step hl e) := by
  obtain ⟨⟨process, files⟩, led⟩ := hl
  cases process with
  | some p =>
    exact (hacc.running_step rfl (running_effect rfl e) hwhole).marked fun _ _ => marks_short
  | none =>
    cases e with
    | start o =>
      have hstep : ledgered.step (⟨none, files⟩, led) (.start o) =
        (⟨(Worker.start o.toOptions (files o.statePath)).map fun w =>
            { options := o, state := w }, files⟩,
          ((Worker.start o.toOptions (files o.statePath)).map fun w =>
            { led with base := w.committedSeq, since := 0 }).getD led) := rfl
      rw [hstep]
      cases hw : Worker.start o.toOptions (files o.statePath) with
      | some w => exact hacc.started hw
      | none => exact hacc
    | _ => exact hacc

/-! ## Runs -/

theorem accounted {hl : Host × Ledger}
    (hr : Transition.Reachable ledgered (fun hl e => wholeWrites hl e = true) hl) : Accounted hl := by
  refine hr.invariant ?_ fun hl e _ hacc hwhole => hacc.step hwhole
  rintro ⟨h, led⟩ ⟨rfl, rfl⟩
  exact ⟨fun p hp => (by cases hp), fun _ => ⟨fun c hc => (by cases hc), fun _ => .inl rfl⟩⟩

namespace ReferenceWorker

/-- A worker of target 2 with a state path. -/
def statefulOptions : ServiceOptions :=
  { target := 2, boot := 22, statePath := text "s.ckpt", session := 9 }

/-- The same worker with another state path. -/
def elsewhereOptions : ServiceOptions := { statefulOptions with statePath := text "t.ckpt" }

/-- The input that saves the checkpoint, for boot 22. -/
def save : Frame :=
  { type := .verifyService
    payload := payloadOf [putU64 Fid.inputA checkpointInput, putU64 Fid.boot 22] }

/-- One request, and a save of which `n` bytes are written. -/
def workAndSave (n : Nat) : List HostEvent :=
  [.start statefulOptions, .control (message .activateTarget), .request (some (work 22)), .test 0,
    .perform 0 true, .request (some save), .test 1, .perform 1 true, .write 1 n, .kill]

/-- The checkpoint of the first process. -/
def firstCheckpoint : Checkpoint := ⟨9, 1, defaultModelKey⟩

/-- The second save is cut short after the checkpoint's mark. -/
def savedAndTorn : List HostEvent :=
  workAndSave 48 ++ workAndSave 5

/-- The host with its ledger after a run. -/
def accounts (es : List HostEvent) : Host × Ledger := ledgered.run ({}, {}) es

theorem accounts_reachable (es : List HostEvent)
    (h : ledgered.permits wholeWrites ({}, {}) es = true) :
    Transition.Reachable ledgered (fun hl e => wholeWrites hl e = true) (accounts es) :=
  .run es (.initial ⟨rfl, rfl⟩) h

end ReferenceWorker

/-- **No worker claims more than was done.**  In every run of a host in which a write is
cut short only in an empty file, the process has committed exactly what it started with and
one for each request that it worked on since, and no more than all the processes of the
host have worked on; a kill in the middle of a save changes nothing of that. -/
theorem committed_never_ahead {hl : Host × Ledger}
    (hr : Transition.Reachable ledgered (fun hl e => wholeWrites hl e = true) hl) {p : Process}
    (hp : hl.1.process = some p) :
    p.state.committedSeq = hl.2.base + UInt64.ofNat hl.2.since ∧
      p.state.committedSeq.toNat ≤ hl.2.served :=
  ⟨((accounted hr).running p hp).seq, ((accounted hr).running p hp).not_ahead⟩

open ReferenceWorker in
/-- A third process starts with nothing, after two that did a request each. -/
theorem committed_never_ahead_reference : ∃ p,
    (accounts (savedAndTorn ++ [.start statefulOptions])).1.process = some p ∧
      p.state.committedSeq = 0 ∧
      (accounts (savedAndTorn ++ [.start statefulOptions])).2.served = 2 ∧
      p.state.committedSeq.toNat ≤
        (accounts (savedAndTorn ++ [.start statefulOptions])).2.served := by
  have hrun : (accounts (savedAndTorn ++ [.start statefulOptions])).1.process =
      some { options := statefulOptions, state := {} } := by decide +kernel
  exact ⟨_, hrun, rfl, by decide +kernel,
    (committed_never_ahead (accounts_reachable _ (by decide +kernel)) hrun).2⟩

/-- **What a worker starts with**, when it comes back.  In every such run, whatever state paths
the processes of the host have had, a stateful process resumes the checkpoint that was written
whole last at its own path, and as restored if it is of its own session; where there is none,
or the file was truncated after it and nothing followed, or only a part or a note was written,
it is blank, or does not start. -/
theorem resumes_from_last_save {hl : Host × Ledger}
    (hr : Transition.Reachable ledgered (fun hl e => wholeWrites hl e = true) hl)
    {o : ServiceOptions} (hstateful : o.stateful = true) :
    (∀ c, hl.2.saved o.statePath = some c →
        start o.toOptions (hl.1.files o.statePath) = some (resumed o.toOptions c)) ∧
      (hl.2.saved o.statePath = none →
        ∀ w, start o.toOptions (hl.1.files o.statePath) = some w → w = {}) := by
  have hfiled := (accounted hr).filed o.statePath
  constructor
  · intro c hc
    obtain ⟨hfile, -, hmodel⟩ := hfiled.whole c hc
    rw [hfile, start_whole hmodel hstateful]
  · intro hnone w hw
    rw [hfiled.start hw, hnone, if_pos hstateful]
    rfl

open ReferenceWorker in
/-- A worker with another state path finds nothing of the first one's. -/
theorem resumes_from_last_save_reference :
    (accounts (workAndSave 48)).2.saved statefulOptions.statePath = some firstCheckpoint ∧
      start statefulOptions.toOptions
          ((accounts (workAndSave 48)).1.files statefulOptions.statePath) =
        some { committedSeq := 1, restored := true } ∧
      (∀ w, start elsewhereOptions.toOptions
        ((accounts (workAndSave 48)).1.files elsewhereOptions.statePath) = some w → w = {}) ∧
      (accounts savedAndTorn).2.saved statefulOptions.statePath = none := by
  have hreach := accounts_reachable (workAndSave 48) (by decide +kernel)
  have hsaved : (accounts (workAndSave 48)).2.saved statefulOptions.statePath =
      some firstCheckpoint := by decide +kernel
  have hresumed := (resumes_from_last_save hreach (o := statefulOptions) rfl).1 firstCheckpoint hsaved
  have hblank := (resumes_from_last_save hreach (o := elsewhereOptions) rfl).2 (by decide +kernel)
  exact ⟨hsaved, hresumed, hblank, by decide +kernel⟩

end Worker
end FailoverFabric
