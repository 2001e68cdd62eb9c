import FailoverFabric.Library.OrderedMap
import FailoverFabric.Library.Reachability
import FailoverFabric.Protocol.Frames

/-! # Requests on a connection

`Conn` of `net/conn.hpp`: any number of threads send requests and wait for the frame
that answers theirs, one thread reads, and a dead connection answers everybody with
nothing.  What a caller waits on is its `Pending`; the reader finds it in a map by the
message id.  Each section under a lock is one step here, and so is what happens between
the sections; the writing of a frame has a beginning and an end.

The map has one entry for each message id.  A call that takes the id of another one
takes over its entry, and nobody will find the other's `Pending` any more: when the
connection dies its caller is left waiting.  Calls with ids of their own are all
answered (`orderly_calls_answered`).
-/
namespace FailoverFabric
namespace Protocol

/-- What a caller waits on. -/
structure Pending where
  done : Bool := false
  response : Option Frame := none
  deriving DecidableEq

/-- Where a call of `request` is. -/
inductive Phase
  | called
  | registered
  | sending
  | sendFailed
  | waiting
  | returned
  | threw
  deriving DecidableEq

/-- A call of `request`, with the frame that it sends. -/
structure Rpc where
  frame : Frame
  phase : Phase := .called
  pending : Option Pending := none
  result : Option Frame := none
  deriving DecidableEq

namespace Rpc

/-- The key of the call in the map. -/
def key (c : Rpc) : Nat := c.frame.msgId.toNat

/-- The call has registered and not returned. -/
def underWay (c : Rpc) : Bool := c.phase != .called && c.phase != .returned

/-- The call has a `Pending` that is not marked done. -/
def unanswered (c : Rpc) : Bool := c.pending.any fun p => !p.done

def goTo (phase : Phase) (c : Rpc) : Rpc := { c with phase }

/-- The `Pending` is marked done, with a response. -/
def answer (response : Option Frame) (c : Rpc) : Rpc :=
  { c with pending := c.pending.map fun _ => { done := true, response } }

/-- The `Pending` is marked done, and its response is left. -/
def markDone (c : Rpc) : Rpc :=
  { c with pending := c.pending.map fun p => { p with done := true } }

end Rpc

/-- A connection and the calls made on it. -/
structure Conn where
  dead : Bool := false
  /-- The socket has been closed by `shutdown`. -/
  closed : Bool := false
  /-- `shutdown` has resolved the pending calls. -/
  drained : Bool := false
  /-- `read_loop` has resolved the pending calls, for the last time. -/
  resolved : Bool := false
  /-- The call that writes. -/
  writer : Option Nat := none
  /-- `pending_`: whose `Pending` it is. -/
  pending : OrderedMap Nat Nat := {}
  calls : List Rpc := []

def kMaxPending : Nat := 64

/-- What happens on a connection. -/
inductive ConnStep
  | call (f : Frame)
  | register (i : Nat)
  | beginSend (i : Nat)
  | endSend (i : Nat) (sent : Bool)
  | cleanUp (i : Nat)
  | complete (i : Nat)
  | deliver (f : Frame)
  | die
  | resolve
  | close
  | drain

namespace Conn

def modify (s : Conn) (i : Nat) (f : Rpc → Rpc) : Conn :=
  { s with calls := s.calls.modify i f }

/-- What a call in a phase does. -/
def inPhase (s : Conn) (i : Nat) (phase : Phase) (k : Rpc → Conn) : Conn :=
  match s.calls[i]? with
  | none => s
  | some c => if c.phase = phase then k c else s

/-- The entry of the map belongs to a call. -/
def holds (s : Conn) (i : Nat) : Bool := s.pending.entries.any fun e => e.2 == i

def resolvePending (s : Conn) (result : Option Frame) : Conn :=
  { s with
    calls := s.calls.mapIdx fun i c => if s.holds i then c.answer result else c
    pending := {} }

/-- The first test of `request`. -/
def call (s : Conn) (f : Frame) : Conn :=
  { s with calls := s.calls ++
      [{ frame := f, phase := if s.dead || s.closed then .returned else .called }] }

/-- A new `Pending` is put into the map, unless that is full. -/
def register (s : Conn) (i : Nat) : Conn :=
  s.inPhase i .called fun c =>
    if kMaxPending ≤ s.pending.size then s.modify i (Rpc.goTo .returned)
    else
      { s.modify i (fun c => { c with phase := .registered, pending := some {} }) with
        pending := s.pending.insert c.key i }

/-- `send_frame` has the lock of the writers, and tests the connection. -/
def beginSend (s : Conn) (i : Nat) : Conn :=
  s.inPhase i .registered fun _ =>
    if s.writer.isSome then s
    else if s.closed || s.dead then s.modify i (Rpc.goTo .sendFailed)
    else { s.modify i (Rpc.goTo .sending) with writer := some i }

/-- The frame has been written, or not.  One that cannot be encoded throws. -/
def endSend (s : Conn) (i : Nat) (sent : Bool) : Conn :=
  s.inPhase i .sending fun c =>
    let phase := match encodeFrame c.frame with
      | .error _ => Phase.threw
      | .ok _ => if sent then .waiting else .sendFailed
    { s.modify i (Rpc.goTo phase) with writer := none }

/-- After a failed send, the entry under the call's message id is marked and erased. -/
def cleanUp (s : Conn) (i : Nat) : Conn :=
  s.inPhase i .sendFailed fun c =>
    match s.pending.find c.key with
    | none => s.modify i (Rpc.goTo .returned)
    | some j =>
      { (s.modify j Rpc.markDone).modify i (Rpc.goTo .returned) with
        pending := s.pending.erase c.key }

/-- The wait is over when the `Pending` is done; the entry under the call's message id
is erased. -/
def complete (s : Conn) (i : Nat) : Conn :=
  s.inPhase i .waiting fun c =>
    if c.unanswered then s
    else
      { s.modify i (fun c => { c with
          phase := .returned, result := c.pending.bind Pending.response }) with
        pending := s.pending.erase c.key }

/-- The reader has a frame: it answers the entry under its message id, if there is one. -/
def deliver (s : Conn) (f : Frame) : Conn :=
  if s.dead then s
  else
    match s.pending.find f.msgId.toNat with
    | none => s
    | some j => s.modify j (Rpc.answer (some f))

/-- One step. -/
def step (s : Conn) : ConnStep → Conn
  | .call f => s.call f
  | .register i => s.register i
  | .beginSend i => s.beginSend i
  | .endSend i sent => s.endSend i sent
  | .cleanUp i => s.cleanUp i
  | .complete i => s.complete i
  | .deliver f => s.deliver f
  | .die => { s with dead := true }
  | .resolve =>
    if s.dead && !s.resolved then { s.resolvePending none with resolved := true } else s
  | .close => { s with closed := true }
  | .drain =>
    if s.closed && !s.drained then { s.resolvePending none with drained := true } else s

/-- The runs of a connection. -/
def system : Transition.System Conn ConnStep where
  initial s := s = {}
  step := step

end Conn

/-! ## Calls with message ids of their own -/

/-- A call registers only while no other call with its message id is under way. -/
def Conn.orderly (s : Conn) : ConnStep → Bool
  | .register i => decide (kMaxPending ≤ s.pending.size) ||
    (s.calls[i]?.all fun c =>
      (s.calls.mapIdx fun j d => j == i || !d.underWay || d.key != c.key).all id)
  | _ => true

/-- What holds of the calls and the map. -/
structure Findable (s : Conn) : Prop where
  /-- Who is not answered is under way, and found under its message id. -/
  own : ∀ (i : Nat) (c : Rpc), s.calls[i]? = some c → c.unanswered = true →
    c.underWay = true ∧ s.pending.find c.key = some i
  unique : ∀ (i j : Nat) (c d : Rpc), s.calls[i]? = some c → s.calls[j]? = some d →
    c.underWay = true → d.underWay = true → c.key = d.key → i = j
  /-- After the reader's end, who is not answered has not sent and will not. -/
  late : s.resolved = true → s.dead = true ∧ ∀ (i : Nat) (c : Rpc), s.calls[i]? = some c →
    c.unanswered = true → c.phase = .registered ∨ c.phase = .sendFailed

/-- What a step makes of a call: it keeps the key, brings no call under way, and leaves
who is still unanswered where it is found. -/
structure Evolves (s s' : Conn) (i : Nat) (c c' : Rpc) : Prop where
  before : s.calls[i]? = some c
  key : c'.key = c.key
  underWay : c'.underWay = true → c.underWay = true
  unanswered : c'.unanswered = true → c.unanswered = true ∧ c'.underWay = true ∧
    s'.pending.find c.key = s.pending.find c.key
  late : s'.resolved = true → c'.unanswered = true →
    c'.phase = .registered ∨ c'.phase = .sendFailed

theorem Findable.evolve {s s' : Conn} (h : Findable s)
    (hcalls : ∀ (i : Nat) (c' : Rpc), s'.calls[i]? = some c' → ∃ c, Evolves s s' i c c')
    (hdead : s'.resolved = true → s'.dead = true) : Findable s' := by
  refine ⟨fun i c' hc' hun => ?_, fun i j c' d' hc' hd' hcw hdw hkey => ?_, fun hres => ?_⟩
  · obtain ⟨c, he⟩ := hcalls i c' hc'
    obtain ⟨hun', hway, hfind⟩ := he.unanswered hun
    refine ⟨hway, ?_⟩
    rw [he.key, hfind]
    exact (h.own i c he.before hun').2
  · obtain ⟨c, hc⟩ := hcalls i c' hc'
    obtain ⟨d, hd⟩ := hcalls j d' hd'
    refine h.unique i j c d hc.before hd.before (hc.underWay hcw) (hd.underWay hdw) ?_
    rw [← hc.key, ← hd.key, hkey]
  · refine ⟨hdead hres, fun i c' hc' hun => ?_⟩
    obtain ⟨c, he⟩ := hcalls i c' hc'
    exact he.late hres hun

theorem findable_empty : Findable {} := by
  refine ⟨fun i c hc => ?_, fun i j c d hc => ?_, fun hres => ?_⟩
  · simp at hc
  · simp at hc
  · cases hres

/-- A call that a step leaves alone. -/
theorem Evolves.same {s s' : Conn} {i : Nat} {c : Rpc} (h : Findable s)
    (hc : s.calls[i]? = some c)
    (hfind : c.unanswered = true → s'.pending.find c.key = s.pending.find c.key)
    (hres : s'.resolved = s.resolved) : Evolves s s' i c c := by
  refine ⟨hc, rfl, id, fun hun => ⟨hun, (h.own i c hc hun).1, hfind hun⟩, fun hr hun => ?_⟩
  exact (h.late (hres ▸ hr)).2 i c hc hun

/-- A call that is answered by the step, or was before. -/
theorem Evolves.answered {s s' : Conn} {i : Nat} {c c' : Rpc} (hc : s.calls[i]? = some c)
    (hkey : c'.key = c.key) (hway : c'.underWay = true → c.underWay = true)
    (hun : c'.unanswered = false) : Evolves s s' i c c' := by
  refine ⟨hc, hkey, hway, fun h => ?_, fun _ h => ?_⟩
  · rw [hun] at h
    cases h
  · rw [hun] at h
    cases h

@[simp] theorem unanswered_answer (r : Option Frame) (c : Rpc) :
    (c.answer r).unanswered = false := by
  cases c with
  | mk frame phase pending result => cases pending <;> rfl

@[simp] theorem unanswered_markDone (c : Rpc) : c.markDone.unanswered = false := by
  cases c with
  | mk frame phase pending result => cases pending <;> rfl

/-- What is done in a phase is done by a call in that phase. -/
theorem inPhase_rule {P : Conn → Prop} {s : Conn} {i : Nat} {phase : Phase} {k : Rpc → Conn}
    (h : P s) (hk : ∀ c, s.calls[i]? = some c → c.phase = phase → P (k c)) :
    P (s.inPhase i phase k) := by
  unfold Conn.inPhase
  cases hc : s.calls[i]? with
  | none => exact h
  | some c =>
    dsimp only
    split_ifs with hphase
    · exact hk c hc hphase
    · exact h

/-- The calls after a step of one of them. -/
theorem modify_getElem? {calls : List Rpc} {i j : Nat} {c d : Rpc} {f : Rpc → Rpc}
    (hi : calls[i]? = some c) (hd : (calls.modify i f)[j]? = some d) :
    j = i ∧ d = f c ∨ j ≠ i ∧ calls[j]? = some d := by
  by_cases hij : i = j
  · subst hij
    rw [List.getElem?_modify_eq, hi] at hd
    exact Or.inl ⟨rfl, (Option.some.inj hd).symm⟩
  · rw [List.getElem?_modify_ne _ _ hij] at hd
    exact Or.inr ⟨Ne.symm hij, hd⟩

/-- Who is not found under its message id has been answered. -/
theorem Findable.answered {s : Conn} (h : Findable s) {i : Nat} {c : Rpc}
    (hi : s.calls[i]? = some c) (hfind : s.pending.find c.key ≠ some i) :
    c.unanswered = false := by
  by_contra hne
  exact hfind (h.own i c hi (Bool.eq_true_of_not_eq_false hne)).2

/-- A step of one call. -/
theorem Findable.modify {s s' : Conn} (h : Findable s) {i : Nat} {c : Rpc} {f : Rpc → Rpc}
    (hi : s.calls[i]? = some c) (hcalls : s'.calls = s.calls.modify i f)
    (hres : s'.resolved = s.resolved) (hdead : s.dead = true → s'.dead = true)
    (hself : Evolves s s' i c (f c))
    (hothers : ∀ (j : Nat) (d : Rpc), j ≠ i → s.calls[j]? = some d → d.unanswered = true →
      s'.pending.find d.key = s.pending.find d.key) : Findable s' := by
  refine h.evolve (fun j d' hd' => ?_) fun hr => hdead (h.late (hres ▸ hr)).1
  rw [hcalls] at hd'
  rcases modify_getElem? hi hd' with ⟨rfl, rfl⟩ | ⟨hj, hd⟩
  · exact ⟨c, hself⟩
  · exact ⟨d', .same h hd (hothers j d' hj hd) hres⟩

/-- The step moves the call on, and touches neither map nor `Pending`. -/
theorem Findable.goTo {s s' : Conn} (h : Findable s) {i : Nat} {c : Rpc} {phase : Phase}
    (hi : s.calls[i]? = some c) (hcalls : s'.calls = s.calls.modify i (Rpc.goTo phase))
    (hres : s'.resolved = s.resolved) (hdead : s'.dead = s.dead) (hpending : s'.pending = s.pending)
    (hway : c.unanswered = true → (c.goTo phase).underWay = true)
    (hback : (c.goTo phase).underWay = true → c.underWay = true)
    (hlate : s.resolved = true → c.unanswered = true → phase = .registered ∨ phase = .sendFailed) :
    Findable s' := by
  refine h.modify hi hcalls hres (fun hd => hdead.trans hd) ?_ fun j d _ _ _ => by rw [hpending]
  refine ⟨hi, rfl, hback, fun hun => ⟨hun, hway hun, by rw [hpending]⟩, fun hr hun => ?_⟩
  exact hlate (hres ▸ hr) hun

theorem Findable.beginSend {s : Conn} (h : Findable s) (i : Nat) : Findable (s.beginSend i) := by
  refine inPhase_rule h fun c hi hphase => ?_
  have hway : c.underWay = true := by rw [Rpc.underWay, hphase]; rfl
  split_ifs with hwriter hgone
  · exact h
  · exact h.goTo hi rfl rfl rfl rfl (fun _ => rfl) (fun _ => hway) fun _ _ => Or.inr rfl
  · refine h.goTo hi rfl rfl rfl rfl (fun _ => rfl) (fun _ => hway) fun hr _ => ?_
    -- a connection whose reader has ended is dead, and nothing is sent on it
    rw [(h.late hr).1, Bool.or_true] at hgone
    exact absurd rfl hgone

theorem Findable.endSend {s : Conn} (h : Findable s) (i : Nat) (sent : Bool) :
    Findable (s.endSend i sent) := by
  refine inPhase_rule h fun c hi hphase => ?_
  have hway : c.underWay = true := by rw [Rpc.underWay, hphase]; rfl
  refine h.goTo hi rfl rfl rfl rfl (fun _ => ?_) (fun _ => hway) fun hr hun => ?_
  · cases encodeFrame c.frame with
    | error e => rfl
    | ok b => cases sent <;> rfl
  · -- who was sending at the reader's end has been answered by it
    rcases (h.late hr).2 i c hi hun with hreg | hfailed
    · rw [hphase] at hreg
      cases hreg
    · rw [hphase] at hfailed
      cases hfailed

theorem Findable.complete {s : Conn} (h : Findable s) (i : Nat) : Findable (s.complete i) := by
  refine inPhase_rule h fun c hi hphase => ?_
  have hway : c.underWay = true := by rw [Rpc.underWay, hphase]; rfl
  split_ifs with hwait
  · exact h
  refine h.modify hi rfl rfl id (.answered hi rfl (fun _ => hway) ?_) fun j d hj hd hun => ?_
  · simpa [Rpc.unanswered] using hwait
  · have hkey : d.key ≠ c.key := fun hk => hj (h.unique j i d c hd hi (h.own j d hd hun).1 hway hk)
    exact (OrderedMap.find_erase ..).trans (if_neg hkey)

/-- Marking a `Pending` done. -/
theorem Findable.marked {s : Conn} (h : Findable s) (j : Nat) {f : Rpc → Rpc}
    (hkey : ∀ c, (f c).key = c.key) (hway : ∀ c, (f c).underWay = c.underWay)
    (hun : ∀ c, (f c).unanswered = false) : Findable (s.modify j f) := by
  cases hj : s.calls[j]? with
  | none =>
    have hsame : s.modify j f = s := by
      rw [Conn.modify, List.modify_eq_self (List.getElem?_eq_none_iff.mp hj)]
    rw [hsame]
    exact h
  | some c =>
    exact h.modify hj rfl rfl id (.answered hj (hkey c) (fun hw => hway c ▸ hw) (hun c))
      fun _ _ _ _ _ => rfl

theorem Findable.deliver {s : Conn} (h : Findable s) (f : Frame) : Findable (s.deliver f) := by
  unfold Conn.deliver
  split_ifs with hdead
  · exact h
  cases s.pending.find f.msgId.toNat with
  | none => exact h
  | some j => exact h.marked j (fun _ => rfl) (fun _ => rfl) fun c => unanswered_answer _ c

/-- The entry that the clean-up marks is the call's own, or the call was answered
before. -/
theorem Findable.marked_self {s : Conn} (h : Findable s) {i j : Nat} {c : Rpc}
    (hi : s.calls[i]? = some c) (hfind : s.pending.find c.key = some j) :
    ∃ c', (s.modify j Rpc.markDone).calls[i]? = some c' ∧ c'.unanswered = false ∧
      c'.key = c.key ∧ c'.underWay = c.underWay := by
  by_cases hji : j = i
  · subst hji
    refine ⟨c.markDone, ?_, unanswered_markDone c, rfl, rfl⟩
    rw [Conn.modify, List.getElem?_modify_eq, hi]
    rfl
  · refine ⟨c, ?_, ?_, rfl, rfl⟩
    · rw [Conn.modify, List.getElem?_modify_ne _ _ hji, hi]
    · refine h.answered hi fun hown => hji ?_
      exact Option.some.inj (hfind.symm.trans hown)

/-- The clean-up after a failed send leaves the call answered. -/
theorem Findable.cleanUp_answers {s : Conn} (h : Findable s) {i : Nat} {c : Rpc}
    (hi : s.calls[i]? = some c) (hphase : c.phase = .sendFailed) :
    ∃ c', (s.cleanUp i).calls[i]? = some c' ∧ c'.unanswered = false := by
  rw [Conn.cleanUp, Conn.inPhase, hi]
  dsimp only
  rw [if_pos hphase]
  cases hfind : s.pending.find c.key with
  | none =>
    refine ⟨c.goTo .returned, ?_, ?_⟩
    · dsimp only [Conn.modify]
      rw [List.getElem?_modify_eq, hi]
      rfl
    · have hun : c.unanswered = false := h.answered hi (by simp [hfind])
      exact hun
  | some j =>
    obtain ⟨c', hc', hun, -⟩ := h.marked_self hi hfind
    refine ⟨c'.goTo .returned, ?_, hun⟩
    dsimp only [Conn.modify] at hc' ⊢
    rw [List.getElem?_modify_eq, hc']
    rfl

theorem Findable.cleanUp {s : Conn} (h : Findable s) (i : Nat) : Findable (s.cleanUp i) := by
  refine inPhase_rule h fun c hi hphase => ?_
  have hway : c.underWay = true := by rw [Rpc.underWay, hphase]; rfl
  cases hfind : s.pending.find c.key with
  | none =>
    have hun : c.unanswered = false := h.answered hi (by simp [hfind])
    exact h.modify hi rfl rfl id (.answered hi rfl (fun _ => hway) hun) fun _ _ _ _ _ => rfl
  | some j =>
    -- the entry is marked first, and then the call returns and its key is erased
    have h₁ : Findable (s.modify j Rpc.markDone) :=
      h.marked j (fun _ => rfl) (fun _ => rfl) unanswered_markDone
    obtain ⟨c', hc', hun, hkey, hway'⟩ := h.marked_self hi hfind
    refine h₁.modify hc' rfl rfl id (.answered hc' rfl ?_ hun) fun k d hk hd hdun => ?_
    · exact fun hw => absurd hw Bool.false_ne_true
    · have hne : d.key ≠ c.key := fun heq =>
        hk (h₁.unique k i d c' hd hc' (h₁.own k d hd hdun).1 (hway'.trans hway)
          (heq.trans hkey.symm))
      exact (OrderedMap.find_erase ..).trans (if_neg hne)

/-- A call that begins has no `Pending` yet. -/
theorem call_getElem? {s : Conn} {f : Frame} {i : Nat} {c : Rpc}
    (h : (s.call f).calls[i]? = some c) :
    s.calls[i]? = some c ∨ c.unanswered = false ∧ c.underWay = false := by
  rw [Conn.call, List.getElem?_append] at h
  by_cases hlt : i < s.calls.length
  · rw [if_pos hlt] at h
    exact Or.inl h
  · rw [if_neg hlt] at h
    obtain rfl := List.mem_singleton.mp (List.mem_of_getElem? h)
    refine Or.inr ⟨rfl, ?_⟩
    cases hgone : (s.dead || s.closed) with
    | false => simp [Rpc.underWay]
    | true => simp [Rpc.underWay]

theorem Findable.call {s : Conn} (h : Findable s) (f : Frame) : Findable (s.call f) := by
  refine ⟨fun i c hc hun => ?_, fun i j c d hc hd hcw hdw hkey => ?_,
    fun hr => ⟨(h.late hr).1, fun i c hc hun => ?_⟩⟩
  · rcases call_getElem? hc with hc | ⟨hnot, -⟩
    · exact h.own i c hc hun
    · rw [hnot] at hun
      cases hun
  · rcases call_getElem? hc with hc | ⟨-, hnot⟩
    · rcases call_getElem? hd with hd | ⟨-, hnot⟩
      · exact h.unique i j c d hc hd hcw hdw hkey
      · rw [hnot] at hdw
        cases hdw
    · rw [hnot] at hcw
      cases hcw
  · rcases call_getElem? hc with hc | ⟨hnot, -⟩
    · exact (h.late hr).2 i c hc hun
    · rw [hnot] at hun
      cases hun

/-- What the condition says of a call that registers. -/
theorem orderly_register {s : Conn} {i : Nat} {c : Rpc} (hok : s.orderly (.register i) = true)
    (hroom : ¬ kMaxPending ≤ s.pending.size) (hi : s.calls[i]? = some c) {j : Nat} {d : Rpc}
    (hj : j ≠ i) (hd : s.calls[j]? = some d) (hway : d.underWay = true) : d.key ≠ c.key := by
  rw [Conn.orderly, hi] at hok
  simp only [hroom, decide_false, Bool.false_or, Option.all_some, List.all_eq_true] at hok
  have hd' : (s.calls.mapIdx fun j d => j == i || !d.underWay || d.key != c.key)[j]? =
      some (j == i || !d.underWay || d.key != c.key) := by
    rw [List.getElem?_mapIdx, hd]
    rfl
  simpa [hj, hway] using hok _ (List.mem_of_getElem? hd')

/-- Who registers while no other call has its message id is found under it. -/
theorem Findable.register {s : Conn} (h : Findable s) {i : Nat}
    (hok : s.orderly (.register i) = true) : Findable (s.register i) := by
  refine inPhase_rule h fun c hi hphase => ?_
  have hidle : c.unanswered = false := by
    by_contra hne
    have hway := (h.own i c hi (Bool.eq_true_of_not_eq_false hne)).1
    rw [Rpc.underWay, hphase] at hway
    cases hway
  split_ifs with hfull
  · exact h.modify hi rfl rfl id
      (.answered hi rfl (fun hw => absurd hw Bool.false_ne_true) hidle) fun _ _ _ _ _ => rfl
  have hother : ∀ (j : Nat) (d : Rpc), j ≠ i → s.calls[j]? = some d → d.underWay = true →
      d.key ≠ c.key := fun j d hj hd hway => orderly_register hok hfull hi hj hd hway
  -- the new entry is the call's own, and no other key changes
  refine ⟨fun j d hd hun => ?_, fun j k d e hd he hdw hew hkey => ?_,
    fun hr => ⟨(h.late hr).1, fun j d hd hun => ?_⟩⟩
  · rcases modify_getElem? hi hd with ⟨rfl, rfl⟩ | ⟨hj, hd⟩
    · exact ⟨rfl, (OrderedMap.find_insert ..).trans (if_pos rfl)⟩
    · obtain ⟨hway, hfind⟩ := h.own j d hd hun
      exact ⟨hway, (OrderedMap.find_insert ..).trans ((if_neg (hother j d hj hd hway)).trans hfind)⟩
  · rcases modify_getElem? hi hd with ⟨rfl, rfl⟩ | ⟨hj, hd'⟩
    · rcases modify_getElem? hi he with ⟨rfl, -⟩ | ⟨hk, he'⟩
      · rfl
      · exact absurd hkey.symm (hother k e hk he' hew)
    · rcases modify_getElem? hi he with ⟨rfl, rfl⟩ | ⟨-, he'⟩
      · exact absurd hkey (hother j d hj hd' hdw)
      · exact h.unique j k d e hd' he' hdw hew hkey
  · rcases modify_getElem? hi hd with ⟨rfl, rfl⟩ | ⟨-, hd⟩
    · exact Or.inl rfl
    · exact (h.late hr).2 j d hd hun

/-- Whoever is not answered has an entry. -/
theorem Findable.holds {s : Conn} (h : Findable s) {i : Nat} {c : Rpc} (hi : s.calls[i]? = some c)
    (hun : c.unanswered = true) : s.holds i = true :=
  List.any_eq_true.mpr ⟨(c.key, i), OrderedMap.mem_of_find (h.own i c hi hun).2, beq_self_eq_true i⟩

/-- After `resolve_pending` everybody is answered. -/
theorem Findable.resolvePending {s s' : Conn} (h : Findable s)
    (hcalls : s'.calls = (s.resolvePending none).calls)
    (hdead : s'.resolved = true → s'.dead = true) : Findable s' := by
  refine h.evolve (fun i c' hc' => ?_) hdead
  rw [hcalls, Conn.resolvePending, List.getElem?_mapIdx] at hc'
  obtain ⟨c, hc, rfl⟩ := Option.map_eq_some_iff.mp hc'
  refine ⟨c, .answered hc ?_ ?_ ?_⟩
  · split_ifs <;> rfl
  · split_ifs
    · exact id
    · exact id
  · split_ifs with hheld
    · exact unanswered_answer none c
    · by_contra hne
      exact hheld (h.holds hc (Bool.eq_true_of_not_eq_false hne))

theorem Findable.step {s : Conn} (h : Findable s) {l : ConnStep} (hok : s.orderly l = true) :
    Findable (s.step l) := by
  cases l with
  | call f => exact h.call f
  | register i => exact h.register hok
  | beginSend i => exact h.beginSend i
  | endSend i sent => exact h.endSend i sent
  | cleanUp i => exact h.cleanUp i
  | complete i => exact h.complete i
  | deliver f => exact h.deliver f
  | die => exact ⟨h.own, h.unique, fun hr => ⟨rfl, (h.late hr).2⟩⟩
  | close => exact ⟨h.own, h.unique, h.late⟩
  | resolve =>
    rw [Conn.step]
    split_ifs with hend
    · exact h.resolvePending rfl fun _ => (Bool.and_eq_true_iff.mp hend).1
    · exact h
  | drain =>
    rw [Conn.step]
    split_ifs with hend
    · exact h.resolvePending rfl fun hr => (h.late hr).1
    · exact h

/-- All sends have returned. -/
def Conn.sent (s : Conn) : Bool :=
  s.calls.all fun c => c.phase != .registered && c.phase != .sending

/-- **Calls with message ids of their own are answered.**  In every run in which a call
registers only while no other call with its message id is under way: once the reader has
resolved the pending calls for the last time and all sends have returned, every call's
`Pending` is marked done, but for those after a failed send, which their next step
marks. -/
theorem orderly_calls_answered {s : Conn}
    (h : Transition.Reachable Conn.system (fun s l => s.orderly l = true) s)
    (hres : s.resolved = true) (hsent : s.sent = true) (i : Nat) (c : Rpc)
    (hc : s.calls[i]? = some c) :
    c.unanswered = false ∨
      c.phase = .sendFailed ∧
        ∃ c', (s.step (.cleanUp i)).calls[i]? = some c' ∧ c'.unanswered = false := by
  have ht : Findable s := by
    refine h.invariant (fun s hs => ?_) fun s l _ hs hok => hs.step hok
    cases hs
    exact findable_empty
  by_cases hun : c.unanswered = true
  · refine Or.inr ?_
    rcases (ht.late hres).2 i c hc hun with hreg | hfailed
    · have hnot := List.all_eq_true.mp hsent c (List.mem_of_getElem? hc)
      rw [hreg] at hnot
      cases hnot
    · exact ⟨hfailed, ht.cleanUp_answers hc hfailed⟩
  · exact Or.inl (Bool.eq_false_of_not_eq_true hun)

/-- An activation, as `SocketOps` requests it: the message id is always 9102. -/
def activation : Frame := { type := .activateTarget, msgId := 9102, epoch := 1 }

/-- A route installation, with its own message id. -/
def installation : Frame := { type := .installRoute, msgId := 9103, epoch := 1 }

/-- Two calls that have sent their requests when the connection dies. -/
def twoCalls (f g : Frame) : List ConnStep :=
  [.call f, .call g, .register 0, .register 1, .beginSend 0, .endSend 0 true, .beginSend 1,
    .endSend 1 true, .die, .resolve]

theorem orderly_calls_answered_reference :
    (Conn.system.run {} (twoCalls activation installation)).resolved = true ∧
      ∀ (i : Nat) (c : Rpc),
        (Conn.system.run {} (twoCalls activation installation)).calls[i]? = some c →
          c.unanswered = false ∨ c.phase = .sendFailed ∧
            ∃ c', ((Conn.system.run {} (twoCalls activation installation)).step
              (.cleanUp i)).calls[i]? = some c' ∧ c'.unanswered = false :=
  ⟨by decide +kernel,
    fun i c hc => orderly_calls_answered
      (Transition.Reachable.run (twoCalls activation installation) (.initial rfl)
        (by decide +kernel)) (by decide +kernel) (by decide +kernel) i c hc⟩

/-- Of two activations on one connection the first is not answered when it dies. -/
theorem equal_ids_left_waiting :
    ¬ ∀ s : Conn, Transition.Reachable Conn.system (fun _ _ => True) s → s.resolved = true →
      s.sent = true → ∀ (i : Nat) (c : Rpc), s.calls[i]? = some c →
        c.unanswered = false ∨ c.phase = .sendFailed ∧
          ∃ c', (s.step (.cleanUp i)).calls[i]? = some c' ∧ c'.unanswered = false := by
  intro hall
  have hcall : (Conn.system.run {} (twoCalls activation activation)).calls[0]? =
      some { frame := activation, phase := .waiting, pending := some {} } := by decide +kernel
  rcases hall _ (Transition.Reachable.run_all (twoCalls activation activation) (.initial rfl))
    (by decide +kernel) (by decide +kernel) 0 _ hcall with hdone | ⟨hfailed, -⟩
  · exact absurd hdone (by decide)
  · exact absurd hfailed (by decide)

end Protocol
end FailoverFabric
