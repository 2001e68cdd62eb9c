import Mathlib.Algebra.Ring.Nat
import Mathlib.Control.Lawful
import Mathlib.Data.Nat.Notation
import Mathlib.Tactic.Common

/-! # Byte-stream encoders and decoders

An encoder appends bytes to a buffer and may refuse a value (`Put`); a decoder
consumes bytes from the front of a buffer and may refuse it (`Reader`).  Encoders
are composed by `Put.seq`, decoders by the monad.

`Reads lim g p c x` relates the two: reading with `g` what `p` wrote, whatever
follows it, performs the check `c` and then yields `x`, leaving what follows.
It is an equation rather than a round trip because a decoder may refuse what the
encoder wrote, and then says exactly when and with which error.  `lim` bounds the
number of bytes written: a length field is exact only below it.

`Yields g P` is the other direction's postcondition: whatever `g` accepts
satisfies `P`.  `Spells g put` is the other direction's equation: whatever `g`
consumes is what `put` writes for the value it produces, so that a value has one
spelling only.  `p.Size n` says that an encoder writes exactly `n` bytes.
-/
namespace Codec

/-- What an encoder does: append bytes, or refuse. -/
abbrev Put (ε : Type) := Except ε (List UInt8)

/-- A decoder: consume a prefix of the buffer and produce a value, or refuse. -/
abbrev Reader (ε : Type) := StateT (List UInt8) (Except ε)

variable {ε α β : Type}

/-- A computation that may refuse, and what follows it. -/
theorem bind_ok_iff {x : Except ε α} {k : α → Except ε β} {b : β} :
    (x >>= k) = .ok b ↔ ∃ a, x = .ok a ∧ k a = .ok b := by
  cases x with
  | error e => simp [bind, Except.bind]
  | ok a => simp [bind, Except.bind]

namespace Put

/-- One encoder after another. -/
def append (p q : Put ε) : Put ε :=
  match p, q with
  | .ok a, .ok b => .ok (a ++ b)
  | .ok _, .error e => .error e
  | .error e, _ => .error e

/-- Encoders one after another. -/
def seq : List (Put ε) → Put ε
  | [] => .ok []
  | p :: ps => p.append (seq ps)

theorem append_eq_ok {p q : Put ε} {bs : List UInt8} :
    p.append q = .ok bs ↔ ∃ a b, p = .ok a ∧ q = .ok b ∧ bs = a ++ b := by
  cases p with
  | error e => simp [append]
  | ok a =>
    cases q with
    | error e => simp [append]
    | ok b => simp [append, eq_comm]

theorem append_nil (p : Put ε) : p.append (.ok []) = p := by
  cases p with
  | error e => rfl
  | ok a => simp [append]

theorem seq_cons_eq_ok {p : Put ε} {ps : List (Put ε)} {bs : List UInt8} :
    seq (p :: ps) = .ok bs ↔ ∃ a b, p = .ok a ∧ seq ps = .ok b ∧ bs = a ++ b :=
  append_eq_ok

/-- The encoder writes, and exactly `n` bytes. -/
def Size (p : Put ε) (n : Nat) : Prop := ∃ bs, p = .ok bs ∧ bs.length = n

/-- **The size of a sequence** is the sum of the sizes. -/
theorem Size.seq {ps : List (Put ε)} {ns : List Nat} (h : List.Forall₂ Size ps ns) :
    (seq ps).Size ns.sum := by
  induction h with
  | nil => exact ⟨[], rfl, rfl⟩
  | cons hp _ ih =>
    obtain ⟨a, ha, rfl⟩ := hp
    obtain ⟨b, hb, hlen⟩ := ih
    exact ⟨a ++ b, seq_cons_eq_ok.mpr ⟨a, b, ha, hb, rfl⟩, by simp [hlen]⟩

theorem Size.map {put : α → Put ε} {f : α → Nat} {xs : List α}
    (h : ∀ x ∈ xs, (put x).Size (f x)) : List.Forall₂ Size (xs.map put) (xs.map f) := by
  induction xs with
  | nil => exact .nil
  | cons x xs ih =>
    exact .cons (h x (List.mem_cons_self ..)) (ih fun y hy => h y (List.mem_cons_of_mem _ hy))

theorem Size.length {p : Put ε} {n : Nat} {bs : List UInt8} (h : p.Size n) (hp : p = .ok bs) :
    bs.length = n := by
  obtain ⟨as, ha, hlen⟩ := h
  rw [hp] at ha
  cases ha
  exact hlen

end Put

/-! ## Reading back what was written -/

/-- Reading with `g` what `p` wrote performs the check `c` and yields `x`. -/
def Reads (lim : Nat) (g : Reader ε α) (p : Put ε) (c : Except ε Unit) (x : α) : Prop :=
  ∀ bs, p = .ok bs → bs.length < lim → ∀ rest, g (bs ++ rest) = c >>= fun _ => .ok (x, rest)

namespace Reads
variable {lim : Nat}

theorem pure (x : α) : Reads (ε := ε) lim (Pure.pure x) (Put.seq []) (.ok ()) x := by
  intro bs h _ rest
  cases h
  rfl

/-- **Sequencing.**  The first field is read, its check is made, and the decoder
goes on with the value read. -/
theorem bind {g : Reader ε α} {p : Put ε} {c : Except ε Unit} {a : α} {k : α → Reader ε β}
    {ps : List (Put ε)} {c' : Except ε Unit} {x : β} (h : Reads lim g p c a)
    (h' : Reads lim (k a) (Put.seq ps) c' x) :
    Reads lim (g >>= k) (Put.seq (p :: ps)) (c >>= fun _ => c') x := by
  intro bs hbs hlen rest
  obtain ⟨b, b', hb, hb', rfl⟩ := Put.seq_cons_eq_ok.mp hbs
  rw [List.length_append] at hlen
  have e1 := h b hb (by omega) (b' ++ rest)
  have e2 := h' b' hb' (by omega) rest
  -- to the first decoder, what the second one reads is the rest
  show g ((b ++ b') ++ rest) >>= (fun s => k s.1 s.2) = _
  rw [List.append_assoc, e1]
  cases c with
  | error e => rfl
  | ok u => exact e2

/-- Sequencing after a field that is always accepted. -/
theorem field {g : Reader ε α} {p : Put ε} {a : α} {k : α → Reader ε β}
    {ps : List (Put ε)} {c' : Except ε Unit} {x : β} (h : Reads lim g p (.ok ()) a)
    (h' : Reads lim (k a) (Put.seq ps) c' x) :
    Reads lim (g >>= k) (Put.seq (p :: ps)) c' x := h.bind h'

/-- A check on the value just read, made before the next field. -/
theorem check {c c' : Except ε Unit} {k : Unit → Reader ε β} {p : Put ε} {x : β}
    (h : Reads lim (k ()) p c' x) :
    Reads lim (StateT.lift c >>= k) p (c >>= fun _ => c') x := by
  intro bs hbs hlen rest
  have e := h bs hbs hlen rest
  cases c with
  | error e => rfl
  | ok u => exact e

theorem congr {g : Reader ε α} {p : Put ε} {c c' : Except ε Unit} {x y : α}
    (h : Reads lim g p c x) (hc : c = c') (hx : x = y) : Reads lim g p c' y := hc ▸ hx ▸ h

/-- A single field that is the whole of a decoder. -/
theorem map {g : Reader ε α} {p : Put ε} {c : Except ε Unit} {a : α} (f : α → β)
    (h : Reads lim g p c a) : Reads lim (g >>= fun a => Pure.pure (f a)) p c (f a) := by
  intro bs hbs hlen rest
  have e := h bs hbs hlen rest
  show g (bs ++ rest) >>= (fun s => .ok (f s.1, s.2)) = _
  rw [e]
  cases c <;> rfl

end Reads

/-! ## What a decoder accepts -/

/-- Whatever `g` accepts satisfies `P`. -/
def Yields (g : Reader ε α) (P : α → Prop) : Prop :=
  ∀ bs x rest, g bs = .ok (x, rest) → P x

namespace Yields

theorem pure {P : α → Prop} {x : α} (h : P x) : Yields (ε := ε) (Pure.pure x) P := by
  intro bs y rest hy
  cases hy
  exact h

theorem bind {g : Reader ε α} {k : α → Reader ε β} {P : α → Prop} {Q : β → Prop}
    (h : Yields g P) (h' : ∀ a, P a → Yields (k a) Q) : Yields (g >>= k) Q := by
  intro bs x rest hx
  change g bs >>= (fun s => k s.1 s.2) = _ at hx
  cases hg : g bs with
  | error e => rw [hg] at hx; cases hx
  | ok s =>
    rw [hg] at hx
    exact h' s.1 (h bs s.1 s.2 hg) s.2 x rest hx

/-- Nothing is claimed of a field that any value may fill. -/
theorem any {g : Reader ε α} {k : α → Reader ε β} {Q : β → Prop}
    (h' : ∀ a, Yields (k a) Q) : Yields (g >>= k) Q :=
  bind (P := fun _ => True) (fun _ _ _ _ => trivial) fun a _ => h' a

theorem check {c : Except ε Unit} {k : Unit → Reader ε β} {Q : β → Prop}
    (h' : c = .ok () → Yields (k ()) Q) : Yields (StateT.lift c >>= k) Q := by
  intro bs x rest hx
  cases hc : c with
  | error e => rw [hc] at hx; cases hx
  | ok u =>
    rw [hc] at hx
    exact h' hc bs x rest hx

theorem mono {g : Reader ε α} {P Q : α → Prop} (h : Yields g P) (hPQ : ∀ x, P x → Q x) :
    Yields g Q := fun bs x rest hx => hPQ x (h bs x rest hx)

end Yields

/-! ## What a decoder consumes -/

/-- What `g` consumes is what `put` writes for the value it produces. -/
def Spells (g : Reader ε α) (put : α → Put ε) : Prop :=
  ∀ bs x rest, g bs = .ok (x, rest) → ∃ as, put x = .ok as ∧ bs = as ++ rest

/-- The rest of a record's decoder: `pre` puts the fields already read before
those that follow, and it consumes the latter. -/
def Completes (pre : List (Put ε) → List (Put ε)) (g : Reader ε α) (put : α → Put ε) : Prop :=
  ∀ bs x rest, g bs = .ok (x, rest) →
    ∃ ps as, put x = Put.seq (pre ps) ∧ Put.seq ps = .ok as ∧ bs = as ++ rest

namespace Spells

/-- A record is spelled out by its fields. -/
theorem record {g : Reader ε α} {put : α → Put ε} (h : Completes id g put) : Spells g put := by
  intro bs x rest hx
  obtain ⟨ps, as, hput, hps, rfl⟩ := h bs x rest hx
  exact ⟨as, hput.trans hps, rfl⟩

/-- A value built from a single field. -/
theorem map {g : Reader ε α} {put : α → Put ε} {put' : β → Put ε} {f : α → β}
    (h : Spells g put) (hf : ∀ a, put' (f a) = put a) :
    Spells (g >>= fun a => Pure.pure (f a)) put' := by
  intro bs x rest hx
  change g bs >>= (fun s => Except.ok (f s.1, s.2)) = _ at hx
  cases hg : g bs with
  | error e => rw [hg] at hx; cases hx
  | ok s =>
    rw [hg] at hx
    cases hx
    obtain ⟨as, hput, hbs⟩ := h bs s.1 s.2 hg
    exact ⟨as, (hf s.1).trans hput, hbs⟩

end Spells

namespace Completes
variable {pre : List (Put ε) → List (Put ε)}

theorem pure {put : α → Put ε} {x : α} (h : put x = Put.seq (pre [])) :
    Completes pre (Pure.pure x) put := by
  intro bs y rest hy
  cases hy
  exact ⟨[], [], h, rfl, rfl⟩

/-- The next field, and then the rest. -/
theorem field {g : Reader ε α} {p : α → Put ε} {k : α → Reader ε β} {put : β → Put ε}
    (h : Spells g p) (h' : ∀ a, Completes (fun ps => pre (p a :: ps)) (k a) put) :
    Completes pre (g >>= k) put := by
  intro bs x rest hx
  change g bs >>= (fun s => k s.1 s.2) = _ at hx
  cases hg : g bs with
  | error e => rw [hg] at hx; cases hx
  | ok s =>
    rw [hg] at hx
    obtain ⟨as, hp, hbs⟩ := h bs s.1 s.2 hg
    obtain ⟨ps, as', hput, hps, hs⟩ := h' s.1 s.2 x rest hx
    refine ⟨p s.1 :: ps, as ++ as', hput, Put.seq_cons_eq_ok.mpr ⟨as, as', hp, hps, rfl⟩, ?_⟩
    rw [hbs, hs, List.append_assoc]

/-- A check consumes nothing. -/
theorem check {c : Except ε Unit} {k : Unit → Reader ε β} {put : β → Put ε}
    (h' : c = .ok () → Completes pre (k ()) put) : Completes pre (StateT.lift c >>= k) put := by
  intro bs x rest hx
  cases hc : c with
  | error e => rw [hc] at hx; cases hx
  | ok u =>
    rw [hc] at hx
    exact h' hc bs x rest hx

end Completes

/-! ## Words, in little-endian order -/

/-- The `k` low bytes of `n`, least significant first. -/
def leBytes : Nat → Nat → List UInt8
  | 0, _ => []
  | k + 1, n => UInt8.ofNat (n % 256) :: leBytes k (n / 256)

/-- The number a little-endian byte list denotes. -/
def ofLE : List UInt8 → Nat
  | [] => 0
  | b :: bs => b.toNat + 256 * ofLE bs

@[simp] theorem leBytes_length (k n : Nat) : (leBytes k n).length = k := by
  induction k generalizing n with
  | zero => rfl
  | succ k ih => simp [leBytes, ih]

theorem ofLE_leBytes (k n : Nat) (h : n < 256 ^ k) : ofLE (leBytes k n) = n := by
  induction k generalizing n with
  | zero => simp at h; simp [leBytes, ofLE, h]
  | succ k ih =>
    -- the head is the lowest byte, the tail the rest of the number
    have hlt : n / 256 < 256 ^ k := Nat.div_lt_of_lt_mul (by rw [Nat.pow_succ] at h; omega)
    rw [leBytes, ofLE, ih _ hlt]
    simp [Nat.mod_mod_of_dvd]
    omega

theorem ofLE_lt (bs : List UInt8) : ofLE bs < 256 ^ bs.length := by
  induction bs with
  | nil => exact Nat.one_pos
  | cons b bs ih =>
    have hb : b.toNat < 256 := b.toNat_lt
    rw [ofLE, List.length_cons, Nat.pow_succ]
    omega

/-- Bytes are determined by their number and how many there are. -/
theorem leBytes_ofLE (bs : List UInt8) : leBytes bs.length (ofLE bs) = bs := by
  induction bs with
  | nil => rfl
  | cons b bs ih =>
    have hb : b.toNat < 256 := b.toNat_lt
    have hmod : (b.toNat + 256 * ofLE bs) % 256 = b.toNat := by omega
    have hdiv : (b.toNat + 256 * ofLE bs) / 256 = ofLE bs := by omega
    rw [List.length_cons, ofLE, leBytes, hmod, hdiv, ih, UInt8.ofNat_toNat]

/-- Consume `k` bytes, or refuse with `e` when there are fewer. -/
def readBytes (e : ε) (k : Nat) : Reader ε (List UInt8) := fun bs =>
  if bs.length < k then .error e else .ok (bs.take k, bs.drop k)

theorem readBytes_append (e : ε) (as rest : List UInt8) :
    readBytes e as.length (as ++ rest) = .ok (as, rest) := by
  simp [readBytes]

theorem readBytes_eq_ok {e : ε} {k : Nat} {bs as rest : List UInt8}
    (h : readBytes e k bs = .ok (as, rest)) : as.length = k ∧ bs = as ++ rest := by
  unfold readBytes at h
  split at h
  · cases h
  · rename_i hlen
    cases h
    refine ⟨?_, (List.take_append_drop k bs).symm⟩
    rw [List.length_take]
    omega

/-- Consume a `k`-byte little-endian number. -/
def readLE (e : ε) (k : Nat) : Reader ε Nat := do
  let bs ← readBytes e k
  return ofLE bs

theorem readLE_leBytes (e : ε) (k n : Nat) (h : n < 256 ^ k) (rest : List UInt8) :
    readLE e k (leBytes k n ++ rest) = .ok (n, rest) := by
  have hb := readBytes_append e (leBytes k n) rest
  rw [leBytes_length] at hb
  show (readBytes e k (leBytes k n ++ rest) >>= fun s => Except.ok (ofLE s.1, s.2)) = _
  rw [hb]
  show Except.ok (ofLE (leBytes k n), rest) = _
  rw [ofLE_leBytes k n h]

theorem readLE_eq_ok {e : ε} {k n : Nat} {bs rest : List UInt8}
    (h : readLE e k bs = .ok (n, rest)) : n < 256 ^ k ∧ bs = leBytes k n ++ rest := by
  change (readBytes e k bs >>= fun s => Except.ok (ofLE s.1, s.2)) = _ at h
  cases hr : readBytes e k bs with
  | error e => rw [hr] at h; cases h
  | ok s =>
    obtain ⟨as, tail⟩ := s
    rw [hr] at h
    cases h
    obtain ⟨rfl, hbs⟩ := readBytes_eq_ok hr
    exact ⟨ofLE_lt as, by rw [leBytes_ofLE, hbs]⟩

/-! ## Repetition -/

/-- Read `n` values. -/
def readN (g : Reader ε α) : Nat → Reader ε (List α)
  | 0 => pure []
  | n + 1 => do
    let x ← g
    let xs ← readN g n
    return x :: xs

/-- The checks of a list's elements, in order. -/
def checkAll (c : α → Except ε Unit) : List α → Except ε Unit
  | [] => .ok ()
  | x :: xs => c x >>= fun _ => checkAll c xs

theorem checkAll_eq_ok {c : α → Except ε Unit} {xs : List α} :
    checkAll c xs = .ok () ↔ ∀ x ∈ xs, c x = .ok () := by
  induction xs with
  | nil => simp [checkAll]
  | cons x xs ih =>
    cases hx : c x with
    | error e => simp [checkAll, hx, bind, Except.bind]
    | ok u => simpa [checkAll, hx, bind, Except.bind] using ih

theorem checkAll_ok (xs : List α) : checkAll (ε := ε) (fun _ => .ok ()) xs = .ok () :=
  checkAll_eq_ok.mpr fun _ _ => rfl

/-- Reading back a list element by element. -/
theorem Reads.readN {lim : Nat} {g : Reader ε β} {put : α → Put ε} {c : α → Except ε Unit}
    {f : α → β} (xs : List α) (h : ∀ x ∈ xs, Reads lim g (put x) (c x) (f x)) :
    Reads lim (readN g xs.length) (Put.seq (xs.map put)) (checkAll c xs) (xs.map f) := by
  induction xs with
  | nil => exact Reads.pure _
  | cons x xs ih =>
    have hx := h x (List.mem_cons_self ..)
    have hxs := ih fun y hy => h y (List.mem_cons_of_mem _ hy)
    refine Reads.bind hx ?_
    exact Reads.map (f x :: ·) hxs

/-- The elements of a list are spelled one after another. -/
theorem Spells.readN {g : Reader ε α} {put : α → Put ε} (h : Spells g put) (n : Nat) :
    Spells (readN g n) fun xs => Put.seq (xs.map put) := by
  induction n with
  | zero =>
    intro bs xs rest hx
    cases hx
    exact ⟨[], rfl, rfl⟩
  | succ n ih =>
    refine .record (.field h fun x => .field ih fun xs => .pure ?_)
    show (put x).append _ = (put x).append ((Put.seq (xs.map put)).append (.ok []))
    rw [Put.append_nil]

theorem Yields.readN {g : Reader ε α} {P : α → Prop} (h : Yields g P) (n : Nat) :
    Yields (readN g n) (fun xs => xs.length = n ∧ ∀ x ∈ xs, P x) := by
  induction n with
  | zero => exact Yields.pure ⟨rfl, by simp⟩
  | succ n ih =>
    refine h.bind fun x hx => ih.bind fun xs hxs => Yields.pure ⟨by simp [hxs.1], ?_⟩
    intro y hy
    rcases List.mem_cons.mp hy with rfl | hy
    · exact hx
    · exact hxs.2 y hy

/-! ## Running checksums -/

/-- Two lists of one length that differ in exactly one place. -/
def DiffersOnce (xs ys : List α) : Prop :=
  ∃ front x y back, x ≠ y ∧ xs = front ++ x :: back ∧ ys = front ++ y :: back

theorem DiffersOnce.length {xs ys : List α} (h : DiffersOnce xs ys) : xs.length = ys.length := by
  obtain ⟨front, x, y, back, -, rfl, rfl⟩ := h
  simp

theorem DiffersOnce.ne {xs ys : List α} (h : DiffersOnce xs ys) : xs ≠ ys := by
  obtain ⟨front, x, y, back, hne, rfl, rfl⟩ := h
  intro heq
  have htail := List.append_cancel_left heq
  cases htail
  exact hne rfl

/-- The place is in the first part or in the second. -/
theorem DiffersOnce.of_append {as bs cs ds : List α} (hlen : as.length = cs.length)
    (h : DiffersOnce (as ++ bs) (cs ++ ds)) :
    DiffersOnce as cs ∧ bs = ds ∨ as = cs ∧ DiffersOnce bs ds := by
  induction as generalizing cs with
  | nil =>
    obtain rfl : cs = [] := List.length_eq_zero_iff.mp hlen.symm
    exact Or.inr ⟨rfl, h⟩
  | cons a as ih =>
    cases cs with
    | nil => cases hlen
    | cons c cs =>
      have hlen' : as.length = cs.length := Nat.succ.inj hlen
      obtain ⟨front, x, y, back, hne, hx, hy⟩ := h
      cases front with
      | nil =>
        -- the place is the head, and the rests are equal
        cases hx
        injection hy with hc hrest
        obtain ⟨rfl, rfl⟩ := List.append_inj hrest.symm hlen'
        exact Or.inl ⟨⟨[], a, c, as, hc ▸ hne, rfl, rfl⟩, rfl⟩
      | cons f front =>
        injection hx with ha hx
        injection hy with hc hy
        rw [ha, hc]
        rcases ih hlen' ⟨front, x, y, back, hne, hx, hy⟩ with ⟨⟨fr, u, v, bk, huv, rfl, rfl⟩, hbs⟩ |
          ⟨rfl, hbs⟩
        · exact Or.inl ⟨⟨f :: fr, u, v, bk, huv, rfl, rfl⟩, hbs⟩
        · exact Or.inr ⟨rfl, hbs⟩

/-- **A running checksum whose step loses nothing catches a single change**: the
step is injective in the element for every checksum, and in the checksum for
every element. -/
theorem foldl_ne_of_differsOnce {step : β → α → β} (helem : ∀ h x y, step h x = step h y → x = y)
    (hsum : ∀ x h h', step h x = step h' x → h = h') {xs ys : List α} (h : DiffersOnce xs ys)
    (init : β) : xs.foldl step init ≠ ys.foldl step init := by
  obtain ⟨front, x, y, back, hne, rfl, rfl⟩ := h
  rw [List.foldl_append, List.foldl_append, List.foldl_cons, List.foldl_cons]
  -- after the changed element the checksums differ, and what follows keeps them apart
  have hafter : step (front.foldl step init) x ≠ step (front.foldl step init) y :=
    fun heq => hne (helem _ x y heq)
  generalize step (front.foldl step init) x = u at hafter
  generalize step (front.foldl step init) y = v at hafter
  induction back generalizing u v with
  | nil => exact hafter
  | cons b back ih => exact ih _ _ fun heq => hafter (hsum b u v heq)

end Codec
