import FailoverFabric.Protocol.Common
import Mathlib.Data.List.TakeWhile

/-! # Transport addresses

`parse_tcp_transport` of `net/common.hpp`.  The coordinator writes the address of a
worker as text, `tcp://HOST:PORT`, and the gateway takes it apart again, at the last
colon.  What is read is what was written, whatever the host is made of
(`parse_tcp_transport_of_parts`).
-/
namespace FailoverFabric
namespace Protocol

/-! ## The last position of an element -/

section LastPosition

variable {α : Type*} [DecidableEq α]

/-- `rfind` of one element: its last position. -/
def rfind (a : α) : List α → Option Nat
  | [] => none
  | b :: l =>
    match rfind a l with
    | some i => some (i + 1)
    | none => if b = a then some 0 else none

theorem rfind_eq_none {a : α} {l : List α} (h : a ∉ l) : rfind a l = none := by
  induction l with
  | nil => rfl
  | cons b l ih =>
    rw [List.mem_cons, not_or] at h
    rw [rfind, ih h.2, if_neg (Ne.symm h.1)]

/-- The last position is the one that no other follows. -/
theorem rfind_append_cons {a : α} (l : List α) {rest : List α} (h : a ∉ rest) :
    rfind a (l ++ a :: rest) = some l.length := by
  induction l with
  | nil => rw [List.nil_append, rfind, rfind_eq_none h, if_pos rfl, List.length_nil]
  | cons b l ih => rw [List.cons_append, rfind, ih, List.length_cons]

end LastPosition

/-! ## Decimal numbers -/

/-- `std::isspace`, in the "C" locale. -/
def isSpace (c : UInt8) : Bool := c == 32 || (9 ≤ c && c ≤ 13)

/-- `std::isdigit`. -/
def isDigit (c : UInt8) : Bool := 48 ≤ c && c ≤ 57

/-- The number that decimal digits write. -/
def digitsValue (digits : Text) : Nat := digits.foldl (fun n c => 10 * n + (c.toNat - 48)) 0

/-- The sign in front of a number: it is negative, and what follows the sign. -/
def signed : Text → Bool × Text
  | c :: rest => if c = 45 then (true, rest) else if c = 43 then (false, rest) else (false, c :: rest)
  | [] => (false, [])

/-- `std::strtoull` with base 10: white space, a sign, and as many digits as there are.
What is too large is `ULLONG_MAX`. -/
def strtoull (s : Text) : UInt64 :=
  let (negative, rest) := signed (s.dropWhile isSpace)
  let n := digitsValue (rest.takeWhile isDigit)
  if 2 ^ 64 ≤ n then 0xffffffffffffffff
  else if negative then 0 - UInt64.ofNat n else UInt64.ofNat n

theorem decimal_eq (n : Nat) :
    decimal n = (Nat.toDigits 10 n).map fun c => UInt8.ofNat c.toNat := by
  rw [decimal, text, Nat.toList_repr]

/-- The byte of a digit. -/
theorem toNat_ofDigit {c : Char} (h : c.isDigit) :
    (UInt8.ofNat c.toNat).toNat = c.toNat ∧ 48 ≤ c.toNat ∧ c.toNat ≤ 57 := by
  simp only [Char.isDigit, Bool.and_eq_true, decide_eq_true_eq] at h
  have hlo : 48 ≤ c.toNat := h.1
  have hhi : c.toNat ≤ 57 := h.2
  rw [UInt8.toNat_ofNat']
  exact ⟨by omega, hlo, hhi⟩

theorem isDigit_of_mem_decimal {n : Nat} {c : UInt8} (h : c ∈ decimal n) : isDigit c := by
  rw [decimal_eq, List.mem_map] at h
  obtain ⟨d, hd, rfl⟩ := h
  obtain ⟨heq, hlo, hhi⟩ := toNat_ofDigit (Nat.isDigit_of_mem_toDigits (by decide) (by decide) hd)
  simp only [isDigit, Bool.and_eq_true, decide_eq_true_eq, UInt8.le_iff_toNat_le, heq]
  exact ⟨hlo, hhi⟩

theorem digitsValue_decimal (n : Nat) : digitsValue (decimal n) = n := by
  have hdigits : ∀ (cs : List Char) (k : Nat), (∀ c ∈ cs, c.isDigit) →
      (cs.map fun c => UInt8.ofNat c.toNat).foldl (fun n c => 10 * n + (c.toNat - 48)) k =
        Nat.ofDigitChars 10 cs k := by
    intro cs
    induction cs with
    | nil => intro k _; rw [List.map_nil, List.foldl_nil, Nat.ofDigitChars_nil]
    | cons c cs ih =>
      intro k h
      have hc := (toNat_ofDigit (h c List.mem_cons_self)).1
      rw [List.map_cons, List.foldl_cons, ih _ fun d hd => h d (List.mem_cons_of_mem _ hd),
        Nat.ofDigitChars_cons, hc]
      rfl
  rw [digitsValue, decimal_eq, hdigits _ 0 fun c hc =>
    Nat.isDigit_of_mem_toDigits (by decide) (by decide) hc, Nat.ofDigitChars_ten_toDigits]

/-- A digit is neither white space nor a sign. -/
theorem of_isDigit {c : UInt8} (h : isDigit c) : isSpace c = false ∧ c ≠ 45 ∧ c ≠ 43 := by
  simp only [isDigit, Bool.and_eq_true, decide_eq_true_eq, UInt8.le_iff_toNat_le] at h
  have hlo : 48 ≤ c.toNat := h.1
  have hne : ∀ d : UInt8, d.toNat < 48 → c ≠ d := by
    rintro d hd rfl
    omega
  refine ⟨?_, hne 45 (by decide), hne 43 (by decide)⟩
  rw [isSpace, beq_eq_false_iff_ne.2 (hne 32 (by decide)), Bool.false_or, Bool.and_eq_false_iff]
  refine .inr (decide_eq_false fun hle => ?_)
  have hhi : c.toNat ≤ 13 := UInt8.le_iff_toNat_le.1 hle
  omega

/-- A number that fits is read as it was printed. -/
theorem strtoull_decimal {n : Nat} (h : n < 2 ^ 64) : strtoull (decimal n) = UInt64.ofNat n := by
  obtain ⟨c, rest, hcons⟩ : ∃ c rest, decimal n = c :: rest := by
    refine List.exists_cons_of_ne_nil ?_
    rw [decimal_eq, ne_eq, List.map_eq_nil_iff]
    exact Nat.toDigits_ne_nil
  obtain ⟨hspace, hminus, hplus⟩ :=
    of_isDigit (isDigit_of_mem_decimal (hcons ▸ List.mem_cons_self : c ∈ decimal n))
  have hstart : signed ((decimal n).dropWhile isSpace) = (false, decimal n) := by
    rw [hcons, List.dropWhile_cons_of_neg (by rw [hspace]; decide), signed, if_neg hminus,
      if_neg hplus]
  have hall : (decimal n).takeWhile isDigit = decimal n :=
    List.takeWhile_eq_self_iff.2 fun c hc => isDigit_of_mem_decimal hc
  simp only [strtoull, hstart, hall, digitsValue_decimal, if_neg (Nat.not_le.2 h)]
  rfl

/-! ## Addresses -/

/-- What `parse_tcp_transport` gives back. -/
structure ParsedTransport where
  ok : Bool
  host : Text
  port : UInt16
  deriving DecidableEq

/-- Parse a `tcp://HOST:PORT` transport.  The separator is the last colon: the first one
belongs to the scheme.  Where there is no other, the length `p - 6` of the host wraps, and
the host is all that follows the scheme. -/
def parseTcpTransport (transport : Text) : ParsedTransport :=
  match rfind 58 transport with
  | some p =>
    if (text "tcp://").isPrefixOf transport then
      { ok := true
        host := if p < 6 then transport.drop 6 else (transport.drop 6).take (p - 6)
        port := (strtoull (transport.drop (p + 1))).toUInt16 }
    else { ok := false, host := text "127.0.0.1", port := 0 }
  | none => { ok := false, host := text "127.0.0.1", port := 0 }

/-- The address of a port of a host. -/
def tcpTransport (host : Text) (port : UInt16) : Text :=
  text "tcp://" ++ host ++ text ":" ++ decimal port.toNat

theorem tcpTransport_split (host : Text) (port : UInt16) :
    tcpTransport host port = (text "tcp://" ++ host) ++ 58 :: decimal port.toNat := by
  rw [tcpTransport, List.append_assoc]
  rfl

/-- The last colon of an address is the one in front of the port. -/
theorem rfind_tcpTransport (host : Text) (port : UInt16) :
    rfind 58 (tcpTransport host port) = some (6 + host.length) := by
  have hport : (58 : UInt8) ∉ decimal port.toNat := fun h =>
    absurd (isDigit_of_mem_decimal h) (by decide)
  rw [tcpTransport_split, rfind_append_cons _ hport, List.length_append]
  rfl

theorem host_of_tcpTransport (host : Text) (port : UInt16) :
    ((tcpTransport host port).drop 6).take host.length = host := by
  have hdrop : (tcpTransport host port).drop 6 = host ++ 58 :: decimal port.toNat := by
    rw [tcpTransport_split, List.append_assoc]
    rfl
  rw [hdrop, List.take_left]

theorem port_of_tcpTransport (host : Text) (port : UInt16) :
    (strtoull ((tcpTransport host port).drop (6 + host.length + 1))).toUInt16 = port := by
  have hdrop : (tcpTransport host port).drop (6 + host.length + 1) = decimal port.toNat := by
    rw [tcpTransport_split, ← List.singleton_append, ← List.append_assoc]
    exact List.drop_left' (by rw [List.length_append, List.length_append]; rfl)
  have hsmall : port.toNat < 2 ^ 64 := port.toNat_lt.trans (by decide)
  rw [hdrop, strtoull_decimal hsmall]
  refine UInt16.toNat_inj.1 ?_
  rw [UInt64.toNat_toUInt16, UInt64.toNat_ofNat_of_lt' hsmall]
  exact Nat.mod_eq_of_lt port.toNat_lt

/-- An address is read as it was written: its host may hold any bytes, colons among
them. -/
theorem parse_tcp_transport_of_parts (host : Text) (port : UInt16) :
    parseTcpTransport (tcpTransport host port) = { ok := true, host := host, port := port } := by
  have hscheme : (text "tcp://").isPrefixOf (tcpTransport host port) := by
    rw [List.isPrefixOf_iff_prefix, tcpTransport_split, List.append_assoc]
    exact List.prefix_append _ _
  have hhost : 6 + host.length - 6 = host.length := Nat.add_sub_cancel_left _ _
  simp only [parseTcpTransport, rfind_tcpTransport, if_pos hscheme, port_of_tcpTransport, hhost,
    host_of_tcpTransport, if_neg (Nat.not_lt.2 (Nat.le_add_right 6 host.length))]

/-- Different addresses are written differently. -/
theorem tcpTransport_inj {host host' : Text} {port port' : UInt16}
    (h : tcpTransport host port = tcpTransport host' port') : host = host' ∧ port = port' := by
  have hlast := rfind_tcpTransport host port
  rw [h, rfind_tcpTransport, Option.some.injEq, Nat.add_left_cancel_iff] at hlast
  have hhost := host_of_tcpTransport host port
  have hport := port_of_tcpTransport host port
  rw [h, ← hlast, host_of_tcpTransport] at hhost
  rw [h, ← hlast, port_of_tcpTransport] at hport
  exact ⟨hhost.symm, hport.symm⟩

end Protocol
end FailoverFabric
