import Mathlib.Data.List.Basic
import Mathlib.Data.Option.Basic

/-! Base64 with the URL-safe alphabet and without padding. -/
namespace Base64

def alphabet : List Char :=
  "ABCDEFGHIJKLMNOPQRSTUVWXYZabcdefghijklmnopqrstuvwxyz0123456789-_".toList

def symbol (n : Nat) : Char := alphabet.getD n 'A'

def digit? (c : Char) : Option Nat := alphabet.idxOf? c

def encode : List UInt8 → List Char
  | a :: b :: c :: rest =>
    symbol (a.toNat / 4) :: symbol (a.toNat % 4 * 16 + b.toNat / 16) ::
      symbol (b.toNat % 16 * 4 + c.toNat / 64) :: symbol (c.toNat % 64) :: encode rest
  | [a, b] =>
    [symbol (a.toNat / 4), symbol (a.toNat % 4 * 16 + b.toNat / 16), symbol (b.toNat % 16 * 4)]
  | [a] => [symbol (a.toNat / 4), symbol (a.toNat % 4 * 16)]
  | [] => []

/-- The bits that a last group leaves over must be zero. -/
def decode : List Char → Option (List UInt8)
  | w :: x :: y :: z :: rest => do
    let w ← digit? w
    let x ← digit? x
    let y ← digit? y
    let z ← digit? z
    let rest ← decode rest
    return UInt8.ofNat (w * 4 + x / 16) :: UInt8.ofNat (x % 16 * 16 + y / 4) ::
      UInt8.ofNat (y % 4 * 64 + z) :: rest
  | [w, x, y] => do
    let w ← digit? w
    let x ← digit? x
    let y ← digit? y
    guard (y % 4 = 0)
    return [UInt8.ofNat (w * 4 + x / 16), UInt8.ofNat (x % 16 * 16 + y / 4)]
  | [w, x] => do
    let w ← digit? w
    let x ← digit? x
    guard (x % 16 = 0)
    return [UInt8.ofNat (w * 4 + x / 16)]
  | [_] => none
  | [] => some []

theorem digit?_symbol {n : Nat} (h : n < 64) : digit? (symbol n) = some n :=
  (by decide : ∀ n < 64, digit? (symbol n) = some n) n h

theorem symbol_mem (n : Nat) : symbol n ∈ alphabet := by
  by_cases h : n < 64
  · exact (by decide : ∀ n < 64, symbol n ∈ alphabet) n h
  · have hlength : alphabet.length = 64 := by decide
    have hout : alphabet[n]? = none := List.getElem?_eq_none (by omega)
    rw [symbol, List.getD_eq_getElem?_getD, hout]
    decide

theorem ofNat_eq {a : UInt8} {n : Nat} (h : n = a.toNat) : UInt8.ofNat n = a := by
  rw [h, UInt8.ofNat_toNat]

theorem guard_of {p : Prop} [Decidable p] (h : p) : (guard p : Option Unit) = some () :=
  if_pos h

/-- What was encoded is read back. -/
theorem decode_encode (bytes : List UInt8) : decode (encode bytes) = some bytes := by
  induction bytes using encode.induct with
  | case1 a b c rest ih =>
    have ha := a.toNat_lt
    have hb := b.toNat_lt
    have hc := c.toNat_lt
    simp only [encode, decode, ih]
    rw [digit?_symbol (by omega), digit?_symbol (by omega), digit?_symbol (by omega),
      digit?_symbol (by omega)]
    simp only [Option.bind_eq_bind, Option.bind_some, Option.pure_def]
    rw [ofNat_eq (a := a) (by omega), ofNat_eq (a := b) (by omega), ofNat_eq (a := c) (by omega)]
  | case2 a b =>
    have ha := a.toNat_lt
    have hb := b.toNat_lt
    rw [encode, decode, digit?_symbol (by omega), digit?_symbol (by omega),
      digit?_symbol (by omega)]
    change (guard _ : Option Unit).bind (fun _ => some [_, _]) = _
    rw [guard_of (by omega), Option.bind_some, ofNat_eq (a := a) (by omega),
      ofNat_eq (a := b) (by omega)]
  | case3 a =>
    have ha := a.toNat_lt
    rw [encode, decode, digit?_symbol (by omega), digit?_symbol (by omega)]
    change (guard _ : Option Unit).bind (fun _ => some [_]) = _
    rw [guard_of (by omega), Option.bind_some, ofNat_eq (a := a) (by omega)]
  | case4 => rfl

theorem encode_injective : Function.Injective encode := by
  intro a b h
  have hread := congrArg decode h
  rwa [decode_encode, decode_encode, Option.some.injEq] at hread

theorem length_encode (bytes : List UInt8) :
    (encode bytes).length = (4 * bytes.length + 2) / 3 := by
  induction bytes using encode.induct with
  | case1 a b c rest ih =>
    simp only [encode, List.length_cons, ih]
    omega
  | _ => simp [encode]

theorem mem_alphabet_of_mem_encode {bytes : List UInt8} {c : Char} (h : c ∈ encode bytes) :
    c ∈ alphabet := by
  induction bytes using encode.induct with
  | case1 a b c rest ih =>
    simp only [encode, List.mem_cons] at h
    rcases h with rfl | rfl | rfl | rfl | h
    · exact symbol_mem _
    · exact symbol_mem _
    · exact symbol_mem _
    · exact symbol_mem _
    · exact ih h
  | case2 a b =>
    simp only [encode, List.mem_cons, List.not_mem_nil, or_false] at h
    rcases h with rfl | rfl | rfl <;> exact symbol_mem _
  | case3 a =>
    simp only [encode, List.mem_cons, List.not_mem_nil, or_false] at h
    rcases h with rfl | rfl <;> exact symbol_mem _
  | case4 => cases h

end Base64
