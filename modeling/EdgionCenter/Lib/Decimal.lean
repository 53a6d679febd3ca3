import Mathlib.Data.Nat.Digits.Defs

/-! Numbers in decimal, and texts made of words. -/
namespace Decimal

def text (n : Nat) : List Char := Nat.toDigits 10 n

def value (cs : List Char) : Nat := Nat.ofDigitChars 10 cs 0

def parseDigits (bound : Nat) (digits : List Char) : Option Nat :=
  if digits ≠ [] ∧ digits.all Char.isDigit = true ∧ value digits < bound then some (value digits)
  else none

/-- Reads a number below a bound. A plus sign and leading zeros are allowed. -/
def parse (bound : Nat) : List Char → Option Nat
  | '+' :: digits => parseDigits bound digits
  | digits => parseDigits bound digits

theorem isDigit_of_mem_text {n : Nat} {c : Char} (h : c ∈ text n) : c.isDigit = true :=
  Nat.isDigit_of_mem_toDigits (by decide) (by decide) h

theorem value_text (n : Nat) : value (text n) = n :=
  Nat.ofDigitChars_toDigits (by decide) (by decide)

/-- A number is read back. -/
theorem parse_text {bound n : Nat} (h : n < bound) : parse bound (text n) = some n := by
  have hplus : ∀ rest, text n ≠ '+' :: rest := by
    intro rest he
    have hdigit : ('+').isDigit = true := isDigit_of_mem_text (n := n) (by simp [he])
    exact absurd hdigit (by decide)
  have hall : (text n).all Char.isDigit = true := by
    rw [List.all_eq_true]
    exact fun c hc => isDigit_of_mem_text hc
  unfold parse
  split
  · rename_i rest he
    exact absurd he (hplus rest)
  · simp [parseDigits, show text n ≠ [] from Nat.toDigits_ne_nil, hall, value_text, h]

/-- The words of a text: what stands between separators. -/
def words (separator : Char → Bool) (cs : List Char) : List (List Char) :=
  (cs.splitOnP separator).filter (· ≠ [])

theorem words_intercalate {separator : Char → Bool} {c : Char} (hc : separator c = true)
    {ws : List (List Char)} (hne : ∀ w ∈ ws, w ≠ []) (hws : ∀ w ∈ ws, ∀ d ∈ w, separator d = false) :
    words separator ([c].intercalate ws) = ws := by
  unfold words
  induction ws with
  | nil => simp
  | cons w ws ih =>
    have hw := hws w (by simp)
    cases ws with
    | nil =>
      rw [List.intercalate_singleton, List.splitOnP_eq_singleton hw]
      simp [hne w (by simp)]
    | cons next ws =>
      rw [List.intercalate_cons_cons, List.append_assoc, List.singleton_append,
        List.splitOnP_append_cons_of_forall_mem hw c hc, List.filter_cons_of_pos,
        ih (fun v hv => hne v (by simp [hv])) fun v hv => hws v (by simp [hv])]
      simpa using hne w (by simp)

end Decimal
