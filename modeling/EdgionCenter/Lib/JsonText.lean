import EdgionCenter.Lib.Decimal
import Mathlib.Data.Nat.Digits.Lemmas

/-! JSON texts as they are written, and that what they hold can be told from them. -/
namespace JsonText

variable {α β : Type}

/-- Where the written form of a value ends can be told from the text. -/
def Delimits (write : α → List β) : Prop :=
  ∀ ⦃a b r s⦄, write a ++ r = write b ++ s → a = b ∧ r = s

variable {write : α → List β}

/-- A value after fixed text. -/
theorem Delimits.after (h : Delimits write) {front : List β} {a b : α} {r s : List β}
    (heq : front ++ (write a ++ r) = front ++ (write b ++ s)) : a = b ∧ r = s :=
  h (List.append_cancel_left heq)

theorem Delimits.injective (h : Delimits write) : Function.Injective write := by
  intro a b hab
  exact (h (r := []) (s := []) (by rw [hab])).1

def hexDigit (n : Nat) : Char := if n < 10 then Char.ofNat (48 + n) else Char.ofNat (87 + n)

/-- The control characters that are not written as they are. -/
def escapeControl : Nat → List Char
  | 8 => ['b']
  | 9 => ['t']
  | 10 => ['n']
  | 12 => ['f']
  | 13 => ['r']
  | n => ['u', '0', '0', hexDigit (n / 16), hexDigit (n % 16)]

def escape (c : Char) : List Char :=
  if c.toNat < 32 then '\\' :: escapeControl c.toNat
  else if c = '"' ∨ c = '\\' then ['\\', c]
  else [c]

/-- A string value. -/
def string (text : List Char) : List Char := '"' :: text.flatMap escape ++ ['"']

/-- A number, with the character after it. -/
def number (after : Char) (n : Nat) : List Char := Decimal.text n ++ [after]

/-! ### Strings -/

def hexValue (c : Char) : Nat := if c.toNat < 58 then c.toNat - 48 else c.toNat - 87

/-- Reads one escaped character. -/
def unescape : List Char → Option (Char × List Char)
  | '\\' :: 'b' :: rest => some (Char.ofNat 8, rest)
  | '\\' :: 't' :: rest => some (Char.ofNat 9, rest)
  | '\\' :: 'n' :: rest => some (Char.ofNat 10, rest)
  | '\\' :: 'f' :: rest => some (Char.ofNat 12, rest)
  | '\\' :: 'r' :: rest => some (Char.ofNat 13, rest)
  | '\\' :: 'u' :: _ :: _ :: high :: low :: rest =>
    some (Char.ofNat (hexValue high * 16 + hexValue low), rest)
  | '\\' :: c :: rest => some (c, rest)
  | c :: rest => some (c, rest)
  | [] => none

theorem unescape_escape (c : Char) (rest : List Char) :
    unescape (escape c ++ rest) = some (c, rest) := by
  unfold escape
  split_ifs with hcontrol hspecial
  · have hread : ∀ n < 32, unescape ('\\' :: escapeControl n ++ rest) =
        some (Char.ofNat n, rest) := by
      intro n hn
      interval_cases n <;> rfl
    rw [hread c.toNat hcontrol, Char.ofNat_toNat]
  · rcases hspecial with rfl | rfl <;> rfl
  · have hne : c ≠ '\\' := fun h => hspecial (.inr h)
    simp [unescape, hne]

theorem escape_delimits : Delimits escape := by
  intro a b r s h
  have hread := congrArg unescape h
  rw [unescape_escape, unescape_escape] at hread
  cases hread
  exact ⟨rfl, rfl⟩

theorem escape_append_ne (c : Char) (r s : List Char) : escape c ++ r ≠ '"' :: s := by
  unfold escape
  split_ifs with hcontrol hspecial
  · simp
  · simp
  · intro h
    simp only [List.cons_append, List.nil_append, List.cons.injEq] at h
    exact hspecial (.inl h.1)

theorem string_delimits : Delimits string := by
  intro cs
  induction cs with
  | nil =>
    intro ds r s h
    cases ds with
    | nil =>
      simp only [string, List.flatMap_nil, List.cons_append, List.nil_append,
        List.cons.injEq, true_and] at h
      exact ⟨rfl, h⟩
    | cons d ds =>
      simp only [string, List.flatMap_nil, List.flatMap_cons, List.cons_append, List.nil_append,
        List.append_assoc, List.cons.injEq, true_and] at h
      exact absurd h.symm (escape_append_ne _ _ _)
  | cons c cs ih =>
    intro ds r s h
    cases ds with
    | nil =>
      simp only [string, List.flatMap_nil, List.flatMap_cons, List.cons_append, List.nil_append,
        List.append_assoc, List.cons.injEq, true_and] at h
      exact absurd h (escape_append_ne _ _ _)
    | cons d ds =>
      simp only [string, List.flatMap_cons, List.cons_append, List.append_assoc, List.cons.injEq,
        true_and] at h
      obtain ⟨rfl, hrest⟩ := escape_delimits h
      obtain ⟨rfl, rfl⟩ := @ih ds r s (by simpa [string] using hrest)
      exact ⟨rfl, rfl⟩

/-! ### Objects of strings -/

/-- A value or `null`. -/
def nullOr (write : α → List Char) : Option α → List Char
  | some a => write a
  | none => ['n', 'u', 'l', 'l']

theorem nullOr_delimits {write : α → List Char} (hwrite : Delimits write)
    (hnull : ∀ a r s, write a ++ r ≠ 'n' :: s) : Delimits (nullOr write) := by
  intro a b r s h
  cases a with
  | none =>
    cases b with
    | none => exact ⟨rfl, List.append_cancel_left h⟩
    | some b => exact absurd h.symm (hnull b s _)
  | some a =>
    cases b with
    | none => exact absurd h (hnull a r _)
    | some b =>
      obtain ⟨rfl, hrest⟩ := hwrite h
      exact ⟨rfl, hrest⟩

theorem string_ne_null (text r s : List Char) : string text ++ r ≠ 'n' :: s := by
  simp [string]

/-- The members of an object and what closes it. -/
def members : Bool → List (List Char × Option (List Char)) → List Char
  | _, [] => ['\x7d']
  | first, (name, value) :: rest =>
    (if first then [] else [',']) ++ (string name ++ (':' :: (nullOr string value ++ members false rest)))

def object (ms : List (List Char × Option (List Char))) : List Char := '\x7b' :: members true ms

theorem members_delimits (first : Bool) : Delimits (members first) := by
  intro ms
  induction ms generalizing first with
  | nil =>
    intro ns r s h
    cases ns with
    | nil => exact ⟨rfl, List.append_cancel_left h⟩
    | cons n ns => cases first <;> simp [members, string] at h
  | cons m ms ih =>
    intro ns r s h
    cases ns with
    | nil => cases first <;> simp [members, string] at h
    | cons n ns =>
      simp only [members, List.append_assoc, List.cons_append] at h
      obtain ⟨hname, h⟩ := string_delimits.after h
      obtain ⟨hvalue, h⟩ := nullOr_delimits string_delimits string_ne_null (List.cons.inj h).2
      obtain ⟨rfl, hrest⟩ := ih false h
      exact ⟨by rw [Prod.ext hname hvalue], hrest⟩

theorem object_delimits : Delimits object :=
  fun _ _ _ _ h => members_delimits true (List.cons.inj h).2

/-! ### Numbers -/

theorem takeWhile_number {after : Char} (hafter : after.isDigit = false) (n : Nat)
    (r : List Char) : (Decimal.text n ++ after :: r).takeWhile Char.isDigit = Decimal.text n := by
  rw [List.takeWhile_append_of_pos (fun c hc => Decimal.isDigit_of_mem_text hc)]
  simp [hafter]

theorem number_delimits {after : Char} (hafter : after.isDigit = false) :
    Delimits (number after) := by
  intro n m r s h
  simp only [number, List.append_assoc, List.cons_append, List.nil_append] at h
  have hdigits := congrArg (List.takeWhile Char.isDigit) h
  rw [takeWhile_number hafter, takeWhile_number hafter] at hdigits
  rw [hdigits] at h
  have hrest : after :: r = after :: s := List.append_cancel_left h
  refine ⟨?_, List.tail_eq_of_cons_eq hrest⟩
  rw [← Decimal.value_text n, hdigits, Decimal.value_text]

end JsonText
