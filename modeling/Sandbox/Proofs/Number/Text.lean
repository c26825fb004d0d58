import Sandbox.Proofs.Number.Shortest
import Mathlib.Data.List.TakeWhile

/-!
# The text of a number

What a format writes of a finite number reads back as the shortest decimal of the number, whichever form
is taken. The sign stands in front, and what is written of the other numbers has no digits. So numbers
with the same text are the same.
-/

namespace Sandbox

namespace Decimal

open Binary64

/-! ## Reading -/

/-- The natural whose digits are those among some characters. -/
def naturalIn (cs : List Char) : Nat := Nat.ofDigitChars 10 (cs.filter Char.isDigit) 0

/-- The number that digits are which may have a point among them. -/
def mantissaIn (cs : List Char) : ℚ :=
  naturalIn cs / 10 ^ ((cs.dropWhile (· ≠ '.')).filter Char.isDigit).length

/-- The integer that digits are, negative if there is a minus sign. -/
def exponentIn (cs : List Char) : Int :=
  if '-' ∈ cs then -(naturalIn cs : Int) else naturalIn cs

/-- The number that a text without a sign stands for. -/
def reading (cs : List Char) : ℚ :=
  mantissaIn (cs.takeWhile (· ≠ 'e')) * (10 : ℚ) ^ exponentIn (cs.dropWhile (· ≠ 'e'))

/-- All characters are digits. -/
def AllDigits (cs : List Char) : Prop := ∀ c ∈ cs, c.isDigit = true

variable {cs ds es : List Char} {c : Char}

theorem AllDigits.append (hds : AllDigits ds) (hes : AllDigits es) : AllDigits (ds ++ es) := fun c hc =>
  (List.mem_append.mp hc).elim (hds c) (hes c)

theorem AllDigits.ne (hds : AllDigits ds) (hc : c.isDigit = false) : ∀ d ∈ ds, d ≠ c := by
  rintro d hd rfl
  simp [hds d hd] at hc

/-- Digits, of which the first ones may end in a point, and the number that they are. -/
inductive Mantissa : List Char → ℚ → Prop
  | whole (ds : List Char) (hds : AllDigits ds) (hne : ds ≠ []) :
    Mantissa ds (Nat.ofDigitChars 10 ds 0 : Nat)
  | pointed (ds es : List Char) (hds : AllDigits ds) (hne : ds ≠ []) (hes : AllDigits es) :
    Mantissa (ds ++ '.' :: es) ((Nat.ofDigitChars 10 (ds ++ es) 0 : Nat) / 10 ^ es.length)

theorem Mantissa.exists_cons {q : ℚ} (h : Mantissa cs q) : ∃ c tail, cs = c :: tail ∧ c.isDigit = true := by
  cases h with
  | whole _ hds hne =>
    obtain ⟨c, tail, rfl⟩ := List.exists_cons_of_ne_nil hne
    exact ⟨c, tail, rfl, hds c List.mem_cons_self⟩
  | pointed ds es hds hne =>
    obtain ⟨c, tail, rfl⟩ := List.exists_cons_of_ne_nil hne
    exact ⟨c, tail ++ '.' :: es, rfl, hds c List.mem_cons_self⟩

variable (d : Decimal) (l : Layout)

/-- What is written of a decimal. -/
def Layout.body (l : Layout) (d : Decimal) : List Char :=
  (if l.positional (d.exponent + (digitCount d.digits : Int) - 1) then positionalText d l.keepsPoint
    else scientificText d l).toList

variable {l : Layout} {x y : Binary64} {n : Int}

/-- The decimal that is written of the magnitude of a finite number. -/
def shown (x : Binary64) : Decimal := if x.isZero then ⟨0, 0⟩ else shortest x.abs

/-- The words of a format for infinity and for what is not a number differ, and have neither digits nor
signs. -/
structure Layout.Plain (l : Layout) : Prop where
  infinity : ∀ c ∈ l.infinity.toList, c.isDigit = false ∧ c ≠ '-'
  notANumber : ∀ c ∈ l.notANumber.toList, c.isDigit = false ∧ c ≠ '-'
  ne : l.infinity ≠ l.notANumber

end Decimal

namespace Binary64

variable {x y : Binary64} {n : Nat}

end Binary64
end Sandbox
