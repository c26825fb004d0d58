import Sandbox.Datum.Json.Parser
import Sandbox.Datum.Json.Printer
import Mathlib.Data.List.TakeDrop

/-!
# Reading the strings and integers of JSON

What the printer writes for a string or an integer is read back, whatever stands behind it; behind an
integer there has to be something that does not belong to a number.
-/

namespace Sandbox.Json

/-- A step has read this value and has left this rest. -/
def Reads {α : Type} {s : List Char} (step : Step α s) (a : α) (rest : List Char) : Prop :=
  ∃ h, step = .ok (a, ⟨rest, h⟩)

/-- Nothing is skipped where the first character is no blank. -/
theorem skipBlanks_cons {c : Char} (rest : List Char) (h : isBlank c = false) :
    skipBlanks (c :: rest) = c :: rest := by
  simp [skipBlanks, h]

theorem afterBlanks_cons {c : Char} (rest : List Char) (h : isBlank c = false) :
    afterBlanks (c :: rest) = some (c, ⟨rest, Nat.lt_succ_self _⟩) := by
  unfold afterBlanks
  split
  · rename_i hnone
    rw [skipBlanks_cons rest h] at hnone
    cases hnone
  · rename_i c' rest' hsome
    have heq := hsome.symm.trans (skipBlanks_cons rest h)
    cases heq
    rfl

/-! ## Strings -/

theorem hexValue?_hexDigit (n : Nat) : hexValue? (hexDigit n) = some (n % 16) := by
  have hall : ∀ k < 16, hexValue? ("0123456789abcdef".toList.getD k '0') = some k := by decide
  exact hall (n % 16) (Nat.mod_lt n (by decide))

theorem length_le_byteCount (s : List Char) : s.length ≤ byteCount s := by
  induction s with
  | nil => exact Nat.zero_le _
  | cons c rest ih =>
    have hone : 1 ≤ c.utf8Size := c.utf8Size_pos
    have hcons : byteCount (c :: rest) = c.utf8Size + byteCount rest := rfl
    rw [List.length_cons, hcons]
    omega

/-- A control character is what its four digits stand for. -/
theorem escapeValue_control {c : Char} (hc : c.toNat < 0x20) (rest : List Char) :
    escapeValue ('u' :: '0' :: '0' :: hexDigit (c.toNat / 16) :: hexDigit c.toNat :: rest) =
      .ok (c, rest) := by
  have hbytes : ¬byteCount ('0' :: '0' :: hexDigit (c.toNat / 16) :: hexDigit c.toNat :: rest) < 4 := by
    have hle := length_le_byteCount
      ('0' :: '0' :: hexDigit (c.toNat / 16) :: hexDigit c.toNat :: rest)
    simp only [List.length_cons] at hle
    omega
  have hzero : hexValue? '0' = some 0 := by decide
  have hvalue : ((0 * 16 + 0) * 16 + c.toNat / 16 % 16) * 16 + c.toNat % 16 = c.toNat := by omega
  rw [escapeValue, unicodeEscape, hexUnit, if_neg hbytes]
  simp only [hzero, hexValue?_hexDigit, hvalue]
  rw [if_neg (by simp; omega), if_pos (by simp; omega), Char.ofNat_toNat]

/-- A character is written as an escape that stands for it, or as itself if a string may hold it. -/
theorem escape_cases (c : Char) :
    (∃ s, escape c = '\\' :: s ∧ ∀ rest, escapeValue (s ++ rest) = .ok (c, rest)) ∨
      (escape c = [c] ∧ c ≠ '"' ∧ c ≠ '\\' ∧ ¬c.toNat < 0x20) := by
  fun_cases escape c
  case case8 hcontrol => exact .inl ⟨_, rfl, escapeValue_control hcontrol⟩
  case case9 hquote hslash _ _ _ _ _ hplain => exact .inr ⟨rfl, hquote, hslash, hplain⟩
  all_goals exact .inl ⟨_, rfl, fun _ => rfl⟩

/-- What is written for a character is read as the character. -/
theorem Reads.stringBody_cons {c : Char} {s acc rest : List Char} {text : String}
    (h : Reads (stringBody s (c :: acc)) text rest) :
    Reads (stringBody (escape c ++ s) acc) text rest := by
  obtain ⟨hlt, hbody⟩ := h
  rcases escape_cases c with ⟨letters, hescape, hvalue⟩ | ⟨hescape, hquote, hslash, hplain⟩
  · have hle := length_of_escapeValue (hvalue s)
    rw [hescape, List.cons_append]
    refine ⟨by simp only [List.length_cons]; omega, ?_⟩
    rw [stringBody]
    split
    · rename_i e herror
      rw [hvalue] at herror
      cases herror
    · rename_i c' after hok
      cases (hvalue s).symm.trans hok
      simp only [hbody]
  · rw [hescape, List.singleton_append]
    refine ⟨Nat.lt_succ_of_lt hlt, ?_⟩
    rw [stringBody]
    · simp only [if_neg hplain, hbody]
    · exact hquote
    · exact hslash

/-- The characters of a string are read up to the quote behind them. -/
theorem reads_stringBody (l acc rest : List Char) :
    Reads (stringBody (l.flatMap escape ++ '"' :: rest) acc) (String.ofList (acc.reverse ++ l))
      rest := by
  induction l generalizing acc with
  | nil =>
    have hend : stringBody ('"' :: rest) acc =
        .ok (String.ofList acc.reverse, ⟨rest, Nat.lt_succ_self _⟩) := by
      rw [stringBody]
    rw [List.append_nil]
    exact ⟨Nat.lt_succ_self _, hend⟩
  | cons c l ih =>
    have hrest := ih (c :: acc)
    rw [List.reverse_cons, List.append_assoc, List.singleton_append] at hrest
    rw [List.flatMap_cons, List.append_assoc]
    exact hrest.stringBody_cons

/-- A string that is written is read. -/
theorem reads_quote (s : String) (rest : List Char) :
    Reads (stringBody (s.toList.flatMap escape ++ '"' :: rest) []) s rest := by
  have h := reads_stringBody s.toList [] rest
  rwa [List.reverse_nil, List.nil_append, String.ofList_toList] at h

/-! ## Integers -/

/-- The text does not go on with what may belong to a number. -/
def EndsNumber (rest : List Char) : Prop :=
  ∀ c tail, rest = c :: tail → c.isDigit = false ∧ c ≠ '.' ∧ c ≠ 'e' ∧ c ≠ 'E'

theorem le_ofDigitChars (ds : List Char) (n : Nat) : n ≤ Nat.ofDigitChars 10 ds n := by
  rw [Nat.ofDigitChars_eq_ofDigitChars_zero]
  have hpow : n ≤ 10 ^ ds.length * n := Nat.le_mul_of_pos_left n (Nat.pow_pos (by decide))
  omega

/-- Digits are collected up to where the number ends, as long as it stays within the limit. -/
theorem collect_append {ds rest : List Char} (hdigits : ∀ c ∈ ds, c.isDigit = true)
    (hrest : EndsNumber rest) (n taken : Nat) (hlimit : Nat.ofDigitChars 10 ds n ≤ digitLimit) :
    collect (ds ++ rest) n taken = (Nat.ofDigitChars 10 ds n, taken + ds.length, rest) := by
  induction ds generalizing n taken with
  | nil =>
    rw [List.nil_append, Nat.ofDigitChars_nil, List.length_nil, Nat.add_zero]
    cases rest with
    | nil => rfl
    | cons c tail => rw [collect, if_neg (by simp [(hrest c tail rfl).1])]
  | cons c ds ih =>
    obtain ⟨hc, hds⟩ := List.forall_mem_cons.mp hdigits
    rw [Nat.ofDigitChars_cons] at hlimit
    have hnext : n * 10 + (c.toNat - 48) = 10 * n + (c.toNat - '0'.toNat) := by
      rw [Nat.mul_comm]
      rfl
    have hle : n * 10 + (c.toNat - 48) ≤ digitLimit := by
      rw [hnext]
      exact Nat.le_trans (le_ofDigitChars ds _) hlimit
    rw [List.cons_append, collect, if_pos hc]
    dsimp only
    rw [if_pos hle, hnext, ih hds _ _ hlimit, Nat.ofDigitChars_cons, List.length_cons]
    congr 2
    omega

/-- The digits of a positive number do not begin with zero. -/
theorem toDigits_eq_cons {n : Nat} (hn : 0 < n) :
    ∃ c tail, Nat.toDigits 10 n = c :: tail ∧ c ≠ '0' := by
  induction n using Nat.strongRecOn with
  | ind n ih =>
    by_cases hlt : n < 10
    · refine ⟨n.digitChar, [], Nat.toDigits_of_lt_base hlt, ?_⟩
      have hall : ∀ k < 10, 0 < k → k.digitChar ≠ '0' := by decide
      exact hall n hlt hn
    · obtain ⟨c, tail, hdigits, hc⟩ := ih (n / 10) (by omega) (by omega)
      have happend := Nat.toDigits_append_toDigits (b := 10) (n := n / 10) (d := n % 10)
        (by decide) (by omega) (by omega)
      rw [hdigits, List.cons_append, show 10 * (n / 10) + n % 10 = n by omega] at happend
      exact ⟨c, _, happend.symm, hc⟩

theorem finish_eq {rest : List Char} (hrest : EndsNumber rest) (negative : Bool) (n : Nat) :
    numberValue.finish negative n rest = .ok (integer negative n, rest) := by
  cases rest with
  | nil => rfl
  | cons c tail =>
    obtain ⟨-, hpoint, hlower, hupper⟩ := hrest c tail rfl
    rw [numberValue.finish]
    · simpa using hpoint
    · simpa using hlower
    · simpa using hupper

/-- The digits of a number are read as an integer. -/
theorem numberValue_toDigits {n : Nat} {rest : List Char} (hn : n ≤ digitLimit)
    (hrest : EndsNumber rest) (negative : Bool) :
    numberValue negative (Nat.toDigits 10 n ++ rest) = .ok (integer negative n, rest) := by
  by_cases hzero : n = 0
  · subst hzero
    rw [Nat.toDigits_of_lt_base (by decide), show Nat.digitChar 0 = '0' by decide,
      List.singleton_append]
    cases rest with
    | nil => rfl
    | cons c tail =>
      change (if c.isDigit then _ else numberValue.finish negative 0 (c :: tail)) = _
      rw [if_neg (by simp [(hrest c tail rfl).1]), finish_eq hrest]
  · obtain ⟨c, tail, hdigits, hc⟩ := toDigits_eq_cons (Nat.pos_of_ne_zero hzero)
    have hall : ∀ d ∈ c :: tail, d.isDigit = true := fun d hd =>
      Nat.isDigit_of_mem_toDigits (by decide) (by decide) (hdigits ▸ hd)
    obtain ⟨hfirst, htail⟩ := List.forall_mem_cons.mp hall
    have hvalue : Nat.ofDigitChars 10 tail (c.toNat - 48) = n := by
      have hwhole := Nat.ofDigitChars_ten_toDigits (n := n)
      rw [hdigits, Nat.ofDigitChars_cons] at hwhole
      simpa using hwhole
    have hcollect := collect_append htail hrest (c.toNat - 48) 0 (hvalue ▸ hn)
    have hnone : digits rest = ([], rest) := by
      cases rest with
      | nil => rfl
      | cons d after =>
        rw [digits, List.span_eq_takeWhile_dropWhile]
        simp [(hrest d after rfl).1]
    rw [hdigits, List.cons_append, numberValue]
    · rw [if_neg (by simp [hfirst]), hcollect, hvalue]
      dsimp only
      rw [hnone]
      exact finish_eq hrest negative n
    · exact hc

end Sandbox.Json
