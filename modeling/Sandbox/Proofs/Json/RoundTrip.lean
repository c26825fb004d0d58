import Sandbox.Proofs.Datum.Normal
import Sandbox.Proofs.Json.Scalar

/-!
# Reading what has been written as JSON

The text of a value is read back as the value, unless a number in floating point or something foreign
is in it, or more lists and records are inside one another than the reader allows. Items and fields are
followed behind the first of them, where a comma stands in front of each.
-/

namespace Sandbox.Json

/-- The text ends, or goes on with what may stand behind a value. -/
def EndsValue (rest : List Char) : Prop :=
  ∀ c tail, rest = c :: tail → c = ',' ∨ c = ']' ∨ c = '\x7d'

theorem EndsValue.endsNumber {rest : List Char} (h : EndsValue rest) : EndsNumber rest := by
  intro c tail heq
  rcases h c tail heq with rfl | rfl | rfl <;> decide

theorem endsValue_cons {c : Char} (h : c = ',' ∨ c = ']' ∨ c = '\x7d') (tail : List Char) :
    EndsValue (c :: tail) := by
  intro c' tail' heq
  cases heq
  exact h

/-! ## Behind the first item -/

/-- Items with a comma in front of each. -/
def charsMore : List Datum → List Char
  | [] => []
  | d :: rest => ',' :: (chars d ++ charsMore rest)

/-- Fields with a comma in front of each. -/
def charsMoreFields : List (String × Datum) → List Char
  | [] => []
  | (key, d) :: rest => ',' :: (quote key ++ ':' :: (chars d ++ charsMoreFields rest))

theorem charsItems_cons (d : Datum) (rest : List Datum) :
    charsItems (d :: rest) = chars d ++ charsMore rest := by
  induction rest generalizing d with
  | nil => rw [charsItems, charsMore, List.append_nil]
  | cons d' rest ih =>
    rw [charsItems, ih, charsMore]
    simp

theorem charsFields_cons (key : String) (d : Datum) (rest : List (String × Datum)) :
    charsFields ((key, d) :: rest) = quote key ++ ':' :: (chars d ++ charsMoreFields rest) := by
  induction rest generalizing key d with
  | nil => rw [charsFields, charsMoreFields, List.append_nil]
  | cons f rest ih =>
    obtain ⟨key', d'⟩ := f
    rw [charsFields, ih, charsMoreFields]
    · simp
    · simp

theorem endsValue_charsMore (items : List Datum) (rest : List Char) :
    EndsValue (charsMore items ++ ']' :: rest) := by
  cases items with
  | nil => exact endsValue_cons (.inr (.inl rfl)) rest
  | cons d items => exact endsValue_cons (.inl rfl) _

theorem endsValue_charsMoreFields (fields : List (String × Datum)) (rest : List Char) :
    EndsValue (charsMoreFields fields ++ '\x7d' :: rest) := by
  cases fields with
  | nil => exact endsValue_cons (.inr (.inr rfl)) rest
  | cons f fields => exact endsValue_cons (.inl rfl) _

/-! ## The first character of a value -/

/-- The character can be the first one of a value. -/
def Begins (c : Char) : Prop := isBlank c = false ∧ c ≠ ']'

theorem begins_of_isDigit {c : Char} (h : c.isDigit = true) : Begins c := by
  refine ⟨?_, ?_⟩
  · rw [isBlank]
    simp only [Bool.or_eq_false_iff, decide_eq_false_iff_not]
    refine ⟨⟨⟨?_, ?_⟩, ?_⟩, ?_⟩ <;> rintro rfl <;> revert h <;> decide
  · rintro rfl
    revert h
    decide

/-- An integer is written as a sign, perhaps, and digits. -/
theorem chars_int (n : Int64) : chars (.int n) =
    (if n.toInt < 0 then ['-'] else []) ++ Nat.toDigits 10 n.toInt.natAbs := by
  rw [chars]
  change (Int.repr n.toInt).toList = _
  cases n.toInt with
  | ofNat k => simp [Int.repr, Nat.toList_repr]
  | negSucc k =>
    rw [Int.repr, if_pos (Int.negSucc_lt_zero k), String.toList_append, Nat.toList_repr]
    rfl

theorem exists_begins_chars : ∀ d : Datum, d.FloatFree →
    ∃ c tail, chars d = c :: tail ∧ Begins c
  | .null, _ => ⟨'n', ['u', 'l', 'l'], by rw [chars]; rfl, by unfold Begins; decide⟩
  | .bool true, _ => ⟨'t', ['r', 'u', 'e'], by rw [chars]; rfl, by unfold Begins; decide⟩
  | .bool false, _ => ⟨'f', ['a', 'l', 's', 'e'], by rw [chars]; rfl, by unfold Begins; decide⟩
  | .int n, _ => by
    rw [chars_int]
    split
    · exact ⟨'-', _, rfl, by unfold Begins; decide⟩
    · obtain ⟨c, tail, hdigits⟩ := List.exists_cons_of_ne_nil
        (Nat.toDigits_ne_nil (n := n.toInt.natAbs) (b := 10))
      have hc : c.isDigit = true :=
        Nat.isDigit_of_mem_toDigits (by decide) (by decide) (hdigits ▸ List.mem_cons_self)
      exact ⟨c, tail, hdigits, begins_of_isDigit hc⟩
  | .float x, h => absurd rfl (h x)
  | .text s, _ => ⟨'"', _, by rw [chars]; rfl, by unfold Begins; decide⟩
  | .foreign type, _ => ⟨'"', _, by rw [chars]; rfl, by unfold Begins; decide⟩
  | .list items, _ => ⟨'[', _, by rw [chars]; rfl, by unfold Begins; decide⟩
  | .record fields, _ => ⟨'\x7b', _, by rw [chars]; rfl, by unfold Begins; decide⟩

/-! ## Scalars -/

theorem reads_digits {depth n : Nat} {rest : List Char} (hn : n ≤ digitLimit)
    (hrest : EndsNumber rest) :
    Reads (value depth (Nat.toDigits 10 n ++ rest)) (integer false n) rest := by
  obtain ⟨c, tail, hdigits⟩ := List.exists_cons_of_ne_nil (Nat.toDigits_ne_nil (n := n) (b := 10))
  have hc : c.isDigit = true :=
    Nat.isDigit_of_mem_toDigits (by decide) (by decide) (hdigits ▸ List.mem_cons_self)
  have hnumber := numberValue_toDigits hn hrest false
  rw [hdigits, List.cons_append] at hnumber ⊢
  have hlt : rest.length < (c :: (tail ++ rest)).length := by
    simp only [List.length_cons, List.length_append]
    omega
  refine ⟨hlt, ?_⟩
  rw [value, afterBlanks_cons _ (begins_of_isDigit hc).1]
  dsimp only
  split
  case h_8 =>
    rw [if_pos hc, hnumber]
    exact dif_pos hlt
  all_goals exact absurd hc (by decide)

theorem reads_negative {depth n : Nat} {rest : List Char} (hn : n ≤ digitLimit)
    (hrest : EndsNumber rest) :
    Reads (value depth ('-' :: (Nat.toDigits 10 n ++ rest))) (integer true n) rest := by
  have hlt : rest.length < ('-' :: (Nat.toDigits 10 n ++ rest)).length := by
    simp only [List.length_cons, List.length_append]
    omega
  refine ⟨hlt, ?_⟩
  rw [value, afterBlanks_cons _ (by decide)]
  dsimp only
  rw [numberValue_toDigits hn hrest true]
  exact dif_pos hlt

/-- An integer is read as itself. -/
theorem reads_int (n : Int64) {depth : Nat} {rest : List Char} (hrest : EndsNumber rest) :
    Reads (value depth (chars (.int n) ++ rest)) (.int n) rest := by
  have hlow := n.le_toInt
  have hhigh := n.toInt_lt
  have hlimit : n.toInt.natAbs ≤ digitLimit := by
    unfold digitLimit
    omega
  rw [chars_int]
  by_cases hneg : n.toInt < 0
  · have hinteger : integer true n.toInt.natAbs = .int n := by
      have hsame : -(n.toInt.natAbs : Int) = n.toInt := by omega
      rw [integer, if_pos rfl, if_neg (by simp; omega), hsame, Int64.ofInt_toInt]
    rw [if_pos hneg]
    exact hinteger ▸ reads_negative hlimit hrest
  · have hinteger : integer false n.toInt.natAbs = .int n := by
      have hmax : Int64.maxValue.toInt.toNat = 2 ^ 63 - 1 := by decide
      have hsame : (n.toInt.natAbs : Int) = n.toInt := by omega
      rw [integer, if_neg (by decide), Datum.ofNat, if_pos (by omega), ← Int64.ofInt_eq_ofNat, hsame,
        Int64.ofInt_toInt]
    rw [if_neg hneg]
    exact hinteger ▸ reads_digits hlimit hrest

/-- A string is read as itself. -/
theorem reads_text (s : String) (depth : Nat) (rest : List Char) :
    Reads (value depth (quote s ++ rest)) (.text s) rest := by
  obtain ⟨hlt, hbody⟩ := reads_quote s rest
  have hquote : quote s ++ rest = '"' :: (s.toList.flatMap escape ++ '"' :: rest) := by
    simp [quote]
  rw [hquote]
  refine ⟨Nat.lt_succ_of_lt hlt, ?_⟩
  rw [value, afterBlanks_cons _ (by decide)]
  dsimp only
  rw [hbody]
  rfl

/-- A word is read up to its end. -/
theorem word_append (letters rest : List Char) : word letters (letters ++ rest) = .ok rest := by
  induction letters with
  | nil => rw [List.nil_append, word]
  | cons c letters ih => rw [List.cons_append, word, if_pos rfl, ih]

theorem Reads.of_word {depth : Nat} {s rest : List Char} {d : Datum} {letters : List Char} {c : Char}
    (hvalue : value depth (c :: s) = (word letters s).bind fun r => Json.shorten (c :: s) (d, r))
    (hword : word letters s = .ok rest) : Reads (value depth (c :: s)) d rest := by
  have hlt := Nat.lt_succ_of_le (length_of_word hword)
  refine ⟨hlt, ?_⟩
  rw [hvalue, hword]
  exact dif_pos hlt

theorem reads_null (depth : Nat) (rest : List Char) :
    Reads (value depth ('n' :: 'u' :: 'l' :: 'l' :: rest)) .null rest := by
  refine .of_word ?_ (word_append ['u', 'l', 'l'] rest)
  rw [value, afterBlanks_cons _ (by decide)]
  rfl

theorem reads_true (depth : Nat) (rest : List Char) :
    Reads (value depth ('t' :: 'r' :: 'u' :: 'e' :: rest)) (.bool true) rest := by
  refine .of_word ?_ (word_append ['r', 'u', 'e'] rest)
  rw [value, afterBlanks_cons _ (by decide)]
  rfl

theorem reads_false (depth : Nat) (rest : List Char) :
    Reads (value depth ('f' :: 'a' :: 'l' :: 's' :: 'e' :: rest)) (.bool false) rest := by
  refine .of_word ?_ (word_append ['a', 'l', 's', 'e'] rest)
  rw [value, afterBlanks_cons _ (by decide)]
  rfl

/-! ## Lists and records -/

/-- Where a value has been read, more items are read with it in front of them. -/
theorem Reads.items_more {depth : Nat} {s after rest : List Char} {d : Datum} {acc all : List Datum}
    {c : Char} {tail : List Char} (hs : s = c :: tail) (hbegins : Begins c)
    (hvalue : Reads (value depth s) d after)
    (hmore : Reads (items depth after false (d :: acc)) all rest) :
    Reads (items depth (',' :: s) false acc) all rest := by
  obtain ⟨hlt, hvalue⟩ := hvalue
  obtain ⟨hlt', hmore⟩ := hmore
  refine ⟨by simp only [List.length_cons]; omega, ?_⟩
  rw [items, afterBlanks_cons _ (by decide)]
  dsimp only
  rw [if_neg (by decide), if_neg (by decide), if_pos rfl]
  subst hs
  rw [skipBlanks_cons tail hbegins.1]
  split
  · rename_i heq
    cases heq
  · rename_i heq
    exact absurd (List.cons.inj heq).1 hbegins.2
  · rw [hvalue]
    dsimp only
    rw [hmore]

theorem Reads.items_first {depth : Nat} {s after rest : List Char} {d : Datum} {all : List Datum}
    {c : Char} {tail : List Char} (hs : s = c :: tail) (hbegins : Begins c)
    (hvalue : Reads (value depth s) d after)
    (hmore : Reads (items depth after false [d]) all rest) :
    Reads (items depth s true []) all rest := by
  obtain ⟨hlt, hvalue⟩ := hvalue
  obtain ⟨hlt', hmore⟩ := hmore
  refine ⟨by omega, ?_⟩
  subst hs
  rw [items, afterBlanks_cons _ hbegins.1]
  dsimp only
  rw [if_neg hbegins.2, if_pos rfl, hvalue]
  dsimp only
  rw [hmore]

theorem reads_items_end (depth : Nat) (first : Bool) (acc : List Datum) (rest : List Char) :
    Reads (items depth (']' :: rest) first acc) acc.reverse rest := by
  refine ⟨Nat.lt_succ_self _, ?_⟩
  rw [items, afterBlanks_cons _ (by decide)]
  rfl

/-- A field is a key and a value with a colon between them. -/
theorem Reads.field {depth : Nat} {s rest : List Char} {d : Datum} (key : String)
    (acc : List (String × Datum)) (hvalue : Reads (value depth s) d rest) :
    Reads (field depth (key.toList.flatMap escape ++ '"' :: ':' :: s) acc) (Named.insert key d acc)
      rest := by
  obtain ⟨hlt, hkey⟩ := reads_quote key (':' :: s)
  obtain ⟨hlt', hvalue⟩ := hvalue
  refine ⟨by simp only [List.length_cons] at hlt; omega, ?_⟩
  rw [Json.field, hkey]
  dsimp only
  rw [afterBlanks_cons _ (by decide)]
  simp only [hvalue]

theorem Reads.fields_more {depth : Nat} {s after rest : List Char}
    {acc acc' all : List (String × Datum)} (hfield : Reads (Json.field depth s acc) acc' after)
    (hmore : Reads (fields depth after false acc') all rest) :
    Reads (fields depth (',' :: '"' :: s) false acc) all rest := by
  obtain ⟨hlt, hfield⟩ := hfield
  obtain ⟨hlt', hmore⟩ := hmore
  refine ⟨by simp only [List.length_cons]; omega, ?_⟩
  rw [fields, afterBlanks_cons _ (by decide)]
  dsimp only
  rw [if_neg (by decide), if_neg (by decide), if_pos rfl, afterBlanks_cons _ (by decide)]
  simp only [hfield, hmore]

theorem Reads.fields_first {depth : Nat} {s after rest : List Char}
    {acc acc' all : List (String × Datum)} (hfield : Reads (Json.field depth s acc) acc' after)
    (hmore : Reads (fields depth after false acc') all rest) :
    Reads (fields depth ('"' :: s) true acc) all rest := by
  obtain ⟨hlt, hfield⟩ := hfield
  obtain ⟨hlt', hmore⟩ := hmore
  refine ⟨by simp only [List.length_cons]; omega, ?_⟩
  rw [fields, afterBlanks_cons _ (by decide)]
  dsimp only
  rw [if_neg (by decide), if_pos rfl, if_pos rfl, hfield]
  dsimp only
  rw [hmore]

theorem reads_fields_end (depth : Nat) (first : Bool) (acc : List (String × Datum))
    (rest : List Char) : Reads (fields depth ('\x7d' :: rest) first acc) acc rest := by
  refine ⟨Nat.lt_succ_self _, ?_⟩
  rw [fields, afterBlanks_cons _ (by decide)]
  rfl

theorem Reads.list {depth : Nat} {s rest : List Char} {all : List Datum} (hdepth : 1 < depth)
    (h : Reads (items (depth - 1) s true []) all rest) :
    Reads (value depth ('[' :: s)) (.list all) rest := by
  obtain ⟨hlt, h⟩ := h
  refine ⟨Nat.lt_succ_of_lt hlt, ?_⟩
  rw [value, afterBlanks_cons _ (by decide)]
  dsimp only
  rw [if_neg (by omega), h]
  rfl

theorem Reads.record {depth : Nat} {s rest : List Char} {all : List (String × Datum)}
    (hdepth : 1 < depth) (h : Reads (fields (depth - 1) s true []) all rest) :
    Reads (value depth ('\x7b' :: s)) (.record all) rest := by
  obtain ⟨hlt, h⟩ := h
  refine ⟨Nat.lt_succ_of_lt hlt, ?_⟩
  rw [value, afterBlanks_cons _ (by decide)]
  dsimp only
  rw [if_neg (by omega), if_neg (by omega), h]
  rfl

/-! ## Values -/

mutual
/-- What is written for a value is read as the value. -/
theorem reads_value : ∀ (d : Datum) (depth : Nat) (rest : List Char), d.WellFormed → d.Native →
    d.FloatFree → d.depth < depth → EndsValue rest → Reads (value depth (chars d ++ rest)) d rest
  | .null, depth, rest, _, _, _, _, _ => by
    have htext : chars .null = ['n', 'u', 'l', 'l'] := by rw [chars]; decide
    exact htext ▸ reads_null depth rest
  | .bool true, depth, rest, _, _, _, _, _ => by
    have htext : chars (.bool true) = ['t', 'r', 'u', 'e'] := by rw [chars]; decide
    exact htext ▸ reads_true depth rest
  | .bool false, depth, rest, _, _, _, _, _ => by
    have htext : chars (.bool false) = ['f', 'a', 'l', 's', 'e'] := by rw [chars]; decide
    exact htext ▸ reads_false depth rest
  | .int n, depth, rest, _, _, _, _, hrest => reads_int n hrest.endsNumber
  | .float x, _, _, _, _, hfloat, _, _ => absurd rfl (hfloat x)
  | .foreign type, _, _, _, hnative, _, _, _ => absurd rfl (hnative type)
  | .text s, depth, rest, _, _, _, _, _ => by
    rw [chars]
    exact reads_text s depth rest
  | .list [], depth, rest, _, _, _, hdepth, _ => by
    rw [Datum.depth] at hdepth
    have h := reads_items_end (depth - 1) true [] rest
    rw [chars, charsItems]
    exact h.list (by omega)
  | .list (d :: items), depth, rest, hform, hnative, hfloat, hdepth, _ => by
    rw [Datum.depth, Datum.depthItems] at hdepth
    obtain ⟨c, tail, hc, hbegins⟩ := exists_begins_chars d hfloat.2.1
    have hvalue := reads_value d (depth - 1) (charsMore items ++ ']' :: rest) hform.1 hnative.2.1
      hfloat.2.1 (by omega) (endsValue_charsMore items rest)
    have hmore := reads_items items (depth - 1) [d] rest hform.2 hnative.2.2 hfloat.2.2 (by omega)
    have h := Reads.items_first (by rw [hc, List.cons_append]) hbegins hvalue hmore
    have htext : '[' :: (chars d ++ (charsMore items ++ ']' :: rest)) =
        chars (.list (d :: items)) ++ rest := by
      rw [chars, charsItems_cons]
      simp
    exact htext ▸ h.list (by omega)
  | .record [], depth, rest, _, _, _, hdepth, _ => by
    rw [Datum.depth] at hdepth
    have h := reads_fields_end (depth - 1) true [] rest
    rw [chars, charsFields]
    exact h.record (by omega)
  | .record ((key, d) :: fields), depth, rest, hform, hnative, hfloat, hdepth, _ => by
    rw [Datum.depth, Datum.depthFields] at hdepth
    have hvalue := reads_value d (depth - 1) (charsMoreFields fields ++ '\x7d' :: rest) hform.2.1
      hnative.2.1 hfloat.2.1 (by omega) (endsValue_charsMoreFields fields rest)
    have hmore := reads_fields fields (depth - 1) (Named.insert key d []) rest hform.2.2 hnative.2.2
      hfloat.2.2 (by omega)
    have h := Reads.fields_first (hvalue.field key []) hmore
    -- the fields are in order already, so they are put just where they stand
    have hsorted : Named.insertAll (Named.insert key d []) fields = (key, d) :: fields :=
      Named.ofList_eq_of_perm (.refl _) (List.pairwise_map.mp hform.1)
    rw [hsorted] at h
    have htext : '\x7b' :: '"' :: (key.toList.flatMap escape ++
        '"' :: ':' :: (chars d ++ (charsMoreFields fields ++ '\x7d' :: rest))) =
          chars (.record ((key, d) :: fields)) ++ rest := by
      rw [chars, charsFields_cons, quote]
      simp
    exact htext ▸ h.record (by omega)

/-- Items behind other ones are read up to the bracket. -/
theorem reads_items : ∀ (items : List Datum) (depth : Nat) (acc : List Datum) (rest : List Char),
    Datum.WellFormedItems items → Datum.EverywhereItems Datum.NotForeign items →
    Datum.EverywhereItems Datum.NotFloat items → Datum.depthItems items < depth →
    Reads (Json.items depth (charsMore items ++ ']' :: rest) false acc) (acc.reverse ++ items) rest
  | [], depth, acc, rest, _, _, _, _ => by
    rw [List.append_nil]
    exact reads_items_end depth false acc rest
  | d :: items, depth, acc, rest, hform, hnative, hfloat, hdepth => by
    rw [Datum.depthItems] at hdepth
    obtain ⟨c, tail, hc, hbegins⟩ := exists_begins_chars d hfloat.1
    have hvalue := reads_value d depth (charsMore items ++ ']' :: rest) hform.1 hnative.1 hfloat.1
      (by omega) (endsValue_charsMore items rest)
    have hmore := reads_items items depth (d :: acc) rest hform.2 hnative.2 hfloat.2 (by omega)
    rw [List.reverse_cons, List.append_assoc, List.singleton_append] at hmore
    have h := Reads.items_more (by rw [hc, List.cons_append]) hbegins hvalue hmore
    have htext : ',' :: (chars d ++ (charsMore items ++ ']' :: rest)) =
        charsMore (d :: items) ++ ']' :: rest := by
      rw [charsMore]
      simp
    exact htext ▸ h

/-- Fields behind other ones are read up to the brace. -/
theorem reads_fields : ∀ (fields : List (String × Datum)) (depth : Nat)
    (acc : List (String × Datum)) (rest : List Char), Datum.WellFormedFields fields →
    Datum.EverywhereFields Datum.NotForeign fields →
    Datum.EverywhereFields Datum.NotFloat fields → Datum.depthFields fields < depth →
    Reads (Json.fields depth (charsMoreFields fields ++ '\x7d' :: rest) false acc)
      (Named.insertAll acc fields) rest
  | [], depth, acc, rest, _, _, _, _ => reads_fields_end depth false acc rest
  | (key, d) :: fields, depth, acc, rest, hform, hnative, hfloat, hdepth => by
    rw [Datum.depthFields] at hdepth
    have hvalue := reads_value d depth (charsMoreFields fields ++ '\x7d' :: rest) hform.1 hnative.1
      hfloat.1 (by omega) (endsValue_charsMoreFields fields rest)
    have hmore := reads_fields fields depth (Named.insert key d acc) rest hform.2 hnative.2 hfloat.2
      (by omega)
    have h := Reads.fields_more (hvalue.field key acc) hmore
    have htext : ',' :: '"' :: (key.toList.flatMap escape ++
        '"' :: ':' :: (chars d ++ (charsMoreFields fields ++ '\x7d' :: rest))) =
          charsMoreFields ((key, d) :: fields) ++ '\x7d' :: rest := by
      rw [charsMoreFields, quote]
      simp
    exact htext ▸ h
end

/-- A value without numbers in floating point is read back from its text, as far as the reader goes. -/
theorem parse_render (d : Datum) (hform : d.WellFormed) (hnative : d.Native) (hfloat : d.FloatFree)
    (hdepth : d.depth < depthLimit) : parse (render d) = .ok d := by
  have hends : EndsValue [] := fun c tail heq => nomatch heq
  obtain ⟨hlt, hvalue⟩ := reads_value d depthLimit [] hform hnative hfloat hdepth hends
  have htext : (render d).toList = chars d ++ [] := by
    rw [render, String.toList_ofList, List.append_nil]
  rw [parse]
  dsimp only
  rw [htext, hvalue]
  rfl

end Sandbox.Json
