import Mathlib.Data.List.TakeWhile
import Sandbox.Proofs.Chunk.Refusal

/-!
# Lines of sources

A source loses its byte order mark, and a first line that begins with `#` is emptied. `KeepsLines` says what
this leaves of a source line by line, without reference to how it is done: all lines behind the first one
keep their numbers. Just one text keeps the lines of a source in this sense, and it is the text that the
compiler gets.
-/

namespace Sandbox.Chunk

variable {bytes source text other l l' : List UInt8}

/-! ## Lines -/

/-- The lines of a text, which are separated by line feeds. -/
def lines (bytes : List UInt8) : List (List UInt8) := bytes.splitOn 0x0A

/-- The line with a number, where the first line has the number one. -/
def line? (bytes : List UInt8) (number : Nat) : Option (List UInt8) :=
  match number with
  | 0 => none
  | k + 1 => (lines bytes)[k]?

/-- The bytes in front of the first line feed. -/
def firstLine (bytes : List UInt8) : List UInt8 := bytes.takeWhile (· ≠ 0x0A)

/-- The bytes behind the first line, with the line feed that ends it. -/
def behindFirst (bytes : List UInt8) : List UInt8 := bytes.dropWhile (· ≠ 0x0A)

theorem firstLine_append_behindFirst (bytes : List UInt8) :
    firstLine bytes ++ behindFirst bytes = bytes := List.takeWhile_append_dropWhile

theorem not_mem_firstLine (bytes : List UInt8) : 0x0A ∉ firstLine bytes := by
  intro h
  simpa using List.mem_takeWhile_imp h

/-- Behind the first line there is nothing, or a line feed and other lines. -/
theorem behindFirst_cases (bytes : List UInt8) :
    (0x0A ∉ bytes ∧ behindFirst bytes = []) ∨
      (0x0A ∈ bytes ∧ ∃ rest, behindFirst bytes = 0x0A :: rest) := by
  have hall := firstLine_append_behindFirst bytes
  cases h : behindFirst bytes with
  | nil =>
    left
    rw [h, List.append_nil] at hall
    rw [← hall]
    exact ⟨not_mem_firstLine bytes, rfl⟩
  | cons b rest =>
    right
    have hb := List.head?_dropWhile_not (fun b : UInt8 => decide (b ≠ 0x0A)) bytes
    rw [show bytes.dropWhile (fun b => decide (b ≠ 0x0A)) = b :: rest from h] at hb
    obtain rfl : b = 0x0A := by simpa using hb
    rw [← hall, h]
    exact ⟨by simp, rest, rfl⟩

/-- The lines behind the first one are those of what is behind it. -/
theorem lines_eq (bytes : List UInt8) :
    lines bytes = firstLine bytes :: (lines (behindFirst bytes)).tail := by
  have hall := firstLine_append_behindFirst bytes
  obtain ⟨hmem, hbehind⟩ | ⟨-, rest, hbehind⟩ := behindFirst_cases bytes
  · rw [hbehind, List.append_nil] at hall
    rw [hall, hbehind, lines, List.splitOn_eq_singleton hmem]
    rfl
  · rw [hbehind] at hall
    have hrest : lines (0x0A :: rest) = [] :: lines rest :=
      List.splitOn_append_cons_self_of_not_mem (List.not_mem_nil) rest
    rw [hbehind, hrest, List.tail_cons]
    conv_lhs => rw [← hall, lines]
    exact List.splitOn_append_cons_self_of_not_mem (not_mem_firstLine bytes) rest

theorem line?_one (bytes : List UInt8) : line? bytes 1 = some (firstLine bytes) := by
  rw [line?, lines_eq]
  rfl

/-- The lines behind the first one depend on what is behind it alone. -/
theorem line?_congr (h : behindFirst source = behindFirst text) {k : Nat} (hk : 2 ≤ k) :
    line? source k = line? text k := by
  obtain ⟨k, rfl⟩ := Nat.exists_eq_add_of_le' hk
  rw [line?, line?, lines_eq source, lines_eq text, h, List.getElem?_cons_succ,
    List.getElem?_cons_succ]

theorem head?_firstLine {b : UInt8} (hb : b ≠ 0x0A) :
    (firstLine bytes).head? = some b ↔ bytes.head? = some b := by
  cases bytes with
  | nil => exact Iff.rfl
  | cons a rest =>
    by_cases ha : a = 0x0A
    · subst ha
      simp [firstLine, hb.symm]
    · simp [firstLine, ha]

/-! ## Marks -/

/-- The second text is the first one without a byte order mark at its start, if there is one. -/
inductive Unmarked : List UInt8 → List UInt8 → Prop
  | marked (l : List UInt8) : Unmarked (byteOrderMark ++ l) l
  | plain {l : List UInt8} (h : ¬ byteOrderMark <+: l) : Unmarked l l

theorem unmarked_withoutMark (bytes : List UInt8) : Unmarked bytes (withoutMark bytes) := by
  unfold withoutMark
  split
  case isTrue h =>
    obtain ⟨l, rfl⟩ := List.isPrefixOf_iff_prefix.mp h
    exact .marked l
  case isFalse h => exact .plain fun hmark => h (List.isPrefixOf_iff_prefix.mpr hmark)

theorem Unmarked.unique (h : Unmarked bytes l) (h' : Unmarked bytes l') : l = l' := by
  cases h with
  | marked =>
    generalize hbytes : byteOrderMark ++ l = bytes at h'
    cases h' with
    | marked => exact List.append_cancel_left hbytes
    | plain h => exact absurd ⟨l, hbytes⟩ h
  | plain h =>
    cases h' with
    | marked => exact absurd (List.prefix_append _ _) h
    | plain => rfl

/-- A mark is within the first line. -/
theorem Unmarked.firstLine (h : Unmarked bytes l) : Unmarked (firstLine bytes) (firstLine l) := by
  cases h with
  | marked => exact .marked _
  | plain h =>
    refine .plain fun hmark => h (hmark.trans ?_)
    exact List.takeWhile_prefix _

theorem Unmarked.behindFirst (h : Unmarked bytes l) : behindFirst bytes = behindFirst l := by
  cases h with
  | marked => rfl
  | plain => rfl

theorem Unmarked.mem_lineFeed (h : Unmarked bytes l) : 0x0A ∈ bytes ↔ 0x0A ∈ l := by
  cases h with
  | marked => simp [byteOrderMark]
  | plain => exact Iff.rfl

/-! ## What is left of the lines -/

/-- There is one line only, and it begins with `#` if a mark in front of that is left out. -/
def IsLone (source : List UInt8) : Prop :=
  0x0A ∉ source ∧ ∃ l, Unmarked source l ∧ l.head? = some 0x23

/-- The lines of the source stand in the text under their numbers, except that the first line has no mark,
and is empty where it begins with `#` without the mark. -/
structure KeepsLines (source text : List UInt8) : Prop where
  /-- Every line behind the first one stands where it has been. -/
  line : ∀ k ≥ 2, ∀ l, line? source k = some l → line? text k = some l
  /-- The first line has lost a mark, or all that is in it. -/
  first : ∃ l l', line? source 1 = some l ∧ Unmarked l l' ∧
    line? text 1 = some (if l'.head? = some 0x23 then [] else l')
  /-- The text does not begin with `#`. -/
  head : text.head? ≠ some 0x23
  /-- Behind the first line no byte is added, missing or another one. -/
  behind : ¬ IsLone source → behindFirst text = behindFirst source
  /-- There are as many lines as before. -/
  size : ¬ IsLone source → (lines text).length = (lines source).length
  /-- One line alone that begins with `#` leaves a line feed. -/
  lone : IsLone source → text = [0x0A]

/-- The first line that a source leaves is known. -/
theorem KeepsLines.firstLine_eq (h : KeepsLines source text) (hmark : Unmarked source l) :
    firstLine text = if (firstLine l).head? = some 0x23 then [] else firstLine l := by
  obtain ⟨first, l', hfirst, hmark', htext⟩ := h.first
  rw [line?_one] at hfirst htext
  obtain rfl := Option.some.inj hfirst
  obtain rfl := hmark'.unique hmark.firstLine
  exact Option.some.inj htext

/-- No other text keeps the lines of a source. -/
theorem KeepsLines.unique (h : KeepsLines source text) (h' : KeepsLines source other) :
    text = other := by
  by_cases hlone : IsLone source
  · rw [h.lone hlone, h'.lone hlone]
  · have hmark := unmarked_withoutMark source
    rw [← firstLine_append_behindFirst text, ← firstLine_append_behindFirst other,
      h.firstLine_eq hmark, h'.firstLine_eq hmark, h.behind hlone, h'.behind hlone]

/-- It is enough that the first line is what it should be and that the rest is as before. -/
theorem KeepsLines.of_behindFirst (hmark : Unmarked source l)
    (hfirst : Chunk.firstLine text = if l.head? = some 0x23 then [] else Chunk.firstLine l)
    (hbehind : Chunk.behindFirst text = Chunk.behindFirst source) (hlone : ¬ IsLone source) :
    KeepsLines source text where
  line k hk _ hline := (line?_congr hbehind hk).trans hline
  first := by
    refine ⟨_, _, line?_one source, hmark.firstLine, ?_⟩
    rw [line?_one, hfirst]
    simp only [head?_firstLine (show (0x23 : UInt8) ≠ 0x0A by decide)]
  head := by
    rw [ne_eq, ← head?_firstLine (by decide), hfirst]
    split
    case isTrue => exact nofun
    case isFalse h => rwa [head?_firstLine (by decide)]
  behind _ := hbehind
  size _ := by rw [lines_eq text, lines_eq source, hbehind, List.length_cons, List.length_cons]
  lone h := absurd h hlone

/-- One line alone that begins with `#` is emptied. -/
theorem keepsLines_of_isLone (h : IsLone source) : KeepsLines source [0x0A] where
  line k hk l hline := by
    have hsource : lines source = [source] := List.splitOn_eq_singleton h.1
    obtain ⟨k, rfl⟩ := Nat.exists_eq_add_of_le' hk
    rw [line?, hsource] at hline
    cases hline
  first := by
    obtain ⟨-, l, hmark, hhead⟩ := h
    refine ⟨_, _, line?_one source, hmark.firstLine, ?_⟩
    rw [if_pos ((head?_firstLine (by decide)).mpr hhead)]
    rfl
  head := by decide
  behind hlone := absurd h hlone
  size hlone := absurd h hlone
  lone _ := rfl

/-- Where the first line begins with `#`, what is behind it is left, or a line feed if that is nothing. -/
theorem withoutPreambleLine_of_head (h : bytes.head? = some 0x23) :
    (0x0A ∉ bytes ∧ withoutPreambleLine bytes = [0x0A]) ∨
      (0x0A ∈ bytes ∧ ∃ rest, behindFirst bytes = 0x0A :: rest ∧
        withoutPreambleLine bytes = 0x0A :: rest) := by
  have hbytes : withoutPreambleLine bytes = 0x0A :: (behindFirst bytes).drop 1 := if_pos h
  obtain ⟨hmem, hbehind⟩ | ⟨hmem, rest, hbehind⟩ := behindFirst_cases bytes
  · left
    rw [hbytes, hbehind]
    exact ⟨hmem, rfl⟩
  · right
    rw [hbytes, hbehind]
    exact ⟨hmem, rest, rfl, rfl⟩

/-- What the compiler gets of a source keeps the lines of the source. -/
theorem keepsLines_stripPreamble (source : ByteArray) :
    KeepsLines source.toList (stripPreamble source).toList := by
  rw [toList_stripPreamble]
  have hmark := unmarked_withoutMark source.toList
  generalize withoutMark source.toList = l at hmark
  by_cases hhead : l.head? = some 0x23
  · obtain ⟨hmem, htext⟩ | ⟨hmem, rest, hbehind, htext⟩ := withoutPreambleLine_of_head hhead
    · rw [htext]
      exact keepsLines_of_isLone ⟨mt hmark.mem_lineFeed.mp hmem, l, hmark, hhead⟩
    · rw [htext]
      refine .of_behindFirst hmark ?_ ?_ fun hlone => hlone.1 (hmark.mem_lineFeed.mpr hmem)
      · -- the text begins with the line feed that ends the first line
        rw [if_pos hhead]
        rfl
      · rw [hmark.behindFirst, hbehind]
        rfl
  · rw [withoutPreambleLine, if_neg hhead]
    refine .of_behindFirst hmark (if_neg hhead).symm hmark.behindFirst.symm ?_
    rintro ⟨-, l', hmark', hhead'⟩
    obtain rfl := hmark.unique hmark'
    exact hhead hhead'

/-- A text keeps the lines of a source exactly if it is what the compiler gets of it. -/
theorem keepsLines_iff {source text : ByteArray} :
    KeepsLines source.toList text.toList ↔ text = stripPreamble source := by
  constructor
  · intro h
    exact toList_injective (h.unique (keepsLines_stripPreamble source))
  · rintro rfl
    exact keepsLines_stripPreamble source

/-- Behind a mark, one line alone leaves a line feed, and a second mark stays where it is. -/
example : stripPreamble ⟨#[0xEF, 0xBB, 0xBF, 0x23]⟩ = ⟨#[0x0A]⟩ ∧
    stripPreamble ⟨#[0xEF, 0xBB, 0xBF, 0xEF, 0xBB, 0xBF, 0x23]⟩ = ⟨#[0xEF, 0xBB, 0xBF, 0x23]⟩ := by
  decide +kernel

end Sandbox.Chunk
