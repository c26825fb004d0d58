import Mathlib.Data.List.Basic
import Sandbox.Chunk.Compile
import Sandbox.Chunk.Source

/-!
# Precompiled chunks in disguise

In the mode for texts nothing compiles that begins with an escape byte. A precompiled chunk may be put
behind byte order marks and a line that begins with `#`: `Disguised` says so of a source. Such a source does
not compile either, whether it is taken as it is or without its preamble.
-/

namespace Sandbox

open Script

/-! ## Bytes -/

theorem toList_loop (bytes : ByteArray) (i : Nat) (acc : List UInt8) :
    ByteArray.toList.loop bytes i acc = acc.reverse ++ bytes.data.toList.drop i := by
  fun_induction ByteArray.toList.loop bytes i acc with
  | case1 i acc h ih =>
    have hlt : i < bytes.data.toList.length := by simpa using h
    have hget : bytes.get! i = bytes.data.toList[i] := by
      rw [ByteArray.get!, getElem!_pos bytes.data i h, Array.getElem_toList]
    rw [ih, List.drop_eq_getElem_cons hlt, hget, List.reverse_cons, List.append_assoc]
    rfl
  | case2 i acc h =>
    rw [List.drop_of_length_le (by simpa using Nat.le_of_not_lt h), List.append_nil]

theorem toList_eq (bytes : ByteArray) : bytes.toList = bytes.data.toList := toList_loop bytes 0 []

theorem length_toList (bytes : ByteArray) : bytes.toList.length = bytes.size := by
  rw [toList_eq]
  exact Array.length_toList

theorem toList_injective {a b : ByteArray} (h : a.toList = b.toList) : a = b := by
  rw [toList_eq, toList_eq] at h
  exact ByteArray.ext (Array.ext' h)

namespace Script

/-! ## Sources that begin with a foreign byte -/

namespace Lexer

/-- Tokens that have been read stay. -/
theorem exists_lexemes_tokens (fuel : Nat) (s : List UInt8) (line : Nat) (acc : List Lexeme) :
    ∃ more, (tokens fuel s line acc).lexemes = acc.reverse ++ more := by
  induction fuel generalizing s line acc with
  | zero => exact ⟨[], by simp [tokens]⟩
  | succ fuel ih =>
    have hdone (ending : Except Flaw Nat) :
        ∃ more, (⟨acc.reverse, ending⟩ : Tokens).lexemes = acc.reverse ++ more := ⟨[], by simp⟩
    unfold tokens
    split
    · exact hdone _
    · split
      · exact ih _ _ _
      · split
        · exact ih _ _ _
        · split
          · split
            · exact ih _ _ _
            · exact hdone _
          · split
            case h_1 lexeme rest _ =>
              obtain ⟨more, hmore⟩ := ih rest lexeme.line (lexeme :: acc)
              exact ⟨lexeme :: more, by simp [hmore]⟩
            case h_2 => exact hdone _

/-- A token that no statement begins with. -/
def isForeign : Token → Bool
  | .stray _ => true
  | .mark s => s == "#"
  | _ => false

/-- A byte that begins such a token. -/
def isForeignByte (b : UInt8) : Bool := b == 0x1B || b == 0xEF || b == 0x23

/-- No other mark than `#` begins with such a byte. -/
theorem marks_foreign : ∀ m ∈ marks, bytesOf m ≠ [] ∧
    ∀ b ∈ (bytesOf m).head?, isForeignByte b = true → m = "#" := by
  decide +kernel

theorem isForeign_mark {b : UInt8} (hb : isForeignByte b = true) (rest : List UInt8) (line : Nat) :
    isForeign ((mark (b :: rest) line).getD (stray b line, rest)).1.token = true := by
  unfold mark
  cases hfind : marks.find? fun m => (bytesOf m).isPrefixOf (b :: rest) with
  | none => rfl
  | some m =>
    have hmem := List.mem_of_find?_eq_some hfind
    have hfound : (bytesOf m).isPrefixOf (b :: rest) = true := by simpa using List.find?_some hfind
    obtain ⟨more, hprefix⟩ := List.isPrefixOf_iff_prefix.mp hfound
    obtain ⟨hne, hforeign⟩ := marks_foreign m hmem
    obtain ⟨a, as, hbytes⟩ := List.exists_cons_of_ne_nil hne
    rw [hbytes, List.cons_append, List.cons.injEq] at hprefix
    have hm := hforeign b (by simp [hbytes, hprefix.1]) hb
    simp [isForeign, hm]

/-- A foreign byte begins the first token. -/
theorem exists_foreign {b : UInt8} (hb : isForeignByte b = true) (fuel : Nat) (rest : List UInt8)
    (line : Nat) : ∃ l more, isForeign l.token = true ∧
      (tokens (fuel + 1) (b :: rest) line []).lexemes = l :: more := by
  have htokens : tokens (fuel + 1) (b :: rest) line [] =
      tokens fuel ((mark (b :: rest) line).getD (stray b line, rest)).2
        ((mark (b :: rest) line).getD (stray b line, rest)).1.line
        [((mark (b :: rest) line).getD (stray b line, rest)).1] := by
    have hbyte : b = 0x1B ∨ b = 0xEF ∨ b = 0x23 := by
      simpa [isForeignByte, or_assoc] using hb
    obtain rfl | rfl | rfl := hbyte <;> rfl
  obtain ⟨more, hmore⟩ := exists_lexemes_tokens fuel ((mark (b :: rest) line).getD (stray b line, rest)).2
    ((mark (b :: rest) line).getD (stray b line, rest)).1.line
    [((mark (b :: rest) line).getD (stray b line, rest)).1]
  exact ⟨_, more, isForeign_mark hb rest line, by rw [htokens, hmore]; rfl⟩

end Lexer

namespace Parser

/-- Where a statement would have to begin, a foreign token is a flaw. -/
theorem chunk_run_foreign (fuel : Nat) {s : State} {l : Lexeme} {more : List Lexeme}
    (hl : Lexer.isForeign l.token = true) (hrest : s.rest = l :: more) (hnesting : s.nesting = 0) :
    ∃ s', (chunk (fuel + 8)).run s = .error ⟨l.line, .unexpectedSymbol, some l.shown⟩ s' := by
  obtain ⟨_, ending, lastLine, locals, scopes, level, isVariadic, nesting⟩ := s
  obtain ⟨token, line, shown⟩ := l
  subst hrest hnesting
  cases token with
  | stray b => exact ⟨_, rfl⟩
  | mark m =>
    obtain rfl : m = "#" := by simpa [Lexer.isForeign] using hl
    exact ⟨_, rfl⟩
  | _ => cases hl

end Parser

/-- A text whose first token is foreign is no chunk. -/
theorem Function.parse_foreign {source : ByteArray} {l : Lexeme} {more : List Lexeme}
    (hl : Lexer.isForeign l.token = true) (htokens : (Tokens.ofBytes source).lexemes = l :: more) :
    Function.parse source = .error ⟨l.line, .unexpectedSymbol, some l.shown⟩ := by
  let start : Parser.State :=
    { rest := (Tokens.ofBytes source).lexemes, ending := (Tokens.ofBytes source).ending
      locals := [⟨environmentName, false, 0⟩] }
  have hfuel : Parser.fuelFor (Tokens.ofBytes source) =
      (16 * (more.length + 1) + 24) + 8 := by
    simp only [Parser.fuelFor, htokens, List.length_cons]
    omega
  obtain ⟨s', hrun⟩ := Parser.chunk_run_foreign (16 * (more.length + 1) + 24) (s := start) hl htokens rfl
  unfold Function.parse
  dsimp only
  rw [hfuel, hrun]

end Script

namespace Chunk

/-! ## Refused sources -/

/-- The source does not compile in the mode for texts, which is an ordinary refusal of its grammar. -/
def Refused (source : ByteArray) : Prop :=
  ∀ name, ∃ refusal, compile name textMode source = .error refusal ∧
    refusal.fault = .grammar refusal.message

/-- What may be in front of a precompiled chunk to hide it: byte order marks, and a line that begins
with `#`. -/
inductive Preamble : List UInt8 → Prop
  | empty : Preamble []
  | line {text : List UInt8} (h : 0x0A ∉ text) : Preamble (0x23 :: text ++ [0x0A])
  | mark {preamble : List UInt8} (h : Preamble preamble) : Preamble (byteOrderMark ++ preamble)

/-- The source is a precompiled chunk, which may be hidden. -/
def Disguised (source : ByteArray) : Prop :=
  ∃ preamble rest, Preamble preamble ∧ source.toList = preamble ++ escapeByte :: rest

theorem refused_of_isBinary {source : ByteArray} (h : isBinary source = true) : Refused source := by
  intro name
  refine ⟨.kind true textMode, ?_, rfl⟩
  rw [compile, if_pos h]
  rfl

theorem refused_of_foreign {source : ByteArray} {l : Lexeme} {more : List Lexeme}
    (hl : Lexer.isForeign l.token = true) (htokens : (Tokens.ofBytes source).lexemes = l :: more) :
    Refused source := by
  by_cases hbinary : isBinary source = true
  · exact refused_of_isBinary hbinary
  · intro name
    refine ⟨.flawed (displayName name) ⟨l.line, .unexpectedSymbol, some l.shown⟩, ?_, rfl⟩
    rw [compile, if_neg hbinary, Function.parse_foreign hl htokens]
    rfl

/-- A source is refused that begins with a foreign byte, or does so on its second line. -/
theorem refused_of_foreignByte {source : ByteArray} {b : UInt8} (hb : Lexer.isForeignByte b = true)
    {rest : List UInt8} (h : source.toList = b :: rest ∨ source.toList = 0x0A :: b :: rest) :
    Refused source := by
  have hsize := length_toList source
  obtain h | h := h
  · obtain ⟨l, more, hl, hlexemes⟩ := Lexer.exists_foreign hb source.size rest 1
    exact refused_of_foreign hl (by rw [Tokens.ofBytes, h, hlexemes])
  · obtain ⟨n, hn⟩ : ∃ n, source.size = n + 1 := ⟨rest.length + 1, by rw [← hsize, h]; rfl⟩
    obtain ⟨l, more, hl, hlexemes⟩ := Lexer.exists_foreign hb n rest 2
    have hbreak : Lexer.tokens (n + 1 + 1) (0x0A :: b :: rest) 1 [] =
        Lexer.tokens (n + 1) (b :: rest) 2 [] := by
      have hbyte : b = 0x1B ∨ b = 0xEF ∨ b = 0x23 := by
        simpa [Lexer.isForeignByte, or_assoc] using hb
      obtain rfl | rfl | rfl := hbyte <;> rfl
    exact refused_of_foreign hl (by rw [Tokens.ofBytes, h, hn, hbreak, hlexemes])

/-! ## Preambles -/

theorem toList_stripPreamble (source : ByteArray) :
    (stripPreamble source).toList = withoutPreambleLine (withoutMark source.toList) := by
  unfold stripPreamble
  split
  case isTrue => rw [toList_eq]
  case isFalse h =>
    have hdata := toList_eq source
    cases hbytes : source.toList with
    | nil => rfl
    | cons b rest =>
      rw [hbytes] at hdata
      have hlt : 0 < source.data.size := by rw [← Array.length_toList, ← hdata]; simp
      have hfirst : source.get! 0 = b := by
        rw [ByteArray.get!, getElem!_pos source.data 0 hlt, ← Array.getElem_toList]
        simp [← hdata]
      have hplain : b ≠ 0xEF ∧ b ≠ 0x23 := by
        simpa [hfirst, show 0 < source.size from hlt] using h
      have hmark : withoutMark (b :: rest) = b :: rest := by
        simp [withoutMark, byteOrderMark, List.isPrefixOf, hplain.1.symm]
      rw [hmark, withoutPreambleLine, if_neg (by simpa using hplain.2)]

variable {preamble rest : List UInt8}

theorem Preamble.exists_foreign (h : Preamble preamble) (rest : List UInt8) :
    ∃ b more, Lexer.isForeignByte b = true ∧ preamble ++ escapeByte :: rest = b :: more := by
  cases h with
  | empty => exact ⟨_, _, rfl, rfl⟩
  | line h => exact ⟨_, _, rfl, rfl⟩
  | mark h => exact ⟨_, _, rfl, rfl⟩

theorem Preamble.withoutMark (h : Preamble preamble) (rest : List UInt8) :
    ∃ left, Preamble left ∧ withoutMark (preamble ++ escapeByte :: rest) = left ++ escapeByte :: rest := by
  cases h with
  | empty => exact ⟨_, .empty, rfl⟩
  | line h => exact ⟨_, .line h, rfl⟩
  | mark h => exact ⟨_, h, rfl⟩

theorem Preamble.withoutPreambleLine (h : Preamble preamble) (rest : List UInt8) :
    ∃ b more, Lexer.isForeignByte b = true ∧
      (withoutPreambleLine (preamble ++ escapeByte :: rest) = b :: more ∨
        withoutPreambleLine (preamble ++ escapeByte :: rest) = 0x0A :: b :: more) := by
  cases h with
  | empty => exact ⟨_, _, rfl, .inl rfl⟩
  | @line text h =>
    refine ⟨escapeByte, rest, rfl, .inr (congrArg (0x0A :: ·) ?_)⟩
    have hline : ∀ b ∈ 0x23 :: text, (decide (b ≠ 0x0A)) = true := by
      intro b hb
      obtain rfl | hb := List.mem_cons.mp hb
      · rfl
      · exact decide_eq_true fun heq => h (heq ▸ hb)
    rw [withoutFirstLine, List.append_assoc, List.dropWhile_append_of_pos hline]
    rfl
  | mark h => exact ⟨_, _, rfl, .inl rfl⟩

/-- What begins with an escape byte, or does so without its preamble, is a precompiled chunk. -/
theorem disguised_of_isBinary {source : ByteArray}
    (h : isBinary source = true ∨ isBinary (stripPreamble source) = true) : Disguised source := by
  have hfirst {bytes : List UInt8} (h : (bytes.head? == some escapeByte) = true) :
      ∃ rest, bytes = escapeByte :: rest := List.head?_eq_some_iff.mp (beq_iff_eq.mp h)
  obtain h | h := h
  · obtain ⟨rest, hsource⟩ := hfirst h
    exact ⟨[], rest, .empty, hsource⟩
  · obtain ⟨rest, hstripped⟩ := hfirst h
    rw [toList_stripPreamble] at hstripped
    -- an emptied line would be in front of the escape byte
    have hmark : withoutMark source.toList = escapeByte :: rest := by
      unfold Chunk.withoutPreambleLine at hstripped
      split at hstripped
      · cases hstripped
      · exact hstripped
    unfold Chunk.withoutMark at hmark
    split at hmark
    case isTrue hprefix =>
      obtain ⟨more, hmore⟩ := List.isPrefixOf_iff_prefix.mp hprefix
      rw [← hmore] at hmark
      exact ⟨_, rest, .mark .empty, by rw [← hmore, List.append_nil]; exact congrArg _ hmark⟩
    case isFalse => exact ⟨[], rest, .empty, hmark⟩

/-- A precompiled chunk is refused, whether its preamble is there still or not. -/
theorem Disguised.refused {source : ByteArray} (h : Disguised source) :
    Refused source ∧ Refused (stripPreamble source) := by
  obtain ⟨preamble, rest, hpreamble, hsource⟩ := h
  constructor
  · obtain ⟨b, more, hb, hbytes⟩ := hpreamble.exists_foreign rest
    exact refused_of_foreignByte hb (.inl (hsource.trans hbytes))
  · obtain ⟨left, hleft, hmark⟩ := hpreamble.withoutMark rest
    obtain ⟨b, more, hb, hbytes⟩ := hleft.withoutPreambleLine rest
    rw [← hmark, ← hsource, ← toList_stripPreamble] at hbytes
    exact refused_of_foreignByte hb hbytes

end Chunk

end Sandbox
