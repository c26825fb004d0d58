/-!
# Quoted text in diagnostics

A diagnostic shows a text between double quotes. Quotes, backslashes and the common control
characters have short escapes; other characters that cannot be seen are written as their code points.
-/

namespace Sandbox.Quoted

/-- Ranges of code points that leave no mark of their own: controls, joiners and directions,
combining marks, surrogates, private and unassigned planes. -/
def unseen : List (Nat × Nat) :=
  [(0x00, 0x1F), (0x7F, 0xA0), (0xAD, 0xAD), (0x300, 0x36F), (0x483, 0x489), (0x591, 0x5BD),
    (0x600, 0x605), (0x610, 0x61A), (0x61C, 0x61C), (0x64B, 0x65F), (0x1680, 0x1680),
    (0x180B, 0x180F), (0x1AB0, 0x1ACE), (0x1DC0, 0x1DFF), (0x2000, 0x200F), (0x2028, 0x202F),
    (0x205F, 0x206F), (0x20D0, 0x20F0), (0x3000, 0x3000), (0x302A, 0x302F), (0x3099, 0x309A),
    (0xD800, 0xF8FF), (0xFE00, 0xFE0F), (0xFE20, 0xFE2F), (0xFEFF, 0xFEFF), (0xFFF0, 0xFFFB),
    (0xFFFE, 0xFFFF), (0xE0000, 0x10FFFF)]

/-- The character leaves no mark of its own. -/
def isUnseen (c : Char) : Bool := unseen.any fun (low, high) => low ≤ c.toNat && c.toNat ≤ high

/-- A character within quotes. -/
def escape (c : Char) : List Char :=
  match c with
  | '"' => ['\\', '"']
  | '\\' => ['\\', '\\']
  | '\n' => ['\\', 'n']
  | '\r' => ['\\', 'r']
  | '\t' => ['\\', 't']
  | '\x00' => ['\\', '0']
  | c =>
    if isUnseen c then '\\' :: 'u' :: '\x7b' :: Nat.toDigits 16 c.toNat ++ ['\x7d'] else [c]

end Sandbox.Quoted

/-- The text between quotes, as diagnostics show it. -/
def String.quoted (s : String) : String :=
  String.ofList ('"' :: s.toList.flatMap Sandbox.Quoted.escape ++ ['"'])
