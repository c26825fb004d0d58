/-!
# Reading bytes as UTF-8

A byte sequence is read one scalar at a time. Where no scalar starts, the longest prefix that could
still have begun one is skipped as a single fault, so the number of replacement characters and the
position named in an error message both follow from one definition, `head`.
-/

namespace Sandbox.Utf8

/-- What stands at the front of a byte sequence. -/
inductive Head
  /-- A scalar and the number of bytes that encode it. -/
  | scalar (c : Char) (width : Nat)
  /-- Bytes that no scalar begins with, and how many belong to this fault. -/
  | invalid (width : Nat)
  /-- The sequence ends inside a scalar. -/
  | incomplete
  deriving DecidableEq, Repr

/-- A continuation byte has the two high bits `10`. -/
def isContinuation (b : UInt8) : Bool := 0x80 ≤ b && b ≤ 0xBF

/-- The bytes that may follow the first byte of a scalar of three or four bytes: the narrower ranges
exclude overlong forms, surrogates and values above the last scalar. -/
def secondRange (first : UInt8) : UInt8 × UInt8 :=
  if first = 0xE0 then (0xA0, 0xBF)
  else if first = 0xED then (0x80, 0x9F)
  else if first = 0xF0 then (0x90, 0xBF)
  else if first = 0xF4 then (0x80, 0x8F)
  else (0x80, 0xBF)

/-- The six payload bits of a continuation byte. -/
def payload (b : UInt8) : Nat := b.toNat % 64

/-- Reads the front of the sequence that begins with `first`. -/
def head (first : UInt8) (rest : List UInt8) : Head :=
  if first < 0x80 then .scalar (Char.ofNat first.toNat) 1
  else if first < 0xC2 then .invalid 1
  else if first < 0xE0 then
    match rest with
    | [] => .incomplete
    | b :: _ =>
      if isContinuation b then .scalar (Char.ofNat (first.toNat % 32 * 64 + payload b)) 2
      else .invalid 1
  else if first < 0xF5 then
    let (low, high) := secondRange first
    match rest with
    | [] => .incomplete
    | b :: rest =>
      if b < low || high < b then .invalid 1
      else match rest with
        | [] => .incomplete
        | c :: rest =>
          if !isContinuation c then .invalid 2
          else if first < 0xF0 then
            .scalar (Char.ofNat ((first.toNat % 16 * 64 + payload b) * 64 + payload c)) 3
          else match rest with
            | [] => .incomplete
            | d :: _ =>
              if isContinuation d then
                .scalar (Char.ofNat
                  (((first.toNat % 8 * 64 + payload b) * 64 + payload c) * 64 + payload d)) 4
              else .invalid 3
  else .invalid 1

/-- The first place where a byte sequence stops being UTF-8. -/
structure Fault where
  /-- The number of bytes before the fault. -/
  index : Nat
  /-- The number of bytes that belong to the fault, or `none` where the sequence ends too early. -/
  width : Option Nat
  deriving DecidableEq, Repr

/-- The wording of a fault. -/
def Fault.message (f : Fault) : String :=
  match f.width with
  | some n => s!"invalid utf-8 sequence of {n} bytes from index {f.index}"
  | none => s!"incomplete utf-8 byte sequence from index {f.index}"

/-- The first fault of the bytes, the first of which stands at `index`. -/
def firstFault? (bytes : List UInt8) (index : Nat) : Option Fault :=
  match bytes with
  | [] => none
  | first :: rest =>
    match head first rest with
    | .scalar _ width => firstFault? (rest.drop (width - 1)) (index + width)
    | .invalid width => some ⟨index, some width⟩
    | .incomplete => some ⟨index, none⟩
  termination_by bytes.length
  decreasing_by simp only [List.length_drop, List.length_cons]; omega

/-- Decodes the bytes, with one replacement character for each fault. -/
def decodeLossy (bytes : List UInt8) : List Char :=
  match bytes with
  | [] => []
  | first :: rest =>
    match head first rest with
    | .scalar c width => c :: decodeLossy (rest.drop (width - 1))
    | .invalid width => '\uFFFD' :: decodeLossy (rest.drop (width - 1))
    | .incomplete => ['\uFFFD']
  termination_by bytes.length
  decreasing_by all_goals (simp only [List.length_drop, List.length_cons]; omega)

end Sandbox.Utf8

namespace ByteArray

/-- The text that the bytes encode, or the first fault in them. -/
def toText (bytes : ByteArray) : Except Sandbox.Utf8.Fault String :=
  match String.fromUTF8? bytes with
  | some s => .ok s
  | none => .error ((Sandbox.Utf8.firstFault? bytes.toList 0).getD ⟨0, none⟩)

/-- The text that the bytes encode, with a replacement character for each fault. -/
def toTextLossy (bytes : ByteArray) : String :=
  match String.fromUTF8? bytes with
  | some s => s
  | none => String.ofList (Sandbox.Utf8.decodeLossy bytes.toList)

theorem fromUTF8?_toByteArray (s : String) : String.fromUTF8? s.toByteArray = some s := by
  rw [String.fromUTF8?, dif_pos s.isValidUTF8]
  rfl

/-- Text is read back from its own bytes. -/
@[simp] theorem toText_toByteArray (s : String) : s.toByteArray.toText = .ok s := by
  simp [toText, fromUTF8?_toByteArray]

@[simp] theorem toTextLossy_toByteArray (s : String) : s.toByteArray.toTextLossy = s := by
  simp [toTextLossy, fromUTF8?_toByteArray]

end ByteArray
