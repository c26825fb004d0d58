import Sandbox.Proofs.Service.Output
import Sandbox.Proofs.Within.Operation

/-!
# Printing

A print looks up the function that makes texts of values, calls it for one value after the other, and
writes one line when it has all the texts. `Service.GathersTexts` follows a print up to that point and
`Service.FallsShort` one that does not come so far. What is called on the way may do whatever it likes,
but it is only ever called while nobody holds the output.
-/

namespace Sandbox

open Script Script.Run

variable {H : Type}

/-- The machine with one more line in the output. -/
def Script.Machine.printed (m : Machine H World) (texts : List ByteArray) : Machine H World :=
  { m with world.output.written := m.world.output.written ++ Service.line texts }

namespace Service

variable {invoke : Invoke H World} {f v : Value} {m m' : Machine H World} {values : List Value}
  {texts : List ByteArray}

/-- A line is its texts in order with a tab between two of them, and a line feed behind them. -/
theorem toList_line (texts : List ByteArray) : (line texts).data.toList =
    [0x09].intercalate (texts.map fun s => s.data.toList) ++ [0x0a] := by
  have hfeed : "\n".toUTF8.data.toList = [0x0a] := rfl
  have htab : "\t".toUTF8.data.toList = [0x09] := rfl
  fun_induction line texts with
  | case1 => exact hfeed
  | case2 s =>
    rw [ByteArray.data_append, Array.toList_append, hfeed]
    simp [List.intercalate]
  | case3 s rest hrest ih =>
    obtain ⟨t, rest, rfl⟩ := List.exists_cons_of_ne_nil hrest
    simp only [ByteArray.data_append, Array.toList_append, ih, htab]
    simp [List.intercalate]

/-- A line is written as one block, unless the output cannot be written to. -/
theorem write_line_run (hfree : m.world.output.isHeld = false) (texts : List ByteArray) :
    (write (line texts) : Run H World Unit).run m =
      match m.world.output.flaw with
      | none => .ok () (m.printed texts)
      | some flaw => (fail (.host flaw) : Run H World Unit).run m := by
  rw [write_run hfree]
  cases hflaw : m.world.output.flaw with
  | none =>
    rw [Output.write_of_sound hflaw]
    rfl
  | some flaw => rw [Output.write_of_flaw hflaw]

/-! ## Texts of values -/

/-- The function makes texts of values, one call after the other, and each call finds the output free. -/
inductive TextsBy (invoke : Invoke H World) (f : Value) :
    Machine H World → List Value → List ByteArray → Machine H World → Prop
  | nil {m : Machine H World} (hfree : m.world.output.isHeld = false) : TextsBy invoke f m [] [] m
  | cons {m m₁ m' : Machine H World} {v : Value} {values results : List Value} {text : ByteArray}
      {texts : List ByteArray} (hfree : m.world.output.isHeld = false)
      (hcall : (callGuarded invoke f [v]).run m = .ok (.ok results) m₁)
      (htext : results.headD .nil = .text text) (hrest : TextsBy invoke f m₁ values texts m') :
      TextsBy invoke f m (v :: values) (text :: texts) m'

/-- The function makes no text of a value: the call does not end, or it raises an error, or its result is
something else. -/
inductive DeniesText (invoke : Invoke H World) (f v : Value) (m : Machine H World) :
    Machine H World → Prop
  | endless {stop : Stop} {m' : Machine H World}
      (hcall : (callGuarded invoke f [v]).run m = .error stop m') : DeniesText invoke f v m m'
  | raises {fault : Fault} {m' : Machine H World}
      (hcall : (callGuarded invoke f [v]).run m = .ok (.error fault) m') : DeniesText invoke f v m m'
  | noText {results : List Value} {m' : Machine H World}
      (hcall : (callGuarded invoke f [v]).run m = .ok (.ok results) m')
      (hno : ∀ text, results.headD .nil ≠ .text text) : DeniesText invoke f v m m'

theorem TextsBy.free_left (h : TextsBy invoke f m values texts m') :
    m'.world.output.isHeld = false := by
  induction h with
  | nil hfree => exact hfree
  | cons _ _ _ _ ih => exact ih

/-- Either the function makes a text of a value, or it refuses to and the print adds a fault at most. -/
theorem textBy_cases (invoke : Invoke H World) (f v : Value) (m : Machine H World) :
    (∃ results text m₁, (callGuarded invoke f [v]).run m = .ok (.ok results) m₁ ∧
      results.headD .nil = .text text ∧ (textBy invoke f v).run m = .ok text m₁) ∨
    ∃ m₁ stop m', DeniesText invoke f v m m₁ ∧ (textBy invoke f v).run m = .error stop m' ∧
      m'.world = m₁.world := by
  cases hcall : (callGuarded invoke f [v]).run m with
  | error stop m₁ => exact .inr ⟨m₁, stop, m₁, .endless hcall, bind_error hcall, rfl⟩
  | ok r m₁ =>
    cases r with
    | error fault => exact .inr ⟨m₁, _, _, .raises hcall, bind_ok hcall, rfl⟩
    | ok results =>
      have hresults : (orFail (.ok results) : Run H World (List Value)).run m₁ = .ok results m₁ := rfl
      rw [textBy, bind_ok hcall, bind_ok hresults]
      cases hhead : results.headD .nil
      case text s => exact .inl ⟨results, s, m₁, rfl, hhead, rfl⟩
      all_goals
        have hno (text : ByteArray) : results.headD .nil ≠ .text text := by
          rw [hhead]
          intro heq
          cases heq
        exact .inr ⟨m₁, _, _, .noText hcall hno, rfl, rfl⟩

/-! ## The course of a print -/

/-- A print finds the function that makes texts of values and has the texts of all its values. -/
def GathersTexts (invoke : Invoke H World) (values : List Value) (m : Machine H World)
    (texts : List ByteArray) (m' : Machine H World) : Prop :=
  ∃ id m₁, (hostField invoke m.globals "tostring").run m = .ok (.function id) m₁ ∧
    TextsBy invoke (.function id) m₁ values texts m'

/-- A print does not come to write its line: the function that makes texts of values cannot be had, or is
no function, or refuses one of the values after it has made texts of those before. The second machine is
what the last call on the way has left. -/
inductive FallsShort (invoke : Invoke H World) (values : List Value) (m : Machine H World) :
    Machine H World → Prop
  | lookup {stop : Stop} {m' : Machine H World}
      (hfield : (hostField invoke m.globals "tostring").run m = .error stop m') :
      FallsShort invoke values m m'
  | noFunction {v : Value} {m' : Machine H World}
      (hfield : (hostField invoke m.globals "tostring").run m = .ok v m')
      (hno : ∀ id, v ≠ .function id) : FallsShort invoke values m m'
  | refusal {id : Nat} {before after : List Value} {v : Value} {texts : List ByteArray}
      {m₁ m₂ m' : Machine H World}
      (hfield : (hostField invoke m.globals "tostring").run m = .ok (.function id) m₁)
      (hvalues : values = before ++ v :: after)
      (htexts : TextsBy invoke (.function id) m₁ before texts m₂)
      (hdenies : DeniesText invoke (.function id) v m₂ m') : FallsShort invoke values m m'

section Within

variable {R : Machine H World → Machine H World → Prop} (hR : Permissive R) (hinvoke : Calls R invoke)

include hR hinvoke

theorem TextsBy.within (h : TextsBy invoke f m values texts m') : R m m' := by
  induction h with
  | nil => exact hR.refl _
  | cons _ hcall _ _ ih => exact hR.trans ((callGuarded_within hR hinvoke _ _).of_ok hcall) ih

theorem DeniesText.within (h : DeniesText invoke f v m m') : R m m' := by
  have hcalls := callGuarded_within hR hinvoke f [v]
  cases h with
  | endless hcall => exact hcalls.of_error hcall
  | raises hcall => exact hcalls.of_ok hcall
  | noText hcall => exact hcalls.of_ok hcall

/-- Up to its line, a print does what is called on the way. -/
theorem GathersTexts.within (h : GathersTexts invoke values m texts m') : R m m' := by
  obtain ⟨id, m₁, hfield, htexts⟩ := h
  exact hR.trans ((hostField_within hR hinvoke _ _).of_ok hfield) (htexts.within hR hinvoke)

theorem FallsShort.within (h : FallsShort invoke values m m') : R m m' := by
  have hfields := hostField_within hR hinvoke m.globals "tostring"
  cases h with
  | lookup hfield => exact hfields.of_error hfield
  | noFunction hfield => exact hfields.of_ok hfield
  | refusal hfield _ htexts hdenies =>
    exact hR.trans (hfields.of_ok hfield)
      (hR.trans (htexts.within hR hinvoke) (hdenies.within hR hinvoke))

variable (hkeeps : ∀ {a b : Machine H World}, R a b → a.world.output.isHeld = false →
  b.world.output.isHeld = false)

include hkeeps

/-- Either there are texts of all values, or the function refuses one of them. -/
theorem mapM_textBy_cases (hfree : m.world.output.isHeld = false) (f : Value) (values : List Value) :
    (∃ texts m', TextsBy invoke f m values texts m' ∧
      (values.mapM (textBy invoke f)).run m = .ok texts m') ∨
    ∃ before v after texts m₁ m₂ stop m', values = before ++ v :: after ∧
      TextsBy invoke f m before texts m₁ ∧ DeniesText invoke f v m₁ m₂ ∧
      (values.mapM (textBy invoke f)).run m = .error stop m' ∧ m'.world = m₂.world := by
  induction values generalizing m with
  | nil => exact .inl ⟨[], m, .nil hfree, rfl⟩
  | cons v rest ih =>
    rw [List.mapM_cons]
    obtain ⟨results, text, m₁, hcall, htext, hrun⟩ | ⟨m₁, stop, m', hdenies, hrun, hworld⟩ :=
      textBy_cases invoke f v m
    case inr =>
      exact .inr ⟨[], v, rest, [], m, m₁, stop, m', rfl, .nil hfree, hdenies, bind_error hrun, hworld⟩
    have hfree₁ := hkeeps ((callGuarded_within hR hinvoke f [v]).of_ok hcall) hfree
    rw [bind_ok hrun]
    obtain ⟨texts, m', htexts, hrest⟩ |
      ⟨before, w, after, texts, m₂, m₃, stop, m', hvalues, htexts, hdenies, hrest, hworld⟩ := ih hfree₁
    · exact .inl ⟨text :: texts, m', .cons hfree hcall htext htexts, bind_ok hrest⟩
    · exact .inr ⟨v :: before, w, after, text :: texts, m₂, m₃, stop, m', by rw [hvalues]; rfl,
        .cons hfree hcall htext htexts, hdenies, bind_error hrest, hworld⟩

/-- A print either gathers its texts and goes on to write their line, or fails before that. -/
theorem printLine_cases (hfree : m.world.output.isHeld = false) (values : List Value) :
    (∃ texts m', GathersTexts invoke values m texts m' ∧ m'.world.output.isHeld = false ∧
      (printLine invoke values).run m = (do write (line texts); return []).run m') ∨
    ∃ m₁ stop m', FallsShort invoke values m m₁ ∧ (printLine invoke values).run m = .error stop m' ∧
      m'.world = m₁.world := by
  have hfields := hostField_within hR hinvoke m.globals "tostring"
  rw [printLine, bind_ok get_run]
  cases hfield : (hostField invoke m.globals "tostring").run m with
  | error stop m₁ => exact .inr ⟨m₁, stop, m₁, .lookup hfield, bind_error hfield, rfl⟩
  | ok v m₁ =>
    rw [bind_ok hfield]
    cases v
    case function id =>
      have hfunction : (orFail (Value.function id).toHostFunction : Run H World Value).run m₁ =
          .ok (.function id) m₁ := rfl
      rw [bind_ok hfunction]
      obtain ⟨texts, m', htexts, hrun⟩ |
        ⟨before, w, after, texts, m₂, m₃, stop, m', hvalues, htexts, hdenies, hrun, hworld⟩ :=
        mapM_textBy_cases hR hinvoke hkeeps (hkeeps (hfields.of_ok hfield) hfree) (.function id) values
      · exact .inl ⟨texts, m', ⟨id, m₁, hfield, htexts⟩, htexts.free_left, bind_ok hrun⟩
      · exact .inr ⟨m₃, stop, m', .refusal hfield hvalues htexts hdenies, bind_error hrun, hworld⟩
    all_goals exact .inr ⟨m₁, _, _, .noFunction hfield (by simp), rfl, rfl⟩

end Within

end Service
end Sandbox
