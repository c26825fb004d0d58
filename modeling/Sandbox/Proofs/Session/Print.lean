import Sandbox.Proofs.Service.Print
import Sandbox.Proofs.Within.Module
import Sandbox.Proofs.Within.Session

/-!
# Lines that sessions print

Whatever scripts do, the output grows by whole lines of prints that have gathered their texts, and by
nothing else. So what is printed while a print gathers its texts is in front of its own line, and a print
that fails adds nothing. Nobody holds the output but for a single write, and no print ever finds it held.
-/

namespace Sandbox

open Script Script.Run

/-- The output with more lines. -/
def Output.withLines (o : Output) (lines : List (List ByteArray)) : Output :=
  { o with written := lines.foldl (fun written texts => written ++ Service.line texts) o.written }

@[simp] theorem Output.withLines_nil (o : Output) : o.withLines [] = o := rfl

theorem Output.withLines_append (o : Output) (lines more : List (List ByteArray)) :
    o.withLines (lines ++ more) = (o.withLines lines).withLines more := by
  simp [withLines]

namespace Session

variable {E : Type} {extension : Extension E} {m m' : Machine (Service E) World}
  {lines more : List (List ByteArray)}

/-- The output grows by lines, one after the other. Each is the line of a print of the session, to
whatever depth it may call on, and is written when the print has gathered its texts. -/
inductive Prints (extension : Extension E) :
    Machine (Service E) World → List (List ByteArray) → Machine (Service E) World → Prop
  | quiet {m m' : Machine (Service E) World} (h : m'.world.output = m.world.output) :
      Prints extension m [] m'
  | line {depth : Nat} {values : List Value} {texts : List ByteArray}
      {start m : Machine (Service E) World}
      (h : Service.GathersTexts ((engine extension).call depth) values start texts m) :
      Prints extension m [texts] (m.printed texts)
  | append {a b c : Machine (Service E) World} {lines more : List (List ByteArray)}
      (h : Prints extension a lines b) (hmore : Prints extension b more c) :
      Prints extension a (lines ++ more) c

theorem Prints.output_eq (h : Prints extension m lines m') :
    m'.world.output = m.world.output.withLines lines := by
  induction h with
  | quiet h => exact h
  | line h => rfl
  | append _ _ ih ihmore => rw [ihmore, ih, Output.withLines_append]

/-- From a machine whose output is free, nothing happens to the output but that it grows by lines. -/
def OnlyPrints (extension : Extension E) (m m' : Machine (Service E) World) : Prop :=
  m.world.output.isHeld = false → ∃ lines, Prints extension m lines m'

theorem OnlyPrints.free (h : OnlyPrints extension m m') (hfree : m.world.output.isHeld = false) :
    m'.world.output.isHeld = false := by
  obtain ⟨lines, hlines⟩ := h hfree
  rw [hlines.output_eq]
  exact hfree

theorem OnlyPrints.of_same (h : m'.world.output = m.world.output) : OnlyPrints extension m m' :=
  fun _ => ⟨[], .quiet h⟩

theorem noting_onlyPrints : Noting (OnlyPrints extension) where
  refl _ := .of_same rfl
  trans := by
    intro a b c hab hbc hfree
    obtain ⟨lines, hlines⟩ := hab hfree
    obtain ⟨more, hmore⟩ := hbc (hab.free hfree)
    exact ⟨lines ++ more, hlines.append hmore⟩
  table _ _ _ _ := .of_same rfl
  newTable _ _ _ := .of_same rfl
  function _ _ := .of_same rfl
  locals _ _ := .of_same rfl
  fault _ _ := .of_same rfl
  others _ _ := .of_same rfl
  frames _ _ := .of_same rfl
  input _ _ := .of_same rfl
  log _ _ _ _ := .of_same rfl
  note _ _ := .of_same rfl

section Print

variable {depth : Nat} (hcalls : Calls (OnlyPrints extension) ((engine extension).call depth))

include hcalls

/-- A print adds its line behind those that its calls have printed, or fails and adds nothing to them. -/
theorem printLine_prints (hfree : m.world.output.isHeld = false) (values : List Value) :
    (∃ texts m₁ lines, Service.GathersTexts ((engine extension).call depth) values m texts m₁ ∧
      Prints extension m lines m₁ ∧
      (Service.printLine ((engine extension).call depth) values).run m =
        match m.world.output.flaw with
        | none => .ok [] (m₁.printed texts)
        | some flaw => (fail (.host flaw) : Run (Service E) World (List Value)).run m₁) ∨
    ∃ m₁ lines stop m', Service.FallsShort ((engine extension).call depth) values m m₁ ∧
      Prints extension m lines m₁ ∧
      (Service.printLine ((engine extension).call depth) values).run m = .error stop m' ∧
      m'.world = m₁.world := by
  have hP := (noting_onlyPrints : Noting (OnlyPrints extension)).toPermissive
  obtain ⟨texts, m₁, hgathers, hfree₁, hrun⟩ | ⟨m₁, stop, m', hfails, hrun, hworld⟩ :=
    Service.printLine_cases hP hcalls OnlyPrints.free hfree values
  · obtain ⟨lines, hlines⟩ := hgathers.within hP hcalls hfree
    refine .inl ⟨texts, m₁, lines, hgathers, hlines, ?_⟩
    have hflaw : m₁.world.output.flaw = m.world.output.flaw := by
      rw [hlines.output_eq]
      rfl
    have hwrite := Service.write_line_run hfree₁ texts
    rw [hflaw] at hwrite
    rw [hrun]
    cases hopen : m.world.output.flaw with
    | none =>
      rw [hopen] at hwrite
      exact bind_ok hwrite
    | some flaw =>
      rw [hopen] at hwrite
      exact bind_error hwrite
  · obtain ⟨lines, hlines⟩ := hfails.within hP hcalls hfree
    exact .inr ⟨m₁, lines, stop, m', hfails, hlines, hrun, hworld⟩

theorem printLine_within (values : List Value) :
    Within (OnlyPrints extension) (Service.printLine ((engine extension).call depth) values) := by
  intro m hfree
  obtain ⟨texts, m₁, lines, hgathers, hlines, hrun⟩ | ⟨m₁, lines, stop, m', -, hlines, hrun, hworld⟩ :=
    printLine_prints hcalls hfree values
  · unfold left
    rw [hrun]
    cases m.world.output.flaw with
    | none => exact ⟨lines ++ [texts], hlines.append (.line hgathers)⟩
    | some flaw => exact ⟨lines ++ [], hlines.append (.quiet rfl)⟩
  · unfold left
    rw [hrun]
    exact ⟨lines ++ [], hlines.append (.quiet (by rw [hworld]))⟩

end Print

/-- Whatever is called in a session, to whatever depth it may call on, does nothing to the output but to
print lines. -/
theorem call_prints (extension : Extension E) (depth : Nat) :
    Calls (OnlyPrints extension) ((engine extension).call depth) :=
  call_within noting_onlyPrints.toServing extension (fun _ hcalls => printLine_within hcalls)
    (fun hinvoke tables _ => Module.require_within noting_onlyPrints hinvoke tables) depth

/-- All that a host does with a session leaves the output alone but for lines that are printed. -/
theorem operations_print (extension : Extension E) (ops : List (Operation E))
    (m : Machine (Service E) World) :
    OnlyPrints extension m (ops.foldl (Operation.left extension) m) := by
  have hR := (noting_onlyPrints : Noting (OnlyPrints extension)).toServing
  induction ops generalizing m with
  | nil => exact hR.refl m
  | cons op ops ih =>
    exact hR.trans (op.left_within hR (call_prints extension Engine.depthLimit) m)
      (ih (op.left extension m))

/-- A print that returns has written one line, of the texts that the function in force makes of its
values, behind the lines of the prints in between. A print that does not return has failed over a value or
over the function, and has written nothing of its own. In between, whatever is called finds the output
free, and nobody ever finds it held: not in a single call, and not over the life of a session. -/
theorem print_line_or_nothing (extension : Extension E) (hfree : m.world.output.isHeld = false) :
    (∀ depth values, m.world.output.flaw = none →
      match (Service.run extension ((engine extension).call depth) .print values).run m with
      | .ok results m' => results = [] ∧ ∃ texts m₁ lines,
          Service.GathersTexts ((engine extension).call depth) values m texts m₁ ∧
          Prints extension m lines m₁ ∧ m' = m₁.printed texts ∧
          m'.world.output = m.world.output.withLines (lines ++ [texts])
      | .error _ m' => ∃ m₁ lines, Service.FallsShort ((engine extension).call depth) values m m₁ ∧
          Prints extension m lines m₁ ∧ m'.world = m₁.world ∧
          m'.world.output = m.world.output.withLines lines) ∧
    (∀ depth site f arguments, ∃ lines,
      Prints extension m lines (left ((engine extension).call depth site f arguments) m) ∧
      (left ((engine extension).call depth site f arguments) m).world.output =
        m.world.output.withLines lines) ∧
    ∀ ops : List (Operation E), ∃ lines,
      Prints extension m lines (ops.foldl (Operation.left extension) m) ∧
      (ops.foldl (Operation.left extension) m).world.output = m.world.output.withLines lines := by
  refine ⟨fun depth values hopen => ?_, fun depth site f arguments => ?_, fun ops => ?_⟩
  · have hcalls := call_prints extension depth
    change (match (Service.printLine ((engine extension).call depth) values).run m with
      | .ok _ _ => _
      | .error _ _ => _)
    obtain ⟨texts, m₁, lines, hgathers, hlines, hrun⟩ |
      ⟨m₁, lines, stop, m', hfails, hlines, hrun, hworld⟩ := printLine_prints hcalls hfree values
    · rw [hopen] at hrun
      rw [hrun]
      exact ⟨rfl, texts, m₁, lines, hgathers, hlines, rfl, (hlines.append (.line hgathers)).output_eq⟩
    · rw [hrun]
      exact ⟨m₁, lines, hfails, hlines, hworld, by rw [hworld, hlines.output_eq]⟩
  · obtain ⟨lines, hlines⟩ := (call_prints extension depth).within site f arguments m hfree
    exact ⟨lines, hlines, hlines.output_eq⟩
  · obtain ⟨lines, hlines⟩ := operations_print extension ops m hfree
    exact ⟨lines, hlines, hlines.output_eq⟩

/-- A script after which the function that makes texts of values prints itself. -/
def chatty : String :=
  "local plain = tostring\n" ++
  "tostring = function(v)\n" ++
  "  tostring = plain\n" ++
  "  print('about', v)\n" ++
  "  return '<' .. v .. '>'\n" ++
  "end\n"

/-- An extension that adds nothing. -/
def noExtras : Extension Empty := nofun

/-- The machine of a session that has run this script. -/
def chattyStart : Machine (Service Empty) World :=
  [.setUp SearchPath.standard [] [], .exec "=chatty" chatty].foldl (Operation.left noExtras)
    (.fresh { storage := {}, store := .memory 0 })

/-- A print of two texts there. -/
def chattyPrint : Run (Service Empty) World (List Value) :=
  Service.run noExtras ((engine noExtras).call 9) .print [.text "a".toUTF8, .text "b".toUTF8]

/-- What is in the output after a run that returns. -/
def written? {α : Type} : EStateM.Result Stop (Machine (Service Empty) World) α → Option ByteArray
  | .ok _ m => some m.world.output.written
  | .error _ _ => none

/-- What is printed about each of the values is in front of the line of both. -/
theorem print_line_or_nothing_of_chatty :
    chattyStart.world.output.isHeld = false ∧ chattyStart.world.output.flaw = none ∧
      ∃ m' texts m₁ lines, chattyPrint.run chattyStart = .ok [] m' ∧
        Service.GathersTexts ((engine noExtras).call 9) [.text "a".toUTF8, .text "b".toUTF8] chattyStart
          texts m₁ ∧
        Prints noExtras chattyStart lines m₁ ∧
        m'.world.output = chattyStart.world.output.withLines (lines ++ [texts]) ∧
        m'.world.output.written = "about\ta\nabout\tb\n<a>\t<b>\n".toUTF8 := by
  obtain ⟨hfree, hopen, hwritten⟩ : chattyStart.world.output.isHeld = false ∧
      chattyStart.world.output.flaw = none ∧
      written? (chattyPrint.run chattyStart) = some "about\ta\nabout\tb\n<a>\t<b>\n".toUTF8 := by
    decide +kernel
  have hcases := (print_line_or_nothing noExtras hfree).1 9 [.text "a".toUTF8, .text "b".toUTF8] hopen
  cases hrun : chattyPrint.run chattyStart with
  | error stop m' =>
    rw [hrun] at hwritten
    cases hwritten
  | ok results m' =>
    rw [hrun] at hwritten
    unfold chattyPrint at hrun
    rw [hrun] at hcases
    obtain ⟨rfl, texts, m₁, lines, hgathers, hlines, -, houtput⟩ := hcases
    exact ⟨hfree, hopen, m', texts, m₁, lines, rfl, hgathers, hlines, houtput,
      Option.some.inj hwritten⟩

end Session
end Sandbox
