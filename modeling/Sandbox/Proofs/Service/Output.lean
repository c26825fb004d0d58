import Sandbox.Proofs.Script.Run
import Sandbox.Session.Service

/-!
# Writing to the output

The output is taken for a write and given back, whether the write succeeds or not. Where nobody holds it,
to write is one step; where somebody does, to write is a clash.
-/

namespace Sandbox

open Script Script.Run

variable {H : Type} {m : Machine H World}

namespace Output

variable {o o' : Output} {bytes : ByteArray}

theorem write_of_sound (h : o.flaw = none) :
    o.write bytes = .ok { o with written := o.written ++ bytes } := by
  rw [write, h]

theorem write_of_flaw {flaw : String} (h : o.flaw = some flaw) : o.write bytes = .error flaw := by
  rw [write, h]

/-- A write goes to an output that is held as it goes to one that is not. -/
theorem write_held (o : Output) (bytes : ByteArray) :
    Output.write { o with isHeld := true } bytes =
      (o.write bytes).map fun o' => { o' with isHeld := true } := by
  obtain ⟨written, _ | flaw, flushFlaw, isHeld, clashes⟩ := o <;> rfl

theorem isHeld_of_write (h : o.write bytes = .ok o') : o'.isHeld = o.isHeld := by
  cases hflaw : o.flaw with
  | none =>
    rw [write_of_sound hflaw] at h
    exact Except.ok.inj h ▸ rfl
  | some flaw =>
    rw [write_of_flaw hflaw] at h
    cases h

end Output

namespace Service

theorem takeOutput_run (hfree : m.world.output.isHeld = false) :
    (takeOutput : Run H World Unit).run m = .ok () { m with world.output.isHeld := true } := by
  rw [takeOutput, bind_ok get_run, if_neg (by simp [hfree])]
  rfl

/-- An output that nobody holds is written to in one step, and nobody holds it then. -/
theorem write_run (hfree : m.world.output.isHeld = false) (bytes : ByteArray) :
    (write bytes : Run H World Unit).run m =
      match m.world.output.write bytes with
      | .ok output => .ok () { m with world.output := output }
      | .error flaw => (fail (.host flaw) : Run H World Unit).run m := by
  have hback : ({ m with world.output.isHeld := false } : Machine H World) = m := by
    rw [← hfree]
  rw [write, bind_ok (takeOutput_run hfree), bind_ok get_run]
  dsimp only
  rw [Output.write_held]
  cases hwrite : m.world.output.write bytes with
  | ok output =>
    have hoff : ({ output with isHeld := false } : Output) = output := by
      rw [← hfree, ← Output.isHeld_of_write hwrite]
    change EStateM.Result.ok () _ = _
    dsimp only
    rw [hoff]
  | error flaw => exact congrArg (fail (.host flaw) : Run H World Unit).run hback

/-- Whoever holds the output is left alone. -/
theorem write_run_of_held (hheld : m.world.output.isHeld = true) (bytes : ByteArray) :
    (write bytes : Run H World Unit).run m = (fail (.host "already borrowed") : Run H World Unit).run
      { m with world.output.clashes := m.world.output.clashes + 1 } := by
  have htake : (takeOutput : Run H World Unit).run m =
      (fail (.host "already borrowed") : Run H World Unit).run
        { m with world.output.clashes := m.world.output.clashes + 1 } := by
    rw [takeOutput, bind_ok get_run, if_pos hheld]
    rfl
  exact bind_error htake

end Service
end Sandbox
