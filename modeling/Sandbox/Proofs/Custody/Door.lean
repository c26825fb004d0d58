import Sandbox.Proofs.Chunk.Refusal
import Sandbox.Proofs.Custody.Session

/-!
# The function that hands on

A call of the function that hands on is a call of the loader with the mode for texts and otherwise the same
arguments, in a frame of its own. So a source that does not compile is no function here either: the answer,
if there is one, is nil and the reason.
-/

namespace Sandbox.Script

open Chunk Run

variable {H W : Type} {α β : Type} {c : Custody} {m m' : Machine H W} {invoke : Invoke H W}
  {source : ByteArray} {arguments : List Value}

/-! ## The loader -/

/-- A value is a source, or a function that yields one piece by piece. -/
inductive Yields (invoke : Invoke H W) (m : Machine H W) :
    Value → ByteArray → Machine H W → Prop
  | text {v : Value} {source : ByteArray} (h : Numeral.text? v = some source) :
    Yields invoke m v source m
  | pieces {id : Nat} {source : ByteArray} {m' : Machine H W}
      (h : (readPieces invoke (.function id)).run m = .ok source m') :
    Yields invoke m (.function id) source m'

/-- A value names a chunk, or leaves it without a name. -/
def Value.isName (v : Value) : Bool := v.isNil || (Numeral.text? v).isSome

namespace Run

/-- The run does not end well. -/
def Fails (act : Run H W α) : Prop := ∀ m a m', act.run m ≠ .ok a m'

theorem Fails.bind {next : α → Run H W β} (act : Run H W α) (h : ∀ a, Fails (next a)) :
    Fails (act >>= next) := by
  intro m b m' hrun
  obtain ⟨a, m₁, -, hnext⟩ := exists_of_bind hrun
  exact h a m₁ b m' hnext

end Run

/-! ## Calls -/

namespace Engine

/-- The engine loads texts as the standard library does. -/
def Loads (engine : Engine H W) : Prop :=
  ∀ invoke arguments, engine.routine invoke (.base .load) arguments = loadText invoke arguments

/-- A call of the function that hands on is one of the loader with the mode for texts and the same arguments
beside it, in a frame of its own. -/
def HandsOn (c : Custody) (m : Machine H W) : Prop :=
  ∃ chunk line callLine, ∃ callSite : Site, callSite.kind ≠ "metamethod" ∧
    ∀ (engine : Engine H W) depth site arguments, Clear c arguments →
      (call engine (depth + 1) site (.function c.door) arguments).run m = (do
        let nesting ← nestingOf site
        Run.inFrame ⟨.function c.door, some chunk, line, site, nesting⟩
          (handOn (call engine depth) c callLine callSite arguments)).run m

theorem handsOn (hm : Guarded c m) : HandsOn c m := by
  obtain ⟨chunk, line, callLine, callSite, hkind, henter⟩ := enter_door hm
  refine ⟨chunk, line, callLine, callSite, hkind, fun engine depth site arguments harguments => ?_⟩
  rw [call_succ, EStateM.run_bind, henter _ _ _ _ harguments, ← EStateM.run_bind]
  simp only [inFrame, bind_assoc, pure_bind]

variable {engine : Engine H W} (hengine : engine.Loads) (hm : Guarded c m)
  (hsource : Numeral.text? (arguments.getD 0 .nil) = some source) (hrefused : Refused source)

include hengine hm hsource hrefused

end Engine
end Sandbox.Script
