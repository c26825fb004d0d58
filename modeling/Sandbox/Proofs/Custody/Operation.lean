import Sandbox.Proofs.Within.Operation
import Sandbox.Proofs.Custody.Basic
import Sandbox.Script.Host

/-!
# Operations that keep the loader in custody

The operations on values are alike for two ways of calling that are, as long as their operands do not give
the loader away, and so is the host's view of them.
-/

namespace Sandbox.Script
namespace Run

variable {H W : Type} {α : Type} [Carries α] {c : Custody}

/-! ## Metatables -/

@[grind .] theorem metatable?_alike (v : Value) :
    Alike c (metatable? v : Run H W (Option Nat)) (metatable? v) := by
  unfold metatable?
  split
  · exact .bind (table_alike _) fun _ _ => .pure (clear_of_inert _)
  · exact .bind .get fun _ _ => .pure (clear_of_inert _)
  · exact .pure (clear_of_inert _)

@[grind .] theorem metafield_alike (v : Value) (field : String) :
    Alike c (metafield v field : Run H W Value) (metafield v field) := by
  refine .bind (metatable?_alike v) fun id _ => ?_
  cases id with
  | none => exact .pure fun h => by cases h
  | some id => exact rawField_alike id field

@[grind .] theorem typeNameOf_alike (v : Value) :
    Alike c (typeNameOf v : Run H W String) (typeNameOf v) := by
  unfold typeNameOf
  split
  · refine .bind (metafield_alike _ _) fun name _ => ?_
    split
    · exact .pure (clear_of_inert _)
    · exact .pure (clear_of_inert _)
  · exact .pure (clear_of_inert _)

@[grind .] theorem raiseType_alike (v : Value) (operation : String) (source : Expression) :
    Alike c (raiseType v operation source : Run H W α) (raiseType v operation source) :=
  .bind (typeNameOf_alike v) fun _ _ => raiseText_alike _

@[grind .] theorem binaryEvent_alike (event : String) (a b : Value) :
    Alike c (binaryEvent event a b : Run H W Value) (binaryEvent event a b) := by
  refine .bind (metafield_alike a event) fun first hfirst => ?_
  split
  · exact metafield_alike b event
  · exact .pure hfirst

@[grind .] theorem raiseOperand_alike (operation : String) (aIsRight : Bool) (a b : Value)
    (sa sb : Expression) : Alike c (raiseOperand operation aIsRight a b sa sb : Run H W α)
      (raiseOperand operation aIsRight a b sa sb) := by
  unfold raiseOperand
  split
  · exact raiseType_alike b operation sb
  · exact raiseType_alike a operation sa

@[grind .] theorem raiseArithmetic_alike (op : Operator) (a b : Value) (sa sb : Expression) :
    Alike c (raiseArithmetic op a b sa sb : Run H W α) (raiseArithmetic op a b sa sb) := by
  unfold raiseArithmetic
  grind

/-! ## Tables -/

section Tables

variable {key value : Value} (hkey : Clear c key) (hvalue : Clear c value)

include hkey hvalue

@[grind .] theorem rawSet_alike (id : Nat) :
    Alike c (rawSet id key value : Run H W Unit) (rawSet id key value) := by
  unfold rawSet
  grind

end Tables

@[grind .] theorem rawLength_alike (id : Nat) :
    Alike c (rawLength id : Run H W Nat) (rawLength id) := by
  grind [rawLength]

section Calls

variable {invoke invoke' : Invoke H W} (hinvoke : CallsAlike c invoke invoke')

include hinvoke

@[grind .] theorem callEvent_alike (event : String) {f : Value} (hf : Clear c f)
    {arguments : List Value} (harguments : Clear c arguments) :
    Alike c (callEvent invoke event f arguments) (callEvent invoke' event f arguments) :=
  .bind (hinvoke.clear _ f arguments hf harguments) fun _ hresults =>
    .pure (clear_headD hresults fun h => by cases h)

@[grind .] theorem indexFrom_alike {key : Value} (hkey : Clear c key) (n : Nat) {object : Value}
    (hobject : Clear c object) (source : Expression) :
    Alike c (indexFrom invoke key n object source) (indexFrom invoke' key n object source) := by
  induction n generalizing object source with
  | zero => grind [indexFrom]
  | succ n ih =>
    have harguments : Clear c [object, key] := by grind
    unfold indexFrom
    dsimp only
    split
    · refine .bind (rawGet_alike _ _) fun found hfound => ?_
      split
      · exact .pure hfound
      · refine .bind (metafield_alike _ _) fun next hnext => ?_
        cases next <;> grind
    · refine .bind (.pure (by simp)) fun found hfound => ?_
      split
      · exact .pure hfound
      · refine .bind (metafield_alike _ _) fun next hnext => ?_
        cases next <;> grind

@[grind .] theorem index_alike {object key : Value} (hobject : Clear c object) (hkey : Clear c key)
    (source : Expression) :
    Alike c (index invoke object key source) (index invoke' object key source) :=
  indexFrom_alike hinvoke hkey chainLimit hobject source

@[grind .] theorem setIndexFrom_alike {key value : Value} (hkey : Clear c key) (hvalue : Clear c value)
    (n : Nat) {object : Value} (hobject : Clear c object) (source : Expression) :
    Alike c (setIndexFrom invoke key value n object source)
      (setIndexFrom invoke' key value n object source) := by
  induction n generalizing object source with
  | zero => grind [setIndexFrom]
  | succ n ih =>
    have harguments : Clear c [object, key, value] := by grind
    unfold setIndexFrom
    dsimp only
    split
    case h_1 id =>
      refine .bind (.map (rawGet_alike _ _) fun _ _ => clear_of_inert _) fun present _ => ?_
      cases present
      · refine .bind (metafield_alike _ _) fun next hnext => ?_
        cases next <;> grind
      · exact rawSet_alike hkey hvalue id
    case h_2 hobject' =>
      refine .bind (.pure (clear_of_inert _)) fun present _ => ?_
      split
      · exact rawSet_alike hkey hvalue _
      · refine .bind (metafield_alike _ _) fun next hnext => ?_
        cases next <;> grind

@[grind .] theorem setIndex_alike {object key value : Value} (hobject : Clear c object)
    (hkey : Clear c key) (hvalue : Clear c value) (source : Expression) :
    Alike c (setIndex invoke object key value source) (setIndex invoke' object key value source) :=
  setIndexFrom_alike hinvoke hkey hvalue chainLimit hobject source

/-! ## Arithmetic and comparison -/

section Operands

variable {a b : Value} (ha : Clear c a) (hb : Clear c b)

include ha

@[grind .] theorem negative_alike (source : Expression) :
    Alike c (negative invoke a source) (negative invoke' a source) := by
  unfold negative
  grind

@[grind .] theorem complement_alike (source : Expression) :
    Alike c (complement invoke a source) (complement invoke' a source) := by
  grind [complement]

@[grind .] theorem length_alike (source : Expression) :
    Alike c (length invoke a source) (length invoke' a source) := by
  unfold length
  grind

@[grind .] theorem textOf_alike : Alike c (textOf invoke a) (textOf invoke' a) := by
  unfold textOf
  grind

include hb

@[grind .] theorem arithmetic_alike (op : Operator) (sa sb : Expression) :
    Alike c (arithmetic invoke op a b sa sb) (arithmetic invoke' op a b sa sb) := by
  have harguments : Clear c [a, b] := by grind
  have hnumbers := @clear_onNumbers? c op a b
  unfold arithmetic
  split
  case h_1 v h => exact .pure (by rwa [h, clear_some, clear_ok] at hnumbers)
  case h_2 => exact raiseText_alike _
  case h_3 =>
    refine .bind (binaryEvent_alike _ _ _) fun f hf => ?_
    cases f <;> grind

@[grind .] theorem concat_alike (sa sb : Expression) :
    Alike c (concat invoke a b sa sb) (concat invoke' a b sa sb) := by
  unfold concat
  grind

@[grind .] theorem equals_alike : Alike c (equals invoke a b) (equals invoke' a b) := by
  have harguments : Clear c [a, b] := by grind
  unfold equals
  split
  · exact .pure (clear_of_inert _)
  · split
    · refine .bind (binaryEvent_alike _ _ _) fun f hf => ?_
      cases f <;> grind
    · exact .pure (clear_of_inert _)

@[grind .] theorem below_alike (orEqual : Bool) :
    Alike c (below invoke orEqual a b) (below invoke' orEqual a b) := by
  have harguments : Clear c [a, b] := by grind
  unfold below
  split
  · exact .pure (clear_of_inert _)
  · split
    · exact .pure (clear_of_inert _)
    · refine .bind (binaryEvent_alike _ _ _) fun f hf => ?_
      cases f <;> grind

@[grind .] theorem compare_alike (op : Comparison) :
    Alike c (compare invoke op a b) (compare invoke' op a b) := by
  unfold compare
  grind

end Operands

/-! ## The host's view -/

@[grind .] theorem faultOf_alike (n : Nat) {error : Value} (herror : Clear c error) :
    Alike c (faultOf invoke n error) (faultOf invoke' n error) := by
  induction n generalizing error with
  | zero => unfold faultOf; grind
  | succ n ih => unfold faultOf; grind

omit hinvoke in
@[grind .] theorem orFail_alike {r : Except Fault α} (hr : Clear c r) :
    Alike c (orFail r : Run H W α) (orFail r) := by
  cases r with
  | ok a => exact .pure (clear_ok.mp hr)
  | error fault => exact fail_alike fault

@[grind .] theorem guarded_alike {act act' : Run H W α} (hact : Alike c act act') :
    Alike c (guarded invoke act) (guarded invoke' act') := by
  refine .bind (protect_alike hact) fun outcome houtcome => ?_
  cases outcome with
  | ok a => exact .pure (clear_ok.mpr (clear_ok.mp houtcome))
  | error e =>
    exact .bind (faultOf_alike hinvoke _ (clear_error.mp houtcome)) fun fault _ =>
      .pure (clear_error.mpr (clear_of_inert fault))

@[grind .] theorem callGuarded_alike {f : Value} (hf : Clear c f) {arguments : List Value}
    (harguments : Clear c arguments) :
    Alike c (callGuarded invoke f arguments) (callGuarded invoke' f arguments) := by
  grind [callGuarded]

@[grind .] theorem hostField_alike (id : Nat) (key : String) :
    Alike c (hostField invoke id key) (hostField invoke' id key) := by
  grind [hostField]

@[grind .] theorem setHostField_alike (id : Nat) (key : String) {v : Value} (hv : Clear c v) :
    Alike c (setHostField invoke id key v) (setHostField invoke' id key v) := by
  grind [setHostField]

end Calls

end Run
end Sandbox.Script
