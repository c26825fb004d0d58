import Sandbox.Proofs.Within.Basic
import Sandbox.Script.Host

/-!
# Operations within a relation

What the operations on values and the host's view of them do to a machine: a permissive relation permits
it as soon as it permits what calls do.
-/

namespace Sandbox.Script

/-- A value that may be set as a key of a table is a key there. -/
theorem Value.isKey_asKey {key : Value} (hnil : key ≠ .nil)
    (hnumber : ∀ x, key = .float x → x.isNaN = false) : key.asKey.IsKey := by
  cases key with
  | nil => exact absurd rfl hnil
  | float x =>
    cases hint : x.toInt64? with
    | some n => simp [asKey, hint, IsKey]
    | none => simpa [asKey, hint, IsKey] using hnumber x rfl
  | _ => exact trivial

theorem Table.Sound.set {t : Table} (h : t.Sound) {key : Value} (hnil : key ≠ .nil)
    (hnumber : ∀ x, key = .float x → x.isNaN = false) (value : Value) : (t.set key value).Sound :=
  h.setKey (Value.isKey_asKey hnil hnumber) value

theorem Table.Sound.setIndex {t : Table} (h : t.Sound) (index : Nat) (v : Value) :
    (t.setIndex index v).Sound := h.setKey (show (Value.int (.ofNat index)).IsKey from trivial) v

/-- A table remains sound where values are put behind one another. -/
theorem Table.Sound.setItems {t : Table} (h : t.Sound) (values : List Value) (index : Nat) :
    (values.foldl (fun (acc : Table × Nat) v => (acc.1.setIndex acc.2 v, acc.2 + 1))
      (t, index)).1.Sound := by
  induction values generalizing t index with
  | nil => exact h
  | cons v rest ih => exact ih (h.setIndex index v) _

theorem Table.Sound.length {t : Table} (h : t.Sound) : t.length.2.Sound := by
  have hremember (border : Nat) : (t.remember border).Sound := by
    unfold Table.remember
    split
    · exact h.congr rfl rfl rfl
    · exact h
  unfold Table.length
  grind [Table.Sound.congr]

namespace Run

variable {H W : Type} {α : Type} {R : Machine H W → Machine H W → Prop} (hR : Permissive R)

include hR

/-! ## Metatables -/

@[grind .] theorem metatable?_within (v : Value) :
    Within R (metatable? v : Run H W (Option Nat)) := by
  unfold metatable?
  split
  · exact .bind hR (table_within hR _) fun _ => .pure hR _
  · exact .bind hR (.get hR) fun _ => .pure hR _
  · exact .pure hR _

@[grind .] theorem metafield_within (v : Value) (field : String) :
    Within R (metafield v field : Run H W Value) := by
  refine .bind hR (metatable?_within hR v) fun id => ?_
  cases id with
  | none => exact .pure hR _
  | some id => exact rawField_within hR id field

@[grind .] theorem typeNameOf_within (v : Value) : Within R (typeNameOf v : Run H W String) := by
  unfold typeNameOf
  split
  · refine .bind hR (metafield_within hR _ _) fun name => ?_
    split
    · exact .pure hR _
    · exact .pure hR _
  · exact .pure hR _

@[grind .] theorem raiseType_within (v : Value) (operation : String) (source : Expression) :
    Within R (raiseType v operation source : Run H W α) :=
  .bind hR (typeNameOf_within hR v) fun _ => raiseText_within hR _

@[grind .] theorem binaryEvent_within (event : String) (a b : Value) :
    Within R (binaryEvent event a b : Run H W Value) := by
  refine .bind hR (metafield_within hR a event) fun first => ?_
  split
  · exact metafield_within hR b event
  · exact .pure hR _

@[grind .] theorem raiseOperand_within (operation : String) (aIsRight : Bool) (a b : Value)
    (sa sb : Expression) : Within R (raiseOperand operation aIsRight a b sa sb : Run H W α) := by
  unfold raiseOperand
  split
  · exact raiseType_within hR b operation sb
  · exact raiseType_within hR a operation sa

@[grind .] theorem raiseArithmetic_within (op : Operator) (a b : Value) (sa sb : Expression) :
    Within R (raiseArithmetic op a b sa sb : Run H W α) := by
  unfold raiseArithmetic
  grind

/-! ## Tables -/

@[grind .] theorem rawSet_within (id : Nat) (key value : Value) :
    Within R (rawSet id key value : Run H W Unit) := by
  unfold rawSet
  split
  case h_1 => exact raiseText_within hR _
  case h_2 x =>
    split
    · exact raiseText_within hR _
    · rename_i hnumber
      refine modifyTable_within hR id fun t ht => ht.set (by simp) (fun y hy => ?_) value
      cases hy
      simpa using hnumber
  case h_3 hnil hfloat =>
    exact modifyTable_within hR id fun t ht =>
      ht.set hnil (fun x hx => (hfloat x hx).elim) value

@[grind .] theorem rawLength_within (id : Nat) : Within R (rawLength id : Run H W Nat) := by
  have hmodify := modifyTable_within hR id fun t (ht : t.Sound) => ht.length
  exact .bind hR (table_within hR id) fun _ => .bind hR hmodify fun _ => .pure hR _

section Calls

variable {invoke : Invoke H W}
  (hinvoke : Calls R invoke)

include hinvoke

@[grind .] theorem callEvent_within (event : String) (f : Value) (arguments : List Value) :
    Within R (callEvent invoke event f arguments) :=
  .bind hR (hinvoke.within _ f arguments) fun _ => .pure hR _

@[grind .] theorem indexFrom_within (key : Value) (n : Nat) (object : Value) (source : Expression) :
    Within R (indexFrom invoke key n object source) := by
  fun_induction indexFrom with grind

@[grind .] theorem index_within (object key : Value) (source : Expression) :
    Within R (index invoke object key source) :=
  indexFrom_within hR hinvoke key chainLimit object source

@[grind .] theorem setIndexFrom_within (key value : Value) (n : Nat) (object : Value)
    (source : Expression) : Within R (setIndexFrom invoke key value n object source) := by
  fun_induction setIndexFrom with grind

@[grind .] theorem setIndex_within (object key value : Value) (source : Expression) :
    Within R (setIndex invoke object key value source) :=
  setIndexFrom_within hR hinvoke key value chainLimit object source

/-! ## Arithmetic and comparison -/

@[grind .] theorem arithmetic_within (op : Operator) (a b : Value) (sa sb : Expression) :
    Within R (arithmetic invoke op a b sa sb) := by
  grind [arithmetic]

@[grind .] theorem negative_within (a : Value) (source : Expression) :
    Within R (negative invoke a source) := by
  unfold negative
  grind

@[grind .] theorem complement_within (a : Value) (source : Expression) :
    Within R (complement invoke a source) := by
  grind [complement]

@[grind .] theorem concat_within (a b : Value) (sa sb : Expression) :
    Within R (concat invoke a b sa sb) := by
  unfold concat
  grind

@[grind .] theorem length_within (a : Value) (source : Expression) :
    Within R (length invoke a source) := by
  unfold length
  grind

@[grind .] theorem equals_within (a b : Value) : Within R (equals invoke a b) := by
  unfold equals
  grind

@[grind .] theorem below_within (orEqual : Bool) (a b : Value) :
    Within R (below invoke orEqual a b) := by
  unfold below
  grind

@[grind .] theorem compare_within (op : Comparison) (a b : Value) :
    Within R (compare invoke op a b) := by
  unfold compare
  grind

@[grind .] theorem textOf_within (v : Value) : Within R (textOf invoke v) := by
  unfold textOf
  grind

/-! ## The host's view -/

@[grind .] theorem faultOf_within (n : Nat) (error : Value) : Within R (faultOf invoke n error) := by
  fun_induction faultOf with grind

omit hinvoke in
@[grind .] theorem orFail_within (r : Except Fault α) : Within R (orFail r : Run H W α) := by
  cases r with
  | ok a => exact .pure hR a
  | error fault => exact fail_within hR fault

@[grind .] theorem guarded_within {act : Run H W α} (hact : Within R act) :
    Within R (guarded invoke act) := by
  refine .bind hR (protect_within hR hact) fun r => ?_
  cases r with
  | ok a => exact .pure hR _
  | error e => exact .bind hR (faultOf_within hR hinvoke _ e) fun _ => .pure hR _

@[grind .] theorem callGuarded_within (f : Value) (arguments : List Value) :
    Within R (callGuarded invoke f arguments) :=
  guarded_within hR hinvoke (hinvoke.within none f arguments)

@[grind .] theorem hostField_within (id : Nat) (key : String) :
    Within R (hostField invoke id key) := by
  have hindex : Within R (index invoke (.table id) (.ofString key)) := index_within hR hinvoke _ _ _
  exact .bind hR (guarded_within hR hinvoke hindex) fun r => orFail_within hR r

@[grind .] theorem setHostField_within (id : Nat) (key : String) (v : Value) :
    Within R (setHostField invoke id key v) := by
  have hset : Within R (setIndex invoke (.table id) (.ofString key) v) :=
    setIndex_within hR hinvoke _ _ _ _
  exact .bind hR (guarded_within hR hinvoke hset) fun r => orFail_within hR r

end Calls

end Run
end Sandbox.Script
