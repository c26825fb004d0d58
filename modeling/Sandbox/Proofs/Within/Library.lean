import Sandbox.Proofs.Within.Evaluation
import Sandbox.Script.Library

/-!
# The standard library within a relation

A permissive relation permits what the functions of the standard library do as soon as it permits what
calls do. With that, only the functions of the host are left to look at.
-/

namespace Sandbox.Script

namespace Run

variable {H W : Type} {α : Type} {R : Machine H W → Machine H W → Prop} (hR : Permissive R)

include hR

/-! ## Arguments -/

@[grind .] theorem moduleName?_within (f : Value) :
    Within R (moduleName? f : Run H W (Option String)) :=
  .bind hR (.get hR) fun _ => .pure hR _

@[grind .] theorem raiseArgument_within (position : Nat) (reason : String) :
    Within R (raiseArgument position reason : Run H W α) := by
  have hraise (text : String) : Within R (raiseForCaller text : Run H W α) :=
    raiseForCaller_within hR text
  refine .bind hR (.get hR) fun m => ?_
  split
  · exact hraise _
  · split
    · split
      · exact hraise _
      · exact hraise _
    · exact hraise _
    · exact .bind hR (moduleName?_within hR _) fun _ => hraise _

@[grind .] theorem raiseArgumentType_within (arguments : List Value) (position : Nat) (wanted : String) :
    Within R (raiseArgumentType arguments position wanted : Run H W α) := by
  have hraise (found : String) :
      Within R (raiseArgument position s!"{wanted} expected, got {found}" : Run H W α) :=
    raiseArgument_within hR position _
  unfold raiseArgumentType
  split
  · exact .bind hR (.pure hR _) fun found => hraise found
  · exact .bind hR (.pure hR _) fun found => hraise found
  · exact .bind hR (typeNameOf_within hR _) fun found => hraise found

@[grind .] theorem anyArgument_within (arguments : List Value) (position : Nat) :
    Within R (anyArgument arguments position : Run H W Value) := by
  grind [anyArgument]

@[grind .] theorem tableArgument_within (arguments : List Value) (position : Nat) :
    Within R (tableArgument arguments position : Run H W Nat) := by
  grind [tableArgument]

@[grind .] theorem integerArgument_within (arguments : List Value) (position : Nat) :
    Within R (integerArgument arguments position : Run H W Int64) := by
  grind [integerArgument]

@[grind .] theorem numberArgument_within (arguments : List Value) (position : Nat) :
    Within R (numberArgument arguments position : Run H W Value) := by
  grind [numberArgument]

@[grind .] theorem floatArgument_within (arguments : List Value) (position : Nat) :
    Within R (floatArgument arguments position : Run H W Binary64) := by
  grind [floatArgument]

@[grind .] theorem textArgument_within (arguments : List Value) (position : Nat) :
    Within R (textArgument arguments position : Run H W ByteArray) := by
  grind [textArgument]

@[grind .] theorem orDefault_within (arguments : List Value) (position : Nat) (standard : α)
    {take : Run H W α} (htake : Within R take) :
    Within R (orDefault arguments position standard take) := by
  grind [orDefault]

@[grind .] theorem integerOr_within (arguments : List Value) (position : Nat) (standard : Int) :
    Within R (integerOr arguments position standard : Run H W Int) := by
  grind [integerOr]

@[grind .] theorem textOr_within (arguments : List Value) (position : Nat) (standard : ByteArray) :
    Within R (textOr arguments position standard : Run H W ByteArray) := by
  grind [textOr]

/-! ## Functions that are global variables -/

@[grind .] theorem routineValue_within (r : Routine) : Within R (routineValue r : Run H W Value) := by
  unfold routineValue
  grind

@[grind .] theorem newChunk_within (name : ByteArray) (f : Function) (environment : Value) :
    Within R (newChunk name f environment : Run H W Value) := by
  grind [newChunk]

@[grind .] theorem raiseWith_within (error : Value) (level : Int) :
    Within R (raiseWith error level : Run H W α) := by
  unfold raiseWith
  grind

@[grind .] theorem nextEntry_within (arguments : List Value) :
    Within R (nextEntry arguments : Run H W (List Value)) := by
  unfold nextEntry
  grind

@[grind .] theorem toNumber_within (arguments : List Value) :
    Within R (toNumber arguments : Run H W Value) := by
  unfold toNumber
  grind

@[grind .] theorem selectFrom_within (arguments : List Value) :
    Within R (selectFrom arguments : Run H W (List Value)) := by
  unfold selectFrom
  grind

@[grind .] theorem setMetatable_within (arguments : List Value) :
    Within R (setMetatable arguments : Run H W (List Value)) := by
  have hset (id : Nat) (metatable : Option Nat) : Within R (do
      unless (← metafield (.table id) "__metatable").isNil do
        raiseForCaller "cannot change a protected metatable"
      modifyTable id fun t => { t with metatable }
      return [.table id] : Run H W (List Value)) := by
    have hmodify := modifyTable_within hR id (f := fun t => { t with metatable }) fun _ ht =>
      ht.congr rfl rfl rfl
    grind
  unfold setMetatable
  refine .bind hR (tableArgument_within hR _ _) fun id => ?_
  dsimp only
  split
  · exact .bind hR (.pure hR none) (hset id)
  · exact .bind hR (.pure hR _) (hset id)
  · exact .bind hR (raiseArgumentType_within hR _ _ _) (hset id)

@[grind .] theorem getMetatable_within (v : Value) :
    Within R (getMetatable v : Run H W Value) := by
  unfold getMetatable
  grind

/-! ## Functions on texts -/

@[grind .] theorem ofPattern_within (r : Except Pattern.Problem α) :
    Within R (ofPattern r : Run H W α) := by
  cases r <;> grind [ofPattern]

@[grind .] theorem searchText_within (wantsPlace : Bool) (arguments : List Value) :
    Within R (searchText wantsPlace arguments : Run H W (List Value)) := by
  unfold searchText
  grind

@[grind .] theorem nextMatch_within (text pattern : ByteArray) (state : Nat) :
    Within R (nextMatch text pattern state : Run H W (List Value)) := by
  unfold nextMatch
  grind

@[grind .] theorem expandReplacement_within (text : ByteArray) (m : Pattern.Match) (s : List UInt8)
    (acc : ByteArray) : Within R (expandReplacement text m s acc : Run H W ByteArray) := by
  fun_induction expandReplacement text m s acc with grind

@[grind .] theorem repeatText_within (s separator : ByteArray) (count : Nat) :
    Within R (repeatText s separator count : Run H W ByteArray) := by
  unfold repeatText
  grind

@[grind .] theorem quotedValue_within (position : Nat) (v : Value) :
    Within R (quotedValue position v : Run H W ByteArray) := by
  unfold quotedValue
  cases v <;> grind

/-! ## Functions on characters and numbers -/

@[grind .] theorem codePoints_within (s : ByteArray) (isLax : Bool) (stop : Int) (fuel : Nat) (i : Int)
    (acc : List Value) : Within R (codePoints s isLax stop fuel i acc : Run H W (List Value)) := by
  fun_induction codePoints s isLax stop fuel i acc with grind

@[grind .] theorem nextCharacter_within (isLax : Bool) (arguments : List Value) :
    Within R (nextCharacter isLax arguments : Run H W (List Value)) := by
  unfold nextCharacter
  grind

@[grind .] theorem characterRoutine_within (r : CharacterRoutine) (arguments : List Value) :
    Within R (r.run arguments : Run H W (List Value)) := by
  unfold CharacterRoutine.run
  cases r <;> grind

@[grind .] theorem floatFunction_within (f : Float → Float) (arguments : List Value) :
    Within R (floatFunction f arguments : Run H W (List Value)) := by
  unfold floatFunction
  grind

@[grind .] theorem extreme_within (isBetter : Value → Value → Bool) (arguments : List Value) :
    Within R (extreme isBetter arguments : Run H W (List Value)) := by
  unfold extreme
  grind

@[grind .] theorem cutRemainder_within (arguments : List Value) :
    Within R (cutRemainder arguments : Run H W Value) := by
  unfold cutRemainder
  grind

@[grind .] theorem logarithm_within (arguments : List Value) :
    Within R (logarithm arguments : Run H W Value) := by
  unfold logarithm
  grind

@[grind .] theorem mathRoutine_within (r : MathRoutine) (arguments : List Value) :
    Within R (r.run arguments : Run H W (List Value)) := by
  unfold MathRoutine.run
  cases r <;> grind

/-! ## Functions that call -/

section Calls

variable {invoke : Invoke H W}
  (hinvoke : Calls R invoke)

include hinvoke

@[grind .] theorem readPieces_within (reader : Value) : Within R (readPieces invoke reader) := by
  unfold readPieces
  grind

omit hinvoke in
/-- What is done with a source once it has been read. -/
theorem loadText_source_within (arguments : List Value) (name : ByteArray) (mode : String)
    (source : Except Value ByteArray) : Within R (do
      match source with
      | .error e => return failed e
      | .ok source =>
        match Chunk.compile name mode source with
        | .error refusal => return failed (.ofString refusal.message)
        | .ok f =>
          let environment ← match given? arguments 4 with
            | some v => pure v
            | none => pure (.table (← get).globals)
          return [← newChunk name f environment] : Run H W (List Value)) := by
  cases source <;> grind

@[grind .] theorem loadText_within (arguments : List Value) : Within R (loadText invoke arguments) := by
  have hsource := loadText_source_within hR arguments
  refine .bind hR (textOr_within hR _ _ _) fun mode => .bind hR (textOr_within hR _ _ _) fun name => ?_
  dsimp only
  split
  · exact .bind hR (.pure hR _) (hsource name _)
  · split
    · exact .bind hR (protect_within hR (readPieces_within hR hinvoke _)) (hsource name _)
    · exact .bind hR (raiseArgumentType_within hR _ _ _) (hsource name _)

@[grind .] theorem handle_within (handler : Value) (n : Nat) (e : Value) :
    Within R (handle invoke handler n e) := by
  induction n generalizing e with
  | zero => unfold handle; grind
  | succ n ih => unfold handle; grind

@[grind .] theorem baseRoutine_within (r : BaseRoutine) (arguments : List Value) :
    Within R (r.run invoke arguments) := by
  unfold BaseRoutine.run
  cases r <;> grind

@[grind .] theorem replacement_within (text : ByteArray) (m : Pattern.Match) (substitute : Value) :
    Within R (replacement invoke text m substitute) := by
  unfold replacement
  grind

@[grind .] theorem replaceMatch_within (text : ByteArray) (pattern : List UInt8) (substitute : Value)
    (r : Replacing) : Within R (replaceMatch invoke text pattern substitute r) := by
  unfold replaceMatch
  grind

@[grind .] theorem replaceFrom_within (text : ByteArray) (isAnchored : Bool) (pattern : List UInt8)
    (substitute : Value) (limit : Int) (r : Replacing) :
    Within R (replaceFrom invoke text isAnchored pattern substitute limit r) := by
  unfold replaceFrom
  grind

@[grind .] theorem replaceMatches_within (arguments : List Value) :
    Within R (replaceMatches invoke arguments) := by
  refine .bind hR (textArgument_within hR _ _) fun text => ?_
  refine .bind hR (textArgument_within hR _ _) fun pattern => ?_
  grind

@[grind .] theorem textArithmetic_within (event : String) (arguments : List Value) :
    Within R (textArithmetic invoke event arguments) := by
  unfold textArithmetic
  grind

@[grind .] theorem formatOne_within (arguments : List Value) (position : Nat) (d : Format.Directive) :
    Within R (formatOne invoke arguments position d) := by
  unfold formatOne
  grind

@[grind .] theorem formatFrom_within (arguments : List Value) (fuel : Nat) (s : List UInt8)
    (position : Nat) (acc : ByteArray) :
    Within R (formatFrom invoke arguments fuel s position acc) := by
  fun_induction formatFrom invoke arguments fuel s position acc with grind

@[grind .] theorem textRoutine_within (r : TextRoutine) (arguments : List Value) :
    Within R (r.run invoke arguments) := by
  unfold TextRoutine.run
  cases r <;> grind

/-! ## Functions on sequences -/

omit hinvoke in
@[grind .] theorem checkSequence_within (arguments : List Value) (position : Nat)
    (events : List String) : Within R (checkSequence arguments position events : Run H W Unit) := by
  unfold checkSequence
  grind

@[grind .] theorem sequenceLength_within (v : Value) : Within R (sequenceLength invoke v) := by
  unfold sequenceLength
  grind

@[grind .] theorem item_within (t : Value) (i : Int) : Within R (item invoke t i) := by
  grind [item]

@[grind .] theorem setItem_within (t : Value) (i : Int) (v : Value) :
    Within R (setItem invoke t i v) := by
  grind [setItem]

@[grind .] theorem concatItems_within (arguments : List Value) :
    Within R (concatItems invoke arguments) := by
  refine .bind hR (checkSequence_within hR _ _ _) fun _ => ?_
  refine .bind hR (sequenceLength_within hR hinvoke _) fun size => ?_
  refine .bind hR (textOr_within hR _ _ _) fun separator => ?_
  grind

@[grind .] theorem moveItems_within (source target : Value) (first last place : Int) :
    Within R (moveItems invoke source target first last place) := by
  unfold moveItems
  grind

@[grind .] theorem insertItem_within (arguments : List Value) :
    Within R (insertItem invoke arguments) := by
  unfold insertItem
  grind

@[grind .] theorem removeItem_within (arguments : List Value) :
    Within R (removeItem invoke arguments) := by
  unfold removeItem
  grind

@[grind .] theorem unpackItems_within (arguments : List Value) :
    Within R (unpackItems invoke arguments) := by
  have hrest (start stop : Int) : Within R (do
      if start > stop then return []
      if stop - start ≥ 1000000 then raiseForCaller "too many results to unpack"
      let values ← repeatFrom (fun (s : Int × List Value) => do
        if s.1 > stop then return .inr s.2
        return .inl (s.1 + 1, (← item invoke (given arguments 1) s.1) :: s.2)) budget (start, [])
      return values.reverse : Run H W (List Value)) := by grind
  refine .bind hR (integerOr_within hR _ _ _) fun start => ?_
  dsimp only
  split
  · exact .bind hR (sequenceLength_within hR hinvoke _) (hrest start)
  · exact .bind hR (integerOr_within hR _ _ _) (hrest start)

omit hinvoke in
@[grind .] theorem mergeItems_within {below : Value → Value → Run H W Bool}
    (hbelow : ∀ a b, Within R (below a b)) (fuel : Nat) (a b : List Value) :
    Within R (mergeItems below fuel a b) := by
  fun_induction mergeItems below fuel a b with grind

omit hinvoke in
@[grind .] theorem sortItems_within {below : Value → Value → Run H W Bool}
    (hbelow : ∀ a b, Within R (below a b)) (fuel : Nat) (l : List Value) :
    Within R (sortItems below fuel l) := by
  fun_induction sortItems below fuel l with grind

@[grind .] theorem sortSequence_within (arguments : List Value) :
    Within R (sortSequence invoke arguments) := by
  unfold sortSequence
  refine .bind hR (checkSequence_within hR _ _ _) fun _ => ?_
  refine .bind hR (sequenceLength_within hR hinvoke _) fun size => ?_
  split
  · have hbelow (f a b : Value) : Within R (do
        return ((← invoke none f [a, b]).headD .nil).isTrue : Run H W Bool) := by grind
    have hrest (isBelow : Value → Value → Run H W Bool) (hbelow : ∀ a b, Within R (isBelow a b))
        (values : List Value) : Within R (do
          let sorted ← sortItems isBelow values.length values
          discard (sorted.foldlM (fun i v => do
            setItem invoke (given arguments 1) i v
            return i + 1) (1 : Int))) := by grind
    grind
  · exact .pure hR _

@[grind .] theorem sequenceRoutine_within (r : SequenceRoutine) (arguments : List Value) :
    Within R (r.run invoke arguments) := by
  cases r with
  | move =>
    refine .bind hR (integerArgument_within hR _ _) fun first => ?_
    refine .bind hR (integerArgument_within hR _ _) fun last => ?_
    refine .bind hR (integerArgument_within hR _ _) fun place => ?_
    refine .bind hR (checkSequence_within hR _ _ _) fun _ => ?_
    refine .bind hR (checkSequence_within hR _ _ _) fun _ => ?_
    grind
  | pack =>
    refine .bind hR (newTable_within hR (Table.sound_withSizes _ _)) fun id => ?_
    refine .bind hR (modifyTable_within hR id fun t ht => ?_) fun _ => .pure hR _
    exact (ht.setItems arguments 1).setText "n" _
  | _ => unfold SequenceRoutine.run; grind

/-- A permissive relation that permits calls permits what the standard library does. -/
theorem routine_within (r : Routine) (arguments : List Value) :
    Within R (r.run invoke arguments) := by
  cases r <;> grind [Routine.run]

end Calls

end Run
end Sandbox.Script
