import Sandbox.Proofs.Within.Library
import Sandbox.Proofs.Custody.Engine
import Sandbox.Script.Library

/-!
# The standard library keeps the loader in custody

The functions of the standard library are alike for two ways of calling that are, where their arguments do
not give the loader away. The loader itself is so with the mode for texts.
-/

namespace Sandbox.Script

namespace Run

variable {H W : Type} {α : Type} [Carries α] {c : Custody}

/-! ## Arguments -/

@[grind .] theorem clear_given? {arguments : List Value} (h : Clear c arguments) (position : Nat) :
    Clear c (given? arguments position) := clear_getElem? h _

@[grind .] theorem clear_given {arguments : List Value} (h : Clear c arguments) (position : Nat) :
    Clear c (given arguments position) := clear_getD_option (clear_given? h position) (by simp)

@[grind .] theorem moduleName?_alike (f : Value) :
    Alike c (moduleName? f : Run H W (Option String)) (moduleName? f) :=
  .bind .get fun _ _ => .pure (clear_of_inert _)

@[grind .] theorem raiseArgument_alike (position : Nat) (reason : String) :
    Alike c (raiseArgument position reason : Run H W α) (raiseArgument position reason) := by
  have hraise (text : String) :
      Alike c (raiseForCaller text : Run H W α) (raiseForCaller text) := raiseForCaller_alike text
  refine .bind .get fun m _ => ?_
  split
  · exact hraise _
  · split
    · split
      · exact hraise _
      · exact hraise _
    · exact hraise _
    · exact .bind (moduleName?_alike _) fun _ _ => hraise _

@[grind .] theorem raiseArgumentType_alike (arguments : List Value) (position : Nat) (wanted : String) :
    Alike c (raiseArgumentType arguments position wanted : Run H W α)
      (raiseArgumentType arguments position wanted) := by
  have hraise (found : String) :
      Alike c (raiseArgument position s!"{wanted} expected, got {found}" : Run H W α)
        (raiseArgument position s!"{wanted} expected, got {found}") :=
    raiseArgument_alike position _
  unfold raiseArgumentType
  split
  · exact .bind (.pure (clear_of_inert _)) fun found _ => hraise found
  · exact .bind (.pure (clear_of_inert _)) fun found _ => hraise found
  · exact .bind (typeNameOf_alike _) fun found _ => hraise found

@[grind .] theorem tableArgument_alike (arguments : List Value) (position : Nat) :
    Alike c (tableArgument arguments position : Run H W Nat) (tableArgument arguments position) := by
  grind [tableArgument]

@[grind .] theorem integerArgument_alike (arguments : List Value) (position : Nat) :
    Alike c (integerArgument arguments position : Run H W Int64) (integerArgument arguments position) := by
  grind [integerArgument]

@[grind .] theorem numberArgument_alike (arguments : List Value) (position : Nat) :
    Alike c (numberArgument arguments position : Run H W Value) (numberArgument arguments position) := by
  have hnumber := @clear_ofValue? c (given arguments position)
  grind [numberArgument]

@[grind .] theorem floatArgument_alike (arguments : List Value) (position : Nat) :
    Alike c (floatArgument arguments position : Run H W Binary64) (floatArgument arguments position) := by
  grind [floatArgument]

@[grind .] theorem textArgument_alike (arguments : List Value) (position : Nat) :
    Alike c (textArgument arguments position : Run H W ByteArray) (textArgument arguments position) := by
  grind [textArgument]

@[grind .] theorem orDefault_alike (arguments : List Value) (position : Nat) {standard : α}
    (hstandard : Clear c standard) {take : Run H W α} (htake : Alike c take take) :
    Alike c (orDefault arguments position standard take) (orDefault arguments position standard take) := by
  grind [orDefault]

@[grind .] theorem integerOr_alike (arguments : List Value) (position : Nat) (standard : Int) :
    Alike c (integerOr arguments position standard : Run H W Int)
      (integerOr arguments position standard) := by
  grind [integerOr]

@[grind .] theorem textOr_alike (arguments : List Value) (position : Nat) (standard : ByteArray) :
    Alike c (textOr arguments position standard : Run H W ByteArray)
      (textOr arguments position standard) := by
  grind [textOr]

/-! ## Functions that are global variables -/

/-- The function value of a routine other than the loader. -/
@[grind .] theorem routineValue_alike {r : Routine} (hr : r ≠ .base .load)
    (hclear : Clear c (Callable.routine r : Callable H)) :
    Alike c (routineValue r : Run H W Value) (routineValue r) := by
  refine .of_get fun m hm => ?_
  split
  case h_1 id hfind =>
    refine Alike.pure (clear_value.mpr fun heq => ?_) m hm
    obtain ⟨hid, hfound, -⟩ := Array.findIdx?_eq_some_iff_getElem.mp hfind
    have hloader := hm.loader
    rw [← Value.function.inj heq, Array.getElem?_eq_getElem hid, Option.some.injEq] at hloader
    rw [hloader, decide_eq_true_eq] at hfound
    exact hr hfound.symm
  case h_2 => exact newFunction_alike hclear m hm

@[grind .] theorem newChunk_alike (name : ByteArray) (f : Function) {environment : Value}
    (henvironment : Clear c environment) :
    Alike c (newChunk name f environment : Run H W Value) (newChunk name f environment) := by
  refine newVariable_alike henvironment fun id hid => newFunction_alike ?_
  grind

section Arguments

variable {arguments : List Value} (harguments : Clear c arguments)

include harguments

@[grind .] theorem anyArgument_alike (position : Nat) :
    Alike c (anyArgument arguments position : Run H W Value) (anyArgument arguments position) := by
  have hgiven := clear_given? harguments position
  grind [anyArgument]

omit harguments in
@[grind .] theorem nextEntry_alike :
    Alike c (nextEntry arguments : Run H W (List Value)) (nextEntry arguments) := by
  refine .bind (tableArgument_alike _ _) fun id _ => .bind (table_alike id) fun t ht => ?_
  split
  case h_1 => exact raiseText_alike _
  case h_2 => exact .pure (by simp)
  case h_3 hnext =>
    obtain ⟨hk, hv⟩ := Table.clear_of_next? ht hnext
    exact .pure (clear_cons.mpr ⟨hk, clear_cons.mpr ⟨hv, clear_nil⟩⟩)

@[grind .] theorem toNumber_alike :
    Alike c (toNumber arguments : Run H W Value) (toNumber arguments) := by
  unfold toNumber
  split
  · refine .bind (anyArgument_alike harguments 1) fun v _ => ?_
    split
    case h_1 w hw => exact .pure (clear_of_ofValue? hw)
    case h_2 => exact .pure (by simp)
  · grind

@[grind .] theorem selectFrom_alike :
    Alike c (selectFrom arguments : Run H W (List Value)) (selectFrom arguments) := by
  unfold selectFrom
  grind

end Arguments

@[grind .] theorem raiseWith_alike {error : Value} (herror : Clear c error) (level : Int) :
    Alike c (raiseWith error level : Run H W α) (raiseWith error level) := by
  unfold raiseWith
  grind

@[grind .] theorem setMetatable_alike (arguments : List Value) :
    Alike c (setMetatable arguments : Run H W (List Value)) (setMetatable arguments) := by
  refine .bind (tableArgument_alike _ _) fun id _ => ?_
  have hset (metatable : Option Nat) : Alike c (modifyTable id fun t => { t with metatable } : Run H W Unit)
      (modifyTable id fun t => { t with metatable }) := modifyTable_alike id fun _ ht => ht
  dsimp only
  split <;> grind

@[grind .] theorem getMetatable_alike (v : Value) :
    Alike c (getMetatable v : Run H W Value) (getMetatable v) := by
  unfold getMetatable
  grind

/-! ## Functions on texts -/

@[grind .] theorem ofPattern_alike {r : Except Pattern.Problem α} (hr : Clear c r) :
    Alike c (ofPattern r : Run H W α) (ofPattern r) := by
  cases r <;> grind [ofPattern]

@[grind .] theorem clear_capture (m : Pattern.Match) (text : ByteArray) (i : Nat) :
    Clear c (m.capture text i) := by
  unfold Pattern.Match.capture
  grind

@[grind .] theorem clear_mapM {ε β : Type} {f : β → Except ε α} (l : List β)
    (hf : ∀ b, Clear c (f b)) : Clear c (l.mapM f) := by
  induction l with
  | nil => exact clear_ok.mpr clear_nil
  | cons b rest ih =>
    rw [List.mapM_cons]
    have hb := hf b
    cases hhead : f b with
    | error e => exact clear_error.mpr (clear_of_inert e)
    | ok v =>
      rw [hhead] at hb
      cases hrest : rest.mapM f with
      | error e => exact clear_error.mpr (clear_of_inert e)
      | ok vs =>
        rw [hrest] at ih
        exact clear_ok.mpr (clear_cons.mpr ⟨clear_ok.mp hb, clear_ok.mp ih⟩)

@[grind .] theorem clear_values (m : Pattern.Match) (text : ByteArray) (orWhole : Bool) :
    Clear c (m.values text orWhole) := clear_mapM _ fun _ => clear_capture _ _ _

@[grind .] theorem searchText_alike (wantsPlace : Bool) (arguments : List Value) :
    Alike c (searchText wantsPlace arguments : Run H W (List Value)) (searchText wantsPlace arguments) := by
  refine .bind (textArgument_alike _ _) fun text _ => .bind (textArgument_alike _ _) fun pattern _ => ?_
  refine .bind (integerOr_alike _ _ _) fun start _ => ?_
  grind

@[grind .] theorem nextMatch_alike (text pattern : ByteArray) {state : Nat} (hstate : c.cell < state) :
    Alike c (nextMatch text pattern state : Run H W (List Value)) (nextMatch text pattern state) := by
  refine .bind (variableValue_alike (by omega)) fun start _ => ?_
  refine .bind (variableValue_alike (by omega)) fun last _ => ?_
  refine .bind (ofPattern_alike (clear_of_inert _)) fun found _ => ?_
  cases found with
  | none => exact .pure (by simp)
  | some m =>
    refine .bind (setVariable_alike (by omega) (by simp)) fun _ _ => ?_
    exact .bind (setVariable_alike (by omega) (by simp)) fun _ _ => ofPattern_alike (clear_values _ _ _)

@[grind .] theorem expandReplacement_alike (text : ByteArray) (m : Pattern.Match) (s : List UInt8)
    (acc : ByteArray) :
    Alike c (expandReplacement text m s acc : Run H W ByteArray) (expandReplacement text m s acc) := by
  fun_induction expandReplacement text m s acc with grind

@[grind .] theorem repeatText_alike (s separator : ByteArray) (count : Nat) :
    Alike c (repeatText s separator count : Run H W ByteArray) (repeatText s separator count) := by
  unfold repeatText
  grind

@[grind .] theorem quotedValue_alike (position : Nat) (v : Value) :
    Alike c (quotedValue position v : Run H W ByteArray) (quotedValue position v) := by
  unfold quotedValue
  cases v <;> grind

/-! ## Functions on characters and numbers -/

@[grind .] theorem codePoints_alike (s : ByteArray) (isLax : Bool) (stop : Int) (fuel : Nat) (i : Int)
    {acc : List Value} (hacc : Clear c acc) :
    Alike c (codePoints s isLax stop fuel i acc : Run H W (List Value))
      (codePoints s isLax stop fuel i acc) := by
  fun_induction codePoints s isLax stop fuel i acc with grind

@[grind .] theorem nextCharacter_alike (isLax : Bool) (arguments : List Value) :
    Alike c (nextCharacter isLax arguments : Run H W (List Value)) (nextCharacter isLax arguments) := by
  unfold nextCharacter
  grind

@[grind .] theorem clear_countCharacters (s : ByteArray) (isLax : Bool) (last : Int) (fuel : Nat)
    (i : Int) (n : Nat) : Clear c (countCharacters s isLax last fuel i n) := by
  fun_induction countCharacters s isLax last fuel i n with grind

@[grind .] theorem characterRoutine_alike (r : CharacterRoutine) {arguments : List Value}
    (harguments : Clear c arguments) :
    Alike c (r.run arguments : Run H W (List Value)) (r.run arguments) := by
  unfold CharacterRoutine.run
  cases r with
  | codepoint =>
    refine .bind (textArgument_alike _ _) fun s _ => .bind (integerOr_alike _ _ _) fun first _ => ?_
    refine .bind (integerOr_alike _ _ _) fun last _ => ?_
    grind
  | len =>
    refine .bind (textArgument_alike _ _) fun s _ => .bind (integerOr_alike _ _ _) fun first _ => ?_
    refine .bind (integerOr_alike _ _ _) fun last _ => ?_
    grind
  | offset =>
    refine .bind (textArgument_alike _ _) fun s _ => .bind (integerArgument_alike _ _) fun n _ => ?_
    refine .bind (integerOr_alike _ _ _) fun place _ => ?_
    grind
  | _ => grind

@[grind .] theorem floatFunction_alike (f : Float → Float) (arguments : List Value) :
    Alike c (floatFunction f arguments : Run H W (List Value)) (floatFunction f arguments) := by
  unfold floatFunction
  grind

@[grind .] theorem extreme_alike (isBetter : Value → Value → Bool) (arguments : List Value) :
    Alike c (extreme isBetter arguments : Run H W (List Value)) (extreme isBetter arguments) := by
  have hfold (rest : List Value) (hrest : Clear c rest) (first : Value) (hfirst : Clear c first) :
      Clear c (rest.foldl (fun best v => if isBetter v best then v else best) first) := by
    induction rest generalizing first with
    | nil => exact hfirst
    | cons v rest ih =>
      obtain ⟨hv, hrest⟩ := clear_cons.mp hrest
      refine ih hrest _ ?_
      dsimp only
      split
      · exact hv
      · exact hfirst
  refine .bind (.discard (numberArgument_alike _ _)) fun _ _ => ?_
  refine .bind (.mapM (clear_of_inert _) fun i _ => numberArgument_alike _ _) fun values hvalues => ?_
  cases values with
  | nil => exact .pure clear_nil
  | cons first rest =>
    obtain ⟨hfirst, hrest⟩ := clear_cons.mp hvalues
    exact .pure (clear_cons.mpr ⟨hfold rest hrest first hfirst, clear_nil⟩)

@[grind .] theorem cutRemainder_alike (arguments : List Value) :
    Alike c (cutRemainder arguments : Run H W Value) (cutRemainder arguments) := by
  unfold cutRemainder
  grind

@[grind .] theorem logarithm_alike (arguments : List Value) :
    Alike c (logarithm arguments : Run H W Value) (logarithm arguments) := by
  unfold logarithm
  grind

@[grind .] theorem wholeOf_ne_function (x : Binary64) (id : Nat) : wholeOf x ≠ .function id := by
  unfold wholeOf
  split <;> simp

@[grind .] theorem mathRoutine_alike (r : MathRoutine) {arguments : List Value}
    (harguments : Clear c arguments) :
    Alike c (r.run arguments : Run H W (List Value)) (r.run arguments) := by
  unfold MathRoutine.run
  cases r <;> grind

/-! ## Functions that call -/

section Calls

variable {invoke invoke' : Invoke H W} (hinvoke : CallsAlike c invoke invoke')

include hinvoke

@[grind .] theorem readPieces_alike {reader : Value} (hreader : Clear c reader) :
    Alike c (readPieces invoke reader) (readPieces invoke' reader) := by
  unfold readPieces
  grind

@[grind .] theorem handle_alike {handler : Value} (hhandler : Clear c handler) (n : Nat) {e : Value}
    (he : Clear c e) : Alike c (handle invoke handler n e) (handle invoke' handler n e) := by
  induction n generalizing e with
  | zero => unfold handle; grind
  | succ n ih => unfold handle; grind

omit hinvoke in
theorem clear_collectorAnswer {option : String} {v : Value} (h : collectorAnswer? option = some v) :
    Clear c v := by
  unfold collectorAnswer? at h
  split at h <;> cases h <;> simp

omit hinvoke in
@[grind .] theorem clear_adjust3 {values : List Value} (hvalues : Clear c values) :
    Clear c (BaseRoutine.run.adjust3 values) :=
  clear_append.mpr ⟨clear_take hvalues _, clear_replicate (by simp) _⟩

@[grind .] theorem baseRoutine_alike {r : BaseRoutine} (hr : r ≠ .load) {arguments : List Value}
    (harguments : Clear c arguments) : Alike c (r.run invoke arguments) (r.run invoke' arguments) := by
  have hgiven := clear_given harguments
  have hnext := routineValue_alike (c := c) (H := H) (W := W) (r := .base .next) (by simp) trivial
  have hstep := routineValue_alike (c := c) (H := H) (W := W) (r := .base .ipairsStep) (by simp) trivial
  unfold BaseRoutine.run
  cases r with
  | collectgarbage =>
    refine .bind (textOr_alike _ _ _) fun option _ => ?_
    dsimp only
    split
    case h_1 v hv => exact .pure (clear_cons.mpr ⟨clear_collectorAnswer hv, clear_nil⟩)
    case h_2 => exact raiseArgument_alike _ _
  | pairs =>
    refine .bind (anyArgument_alike harguments 1) fun t ht => .bind (metafield_alike _ _) fun f hf => ?_
    have hcall := hinvoke.clear none f [t] hf (by grind)
    cases f <;> grind
  | pcall =>
    cases arguments with
    | nil => exact raise_alike (by simp)
    | cons f rest =>
      obtain ⟨hf, hrest⟩ := clear_cons.mp harguments
      refine .bind (protect_alike (hinvoke.clear none f rest hf hrest)) fun outcome houtcome => ?_
      cases outcome <;> grind
  | xpcall =>
    match arguments, harguments with
    | f :: handler :: rest, harguments =>
      obtain ⟨hf, hothers⟩ := clear_cons.mp harguments
      obtain ⟨hhandler, hrest⟩ := clear_cons.mp hothers
      refine .bind (protect_alike (hinvoke.clear none f rest hf hrest)) fun outcome houtcome => ?_
      cases outcome <;> grind
    | [], _ => exact raise_alike (by simp)
    | [_], _ => exact raise_alike (by simp)
  | _ => grind

omit hinvoke in
@[grind .] theorem clear_failed {e : Value} (he : Clear c e) : Clear c (failed e) := by
  simpa [failed] using he

omit hinvoke in
/-- What is done with a source once it has been read. -/
theorem loadText_source_alike {arguments : List Value} (harguments : Clear c arguments)
    (name : ByteArray) (mode : String) {source : Except Value ByteArray} (hsource : Clear c source) :
    Alike c (do
      match source with
      | .error e => return failed e
      | .ok source =>
        match Chunk.compile name mode source with
        | .error refusal => return failed (.ofString refusal.message)
        | .ok f =>
          let environment ← match given? arguments 4 with
            | some v => pure v
            | none => pure (.table (← get).globals)
          return [← newChunk name f environment] : Run H W (List Value)) (do
      match source with
      | .error e => return failed e
      | .ok source =>
        match Chunk.compile name mode source with
        | .error refusal => return failed (.ofString refusal.message)
        | .ok f =>
          let environment ← match given? arguments 4 with
            | some v => pure v
            | none => pure (.table (← get).globals)
          return [← newChunk name f environment]) := by
  have hgiven := clear_given? harguments 4
  have hchunk (f : Function) (environment : Value) (henvironment : Clear c environment) :
      Alike c (do return [← newChunk name f environment] : Run H W (List Value))
        (do return [← newChunk name f environment]) := by grind
  cases source with
  | error e => exact .pure (clear_failed (clear_error.mp hsource))
  | ok source =>
    dsimp only
    split
    · exact .pure (clear_failed (by simp))
    · split <;> grind

/-- Compiling asks nothing of calls beyond the pieces of the source. -/
theorem loadText_alike {arguments : List Value} (harguments : Clear c arguments) :
    Alike c (loadText invoke arguments) (loadText invoke' arguments) := by
  have hsource (name : ByteArray) (mode : String) (source : Except Value ByteArray)
      (h : Clear c source) := loadText_source_alike (H := H) (W := W) harguments name mode h
  refine .bind (textOr_alike _ _ _) fun mode _ => .bind (textOr_alike _ _ _) fun name _ => ?_
  dsimp only
  split
  · exact .bind (.pure (clear_ok.mpr (clear_of_inert _))) (hsource name _)
  · split
    · refine .bind (protect_alike (readPieces_alike hinvoke ?_)) (hsource name _)
      exact clear_given harguments 1
    · exact .bind (raiseArgumentType_alike _ _ _) (hsource name _)

@[grind .] theorem replacement_alike (text : ByteArray) (m : Pattern.Match) {substitute : Value}
    (hsubstitute : Clear c substitute) :
    Alike c (replacement invoke text m substitute) (replacement invoke' text m substitute) := by
  unfold replacement
  split
  · refine .bind (ofPattern_alike (clear_capture _ _ _)) fun key hkey => ?_
    refine .bind (index_alike hinvoke hsubstitute hkey _) fun v _ => ?_
    grind
  · refine .bind (ofPattern_alike (clear_values _ _ _)) fun captures hcaptures => ?_
    refine .bind (.map (hinvoke.clear _ _ _ hsubstitute hcaptures) fun values hvalues => ?_)
      fun v _ => ?_
    · exact clear_headD hvalues (by simp)
    · grind
  · refine .bind (.map (expandReplacement_alike _ _ _ _) fun s _ => by simp) fun v _ => ?_
    grind

@[grind .] theorem replaceMatch_alike (text : ByteArray) (pattern : List UInt8) {substitute : Value}
    (hsubstitute : Clear c substitute) (r : Replacing) :
    Alike c (replaceMatch invoke text pattern substitute r)
      (replaceMatch invoke' text pattern substitute r) := by
  refine .bind (ofPattern_alike (clear_of_inert _)) fun found _ => ?_
  cases found with
  | none => exact .pure (clear_of_inert _)
  | some found =>
    dsimp only
    split
    · exact .pure (clear_of_inert _)
    · exact .bind (replacement_alike hinvoke text _ hsubstitute) fun _ _ => .pure (clear_of_inert _)

@[grind .] theorem replaceFrom_alike (text : ByteArray) (isAnchored : Bool) (pattern : List UInt8)
    {substitute : Value} (hsubstitute : Clear c substitute) (limit : Int) (r : Replacing) :
    Alike c (replaceFrom invoke text isAnchored pattern substitute limit r)
      (replaceFrom invoke' text isAnchored pattern substitute limit r) := by
  unfold replaceFrom
  grind

@[grind .] theorem replaceMatches_alike {arguments : List Value} (harguments : Clear c arguments) :
    Alike c (replaceMatches invoke arguments) (replaceMatches invoke' arguments) := by
  have hsubstitute := clear_given harguments 3
  have hloop (text : ByteArray) (isAnchored : Bool) (pattern : List UInt8) (limit : Int) :=
    Alike.repeatFrom (fun r _ => replaceFrom_alike hinvoke text isAnchored pattern hsubstitute limit r)
      budget (s := ⟨0, none, 0, .empty⟩) (clear_of_inert _)
  refine .bind (textArgument_alike _ _) fun text _ => .bind (textArgument_alike _ _) fun pattern _ => ?_
  dsimp only
  have hrest (isAnchored : Bool) (pattern : List UInt8) (limit : Int) :=
    Alike.map (hloop text isAnchored pattern limit)
      (f := fun done => [Value.text (done.written ++ text.extract done.place text.size),
        .int (.ofNat done.count)]) fun _ _ => by grind
  simp only [map_eq_pure_bind] at hrest
  split <;> first
    | exact .bind (integerOr_alike _ _ _) fun limit _ => hrest _ _ limit
    | exact .bind (raiseArgumentType_alike _ _ _) fun _ _ =>
        .bind (integerOr_alike _ _ _) fun limit _ => hrest _ _ limit

@[grind .] theorem textArithmetic_alike (event : String) {arguments : List Value}
    (harguments : Clear c arguments) :
    Alike c (textArithmetic invoke event arguments) (textArithmetic invoke' event arguments) := by
  have ha := clear_given harguments 1
  have hb := clear_given harguments 2
  unfold textArithmetic
  dsimp only
  split
  case h_1 x y hx hy =>
    have hx := clear_of_ofValue? (c := c) hx
    have hy := clear_of_ofValue? (c := c) hy
    grind
  case h_2 =>
    split
    · grind
    · refine .bind (metafield_alike _ _) fun own hown => ?_
      have hcall := callEvent_alike hinvoke event hown
        (clear_cons.mpr ⟨ha, clear_cons.mpr ⟨hb, clear_nil⟩⟩)
      split
      · grind
      · exact .bind hcall fun v hv => .pure (clear_cons.mpr ⟨hv, clear_nil⟩)

@[grind .] theorem formatOne_alike {arguments : List Value} (harguments : Clear c arguments)
    (position : Nat) (d : Format.Directive) :
    Alike c (formatOne invoke arguments position d) (formatOne invoke' arguments position d) := by
  have hgiven := anyArgument_alike (H := H) (W := W) harguments position
  unfold formatOne
  dsimp only
  split
  case isTrue =>
    refine .bind (raiseForCaller_alike _) fun _ _ => ?_
    split <;> grind
  case isFalse => split <;> grind

@[grind .] theorem formatFrom_alike {arguments : List Value} (harguments : Clear c arguments)
    (fuel : Nat) (s : List UInt8) (position : Nat) (acc : ByteArray) :
    Alike c (formatFrom invoke arguments fuel s position acc)
      (formatFrom invoke' arguments fuel s position acc) := by
  induction fuel generalizing s position acc with
  | zero => exact .pure (clear_of_inert _)
  | succ fuel ih =>
    have hone := formatOne_alike hinvoke harguments
    unfold formatFrom
    split
    · exact .pure (clear_of_inert _)
    · exact ih _ _ _
    · refine .bind ?_ fun _ _ => .bind (hone _ _) fun _ _ => ih _ _ _
      grind
    · exact ih _ _ _

@[grind .] theorem textRoutine_alike {r : TextRoutine}
    (hr : Clear c (Callable.routine (.text r) : Callable H)) {arguments : List Value}
    (harguments : Clear c arguments) : Alike c (r.run invoke arguments) (r.run invoke' arguments) := by
  unfold TextRoutine.run
  cases r with
  | byte =>
    refine .bind (textArgument_alike _ _) fun s _ => .bind (integerOr_alike _ _ _) fun first _ => ?_
    refine .bind (integerOr_alike _ _ _) fun last _ => .pure fun v hv => ?_
    obtain ⟨b, -, rfl⟩ := List.mem_map.mp hv
    simp
  | gmatch =>
    refine .bind (textArgument_alike _ _) fun text _ => .bind (textArgument_alike _ _) fun pattern _ => ?_
    refine .bind (integerOr_alike _ _ _) fun start _ => newVariable_alike (by simp) fun state hstate => ?_
    refine newVariable_alike (by simp) fun _ _ => .bind (newFunction_alike ?_) fun f hf => ?_
    · exact hstate
    · exact .pure (clear_cons.mpr ⟨hf, clear_nil⟩)
  | matchStep text pattern state => exact nextMatch_alike text pattern hr
  | _ => grind

/-! ## Functions on sequences -/

omit hinvoke in
@[grind .] theorem checkSequence_alike (arguments : List Value) (position : Nat)
    (events : List String) :
    Alike c (checkSequence arguments position events : Run H W Unit)
      (checkSequence arguments position events) := by
  unfold checkSequence
  grind

@[grind .] theorem sequenceLength_alike {v : Value} (hv : Clear c v) :
    Alike c (sequenceLength invoke v) (sequenceLength invoke' v) := by
  unfold sequenceLength
  grind

@[grind .] theorem item_alike {t : Value} (ht : Clear c t) (i : Int) :
    Alike c (item invoke t i) (item invoke' t i) := by
  grind [item]

@[grind .] theorem setItem_alike {t : Value} (ht : Clear c t) (i : Int) {v : Value} (hv : Clear c v) :
    Alike c (setItem invoke t i v) (setItem invoke' t i v) := by
  grind [setItem]

@[grind .] theorem concatItems_alike {arguments : List Value} (harguments : Clear c arguments) :
    Alike c (concatItems invoke arguments) (concatItems invoke' arguments) := by
  refine .bind (checkSequence_alike _ _ _) fun _ _ => ?_
  refine .bind (sequenceLength_alike hinvoke (clear_given harguments 1)) fun size _ => ?_
  refine .bind (textOr_alike _ _ _) fun separator _ => ?_
  refine .bind (integerOr_alike _ _ _) fun start _ => .bind (integerOr_alike _ _ _) fun stop _ => ?_
  have hitem := item_alike hinvoke (clear_given harguments 1)
  refine .repeatFrom (fun s _ => ?_) _ (clear_of_inert _)
  grind

@[grind .] theorem moveItems_alike {source target : Value} (hsource : Clear c source)
    (htarget : Clear c target) (first last place : Int) :
    Alike c (moveItems invoke source target first last place)
      (moveItems invoke' source target first last place) := by
  unfold moveItems
  grind

@[grind .] theorem insertItem_alike {arguments : List Value} (harguments : Clear c arguments) :
    Alike c (insertItem invoke arguments) (insertItem invoke' arguments) := by
  have hgiven := clear_given harguments
  refine .bind (checkSequence_alike _ _ _) fun _ _ => ?_
  refine .bind (sequenceLength_alike hinvoke (hgiven 1)) fun size _ => ?_
  dsimp only
  split
  · grind
  · refine .bind (integerArgument_alike _ _) fun place _ => ?_
    grind
  · grind

@[grind .] theorem removeItem_alike {arguments : List Value} (harguments : Clear c arguments) :
    Alike c (removeItem invoke arguments) (removeItem invoke' arguments) := by
  have hgiven := clear_given harguments
  refine .bind (checkSequence_alike _ _ _) fun _ _ => ?_
  refine .bind (sequenceLength_alike hinvoke (hgiven 1)) fun size _ => ?_
  refine .bind (integerOr_alike _ _ _) fun place _ => ?_
  grind

/-- The values between two positions, once these are known. -/
theorem alike_unpacked {t : Value} (ht : Clear c t) (start stop : Int) :
    Alike c (do
      if start > stop then return []
      if stop - start ≥ 1000000 then raiseForCaller "too many results to unpack"
      let values ← repeatFrom (fun (s : Int × List Value) => do
        if s.1 > stop then return .inr s.2
        return .inl (s.1 + 1, (← item invoke t s.1) :: s.2)) budget (start, [])
      return values.reverse : Run H W (List Value)) (do
      if start > stop then return []
      if stop - start ≥ 1000000 then raiseForCaller "too many results to unpack"
      let values ← repeatFrom (fun (s : Int × List Value) => do
        if s.1 > stop then return .inr s.2
        return .inl (s.1 + 1, (← item invoke' t s.1) :: s.2)) budget (start, [])
      return values.reverse) := by
  have hvalues (step step' : Int × List Value → Run H W ((Int × List Value) ⊕ List Value))
      (hstep : ∀ s, Clear c s → Alike c (step s) (step' s)) := Alike.map (f := List.reverse)
    (Alike.repeatFrom hstep budget (s := (start, [])) (by grind)) fun _ h => clear_reverse h
  simp only [map_eq_pure_bind] at hvalues
  split
  · exact .pure clear_nil
  · split
    · refine .bind (raiseForCaller_alike _) fun _ _ => hvalues _ _ fun s hs => ?_
      grind
    · refine hvalues _ _ fun s hs => ?_
      grind

@[grind .] theorem unpackItems_alike {arguments : List Value} (harguments : Clear c arguments) :
    Alike c (unpackItems invoke arguments) (unpackItems invoke' arguments) := by
  have hgiven := clear_given harguments
  refine .bind (integerOr_alike _ _ _) fun start _ => ?_
  dsimp only
  split
  · refine .bind (sequenceLength_alike hinvoke (hgiven 1)) fun stop _ => ?_
    exact alike_unpacked hinvoke (hgiven 1) start stop
  · refine .bind (integerOr_alike _ _ _) fun stop _ => ?_
    exact alike_unpacked hinvoke (hgiven 1) start stop

omit hinvoke in
@[grind .] theorem mergeItems_alike {isBelow isBelow' : Value → Value → Run H W Bool}
    (hbelow : ∀ a b, Clear c a → Clear c b → Alike c (isBelow a b) (isBelow' a b)) (fuel : Nat)
    {a b : List Value} (ha : Clear c a) (hb : Clear c b) :
    Alike c (mergeItems isBelow fuel a b) (mergeItems isBelow' fuel a b) := by
  induction fuel generalizing a b with
  | zero => exact .pure (clear_append.mpr ⟨ha, hb⟩)
  | succ fuel ih =>
    cases a with
    | nil => exact .pure hb
    | cons x a =>
      cases b with
      | nil => exact .pure ha
      | cons y b =>
        have hfirst := ih (clear_cons.mp ha).2 hb
        have hsecond := ih ha (clear_cons.mp hb).2
        unfold mergeItems
        grind

omit hinvoke in
@[grind .] theorem sortItems_alike {isBelow isBelow' : Value → Value → Run H W Bool}
    (hbelow : ∀ a b, Clear c a → Clear c b → Alike c (isBelow a b) (isBelow' a b)) (fuel : Nat)
    {l : List Value} (hl : Clear c l) :
    Alike c (sortItems isBelow fuel l) (sortItems isBelow' fuel l) := by
  induction fuel generalizing l with
  | zero => exact .pure hl
  | succ fuel ih =>
    have hfirst := ih (clear_take hl (l.length / 2))
    have hsecond := ih (clear_drop hl (l.length / 2))
    unfold sortItems
    grind

@[grind .] theorem sortSequence_alike {arguments : List Value} (harguments : Clear c arguments) :
    Alike c (sortSequence invoke arguments) (sortSequence invoke' arguments) := by
  have hgiven := clear_given harguments
  refine .bind (checkSequence_alike _ _ _) fun _ _ => ?_
  refine .bind (sequenceLength_alike hinvoke (hgiven 1)) fun size _ => ?_
  split
  case isTrue =>
    have hlist : Clear c [given arguments 1, .int 1, .int (.ofInt size)] := by grind
    have hbelow (a b : Value) (ha : Clear c a) (hb : Clear c b) := below_alike hinvoke ha hb false
    have hcall (f a b : Value) (hf : Clear c f) (ha : Clear c a) (hb : Clear c b) : Alike c
        (do return ((← invoke none f [a, b]).headD .nil).isTrue : Run H W Bool)
        (do return ((← invoke' none f [a, b]).headD .nil).isTrue) := by grind
    have hset (i : Int) (v : Value) (hv : Clear c v) : Alike c
        (do setItem invoke (given arguments 1) i v; return i + 1)
        (do setItem invoke' (given arguments 1) i v; return i + 1) := by grind
    have hsort (isBelow isBelow' : Value → Value → Run H W Bool)
        (h : ∀ a b, Clear c a → Clear c b → Alike c (isBelow a b) (isBelow' a b)) :=
      Alike.bind (unpackItems_alike hinvoke hlist) fun values hvalues =>
        .bind (sortItems_alike h values.length hvalues) fun sorted hsorted =>
          .discard (.foldlM (s := (1 : Int)) (clear_of_inert _) hsorted fun i v _ hv => hset i v hv)
    have horder := hgiven 2
    dsimp only
    split
    · refine hsort _ _ fun a b ha hb => ?_
      grind
    · refine hsort _ _ fun a b ha hb => ?_
      grind
    · refine .bind (.discard (raiseArgumentType_alike _ _ _)) fun _ _ => hsort _ _ fun a b ha hb => ?_
      grind
  case isFalse => exact .pure (clear_of_inert _)

@[grind .] theorem sequenceRoutine_alike (r : SequenceRoutine) {arguments : List Value}
    (harguments : Clear c arguments) : Alike c (r.run invoke arguments) (r.run invoke' arguments) := by
  have hgiven := clear_given harguments
  cases r with
  | move =>
    refine .bind (integerArgument_alike _ _) fun first _ => ?_
    refine .bind (integerArgument_alike _ _) fun last _ => ?_
    refine .bind (integerArgument_alike _ _) fun place _ => ?_
    refine .bind (checkSequence_alike _ _ _) fun _ _ => ?_
    refine .bind (checkSequence_alike _ _ _) fun _ _ => ?_
    grind
  | pack =>
    refine .bind (newTable_alike (Table.clear_withSizes _ _)) fun id _ => ?_
    refine .bind (modifyTable_alike id fun t ht => ?_) fun _ _ => .pure (by simp)
    exact Table.clear_setText (Table.clear_setItems ht harguments 1) "n" (by simp)
  | _ => unfold SequenceRoutine.run; grind

/-- The standard library is alike for ways of calling that are. -/
theorem routine_alike {r : Routine} (hr : r ≠ .base .load)
    (hclear : Clear c (Callable.routine r : Callable H)) {arguments : List Value}
    (harguments : Clear c arguments) : Alike c (r.run invoke arguments) (r.run invoke' arguments) := by
  cases r <;> grind [Routine.run]

end Calls

end Run
end Sandbox.Script
