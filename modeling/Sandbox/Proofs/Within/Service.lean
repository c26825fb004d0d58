import Sandbox.Proofs.Exchange.Outcome
import Sandbox.Proofs.Service.Output
import Sandbox.Proofs.Within.Library
import Sandbox.Session.Basic

/-!
# Sessions within a relation

What the services of a session do to a machine, and with that what its operations do. Besides what an
engine does, a relation for sessions permits that the input is read and that records are logged. What
`print` and `require` do is left open. A relation that permits any change of the output permits what
`print` does, and so does one that permits any change of the world that leaves the history of the module
system.
-/

namespace Sandbox

open Script Script.Run

variable {H E α β : Type}

/-- The relation permits what an engine does, that the input is read and that a record is logged. -/
structure Serving (R : Machine H World → Machine H World → Prop) : Prop extends Permissive R where
  input : ∀ (m : Machine H World) (input : Input), R m { m with world.input := input }
  log : ∀ (m : Machine H World) (severity : Severity) (message : String)
    (fields : List (String × Datum)),
    R m { m with world.log := m.world.log.add severity message fields }

/-- The relation permits this and any change of the output. -/
structure Writing (R : Machine H World → Machine H World → Prop) : Prop extends Serving R where
  output : ∀ (m : Machine H World) (output : Output), R m { m with world.output := output }

/-- The relation permits what an engine does, and all changes of the world but for its history. -/
structure Hosting (R : Machine H World → Machine H World → Prop) : Prop extends Permissive R where
  world : ∀ (m : Machine H World) (w : World), w.history = m.world.history → R m { m with world := w }

theorem Hosting.toWriting {R : Machine H World → Machine H World → Prop} (hR : Hosting R) :
    Writing R :=
  { hR with
    input := fun m _ => hR.world m _ rfl
    log := fun m _ _ _ => hR.world m _ rfl
    output := fun m _ => hR.world m _ rfl }

theorem Hosting.toServing {R : Machine H World → Machine H World → Prop} (hR : Hosting R) :
    Serving R := hR.toWriting.toServing

section Machine

variable {W : Type} {R : Machine H W → Machine H W → Prop} (hR : Permissive R)

include hR

/-! ## Exchanges -/

namespace Exchange

theorem pure_within (a : α) : Within R (pure a : Exchanging H W α).run := .pure hR _

theorem throw_within (e : Error) : Within R (throw e : Exchanging H W α).run := .pure hR _

theorem bind_within {act : Exchanging H W α} {next : α → Exchanging H W β}
    (hact : Within R act.run) (hnext : ∀ a, Within R (next a).run) :
    Within R (act >>= next).run := by
  rw [ExceptT.run_bind]
  refine .bind hR hact fun r => ?_
  cases r with
  | ok a => exact hnext a
  | error e => exact .pure hR _

theorem lift_within {act : Run H W α} (hact : Within R act) :
    Within R (monadLift act : Exchanging H W α).run := .map hR _ hact

theorem mapM_within {f : α → Exchanging H W β} (hf : ∀ a, Within R (f a).run)
    (l : List α) : Within R (l.mapM f).run := by
  induction l with
  | nil => exact pure_within hR []
  | cons a rest ih =>
    rw [List.mapM_cons]
    exact bind_within hR (hf a) fun b => bind_within hR ih fun bs => pure_within hR _

theorem liftExcept_within (r : Except Error α) :
    Within R (pullTable.liftExcept r : Exchanging H W α).run := by
  cases r with
  | ok a => exact pure_within hR a
  | error e => exact throw_within hR e

/-! ### To scripts -/

mutual

theorem push_within : (d : Datum) → Within R (push d : Exchanging H W Value).run
  | .null | .bool _ | .int _ | .float _ | .text _ => by
    unfold push
    exact pure_within hR _
  | .foreign _ => by
    unfold push
    exact throw_within hR _
  | .list items => by
    unfold push
    exact bind_within hR (lift_within hR (newTable_within hR (Table.sound_withSizes _ _))) fun id =>
      bind_within hR (pushItems_within id 1 items) fun _ => pure_within hR _
  | .record fields => by
    unfold push
    exact bind_within hR (lift_within hR (newTable_within hR (Table.sound_withSizes _ _))) fun id =>
      bind_within hR (pushFields_within id fields) fun _ => pure_within hR _

theorem pushItems_within (id index : Nat) :
    (items : List Datum) → Within R (pushItems id index items : Exchanging H W Unit).run
  | [] => by
    unfold pushItems
    exact pure_within hR _
  | item :: rest => by
    unfold pushItems
    refine bind_within hR (push_within item) fun v => bind_within hR (lift_within hR ?_) fun _ =>
      pushItems_within id (index + 1) rest
    exact modifyTable_within hR id fun _ ht => ht.setIndex index v

theorem pushFields_within (id : Nat) :
    (fields : List (String × Datum)) → Within R (pushFields id fields : Exchanging H W Unit).run
  | [] => by
    unfold pushFields
    exact pure_within hR _
  | (key, item) :: rest => by
    unfold pushFields
    exact bind_within hR (push_within item) fun v =>
      bind_within hR (lift_within hR (setField_within hR id key v)) fun _ => pushFields_within id rest

end

/-! ### From scripts -/

theorem makeList_within (id : Nat) (length : Int) (items : List (Int × Datum)) :
    Within R (makeList id length items : Exchanging H W Datum).run := by
  refine bind_within hR (lift_within hR (rawLength_within hR id)) fun border => ?_
  dsimp only
  split
  · split
    · exact bind_within hR (throw_within hR _) fun _ => pure_within hR _
    · exact pure_within hR _
  · exact pure_within hR _

section Calls

variable {invoke : Invoke H W} (hinvoke : Calls R invoke)

include hinvoke

theorem lengthOf_within (id : Nat) : Within R (lengthOf invoke id).run := by
  refine bind_within hR (lift_within hR (table_within hR id)) fun t => ?_
  refine bind_within hR (lift_within hR (guarded_within hR hinvoke ?_)) fun measured => ?_
  · grind
  · cases measured with
    | ok n => exact pure_within hR _
    | error fault => exact throw_within hR _

theorem pullTable_within (depth id : Nat) : Within R (pullTable invoke depth id).run := by
  induction depth generalizing id with
  | zero => exact throw_within hR _
  | succ depth ih =>
    have hinner (v : Value) : Within R (pullInner invoke depth v).run := by
      unfold pullInner
      split
      · exact ih _
      · exact liftExcept_within hR _
    have hitem (length : Int) (entry : Value × Value) :
        Within R (pullItem invoke depth length entry).run := by
      refine bind_within hR (liftExcept_within hR _) fun i => ?_
      dsimp only
      split
      · exact bind_within hR (throw_within hR _) fun _ => bind_within hR (hinner _) fun _ =>
          pure_within hR _
      · exact bind_within hR (hinner _) fun _ => pure_within hR _
    have hfield (entry : Value × Value) : Within R (pullField invoke depth entry).run :=
      bind_within hR (liftExcept_within hR _) fun key => bind_within hR (hinner _) fun _ =>
        pure_within hR _
    rw [pullTable_succ]
    refine bind_within hR (lengthOf_within hR hinvoke id) fun length => ?_
    refine bind_within hR (lift_within hR (table_within hR id)) fun t => ?_
    split
    · exact bind_within hR (mapM_within hR (hitem length) _) fun items => makeList_within hR id _ items
    · exact bind_within hR (mapM_within hR hfield _) fun _ => pure_within hR _

theorem pullArgument_within (v : Value) : Within R (pullArgument invoke v).run := by
  unfold pullArgument
  split
  case h_1 => exact pure_within hR _
  case h_2 => exact pullTable_within hR hinvoke _ _
  case h_8 =>
    split
    · exact pure_within hR _
    · exact throw_within hR _
  all_goals exact pure_within hR _

theorem pullValue_within (v : Value) : Within R (pullValue invoke v).run := by
  unfold pullValue
  split
  · exact pullTable_within hR hinvoke _ _
  · exact throw_within hR _

end Calls

end Exchange

end Machine

/-! ## Services -/

section Host

variable {R : Machine H World → Machine H World → Prop} (hR : Serving R)

include hR

namespace Chunk

@[grind .] theorem instantiate_within (name : String) (compiled : Except Refusal Function) (scope : Value) :
    Within R (instantiate name compiled scope : Run H World (Except LoadError Loaded)) := by
  have hR := hR.toPermissive
  unfold instantiate
  grind

@[grind .] theorem load_within (name : String) (source : ByteArray) (scope : Value) :
    Within R (load name source scope : Run H World (Except LoadError Loaded)) := by
  have hP := hR.toPermissive
  unfold load
  grind

@[grind .] theorem loadSource_within (file : SourceFile) :
    Within R (loadSource file : Run H World (Except LoadError Loaded)) := by
  have hP := hR.toPermissive
  unfold loadSource
  grind

@[grind .] theorem readInput_within : Within R (readInput : Run H World _) := by
  refine .of_get fun m => ?_
  split
  · exact hR.refl m
  · exact hR.input m _

@[grind .] theorem readFile_within (file : String) : Within R (readFile file : Run H World _) := by
  have hP := hR.toPermissive
  unfold readFile
  grind

@[grind .] theorem loadFile_within (file mode : Option String) (scope : Value) :
    Within R (loadFile file mode scope : Run H World (Except LoadError Loaded)) := by
  have hP := hR.toPermissive
  unfold loadFile
  grind

end Chunk

namespace Service

@[grind .] theorem loadFileFor_within (arguments : List Value) :
    Within R (loadFileFor arguments : Run H World (List Value)) := by
  have hP := hR.toPermissive
  unfold loadFileFor
  grind

@[grind .] theorem searchPathFor_within (arguments : List Value) :
    Within R (searchPathFor arguments : Run H World (List Value)) := by
  have hP := hR.toPermissive
  unfold searchPathFor
  grind

@[grind .] theorem loadLibraryFor_within (arguments : List Value) :
    Within R (loadLibraryFor arguments : Run H World (List Value)) := by
  have hP := hR.toPermissive
  unfold loadLibraryFor
  grind

@[grind .] theorem origin?_within : Within R (origin? : Run H World (Option String)) := by
  have hP := hR.toPermissive
  grind [origin?]

@[grind .] theorem addRecord_within (severity : Severity) (message : String)
    (fields : List (String × Datum)) :
    Within R (addRecord severity message fields : Run H World Unit) :=
  .modify fun m => hR.log m severity message fields

@[grind .] theorem exchanged_within {act : Exchange.Exchanging H World α} (hact : Within R act.run) :
    Within R (exchanged act : Run H World α) := by
  have hP := hR.toPermissive
  grind [exchanged]

@[grind .] theorem readFor_within {ε : Type} (parse : String → Except ε Datum) (message : ε → String)
    (arguments : List Value) : Within R (readFor parse message arguments : Run H World _) := by
  have hP := hR.toPermissive
  have hpush (d : Datum) := exchanged_within hR (Exchange.push_within (H := H) hP d)
  unfold readFor
  grind

section Calls

variable {invoke : Invoke H World} (hinvoke : Calls R invoke)

include hinvoke

@[grind .] theorem textBy_within (f v : Value) : Within R (textBy invoke f v) := by
  have hP := hR.toPermissive
  unfold textBy
  grind

@[grind .] theorem runFileFor_within (arguments : List Value) :
    Within R (runFileFor invoke arguments) := by
  have hP := hR.toPermissive
  unfold runFileFor
  grind

@[grind .] theorem recordFields_within (parameters : Option Nat) :
    Within R (recordFields invoke parameters) := by
  have hP := hR.toPermissive
  have hpull (id : Nat) := Exchange.pullTable_within hP hinvoke Exchange.depthLimit id
  unfold recordFields
  grind [Exchange.pull]

@[grind .] theorem logFor_within (arguments : List Value) : Within R (logFor invoke arguments) := by
  have hP := hR.toPermissive
  refine .bind hP (orFail_within hP _) fun level => .bind hP (orFail_within hP _) fun message => ?_
  refine .bind hP (orFail_within hP _) fun parameters => ?_
  grind

end Calls

end Service

/-! ## Modules -/

theorem Searcher.foundIn_within (name file : String) (loaded : Except Chunk.LoadError Chunk.Loaded) :
    Within R (foundIn name file loaded : Run H World Finding) := by
  have hP := hR.toPermissive
  unfold foundIn
  grind

section Calls

variable {invoke : Invoke H World} (hinvoke : Calls R invoke)

include hinvoke

theorem Searcher.search_within (tables : ModuleTables) (name : String) (s : Searcher) :
    Within R (s.search invoke tables name) := by
  have hP := hR.toPermissive
  cases s with
  | preload =>
    refine .bind hP (hostField_within hP hinvoke _ _) fun v => ?_
    cases v <;> grind
  | library =>
    refine .bind hP (.get hP) fun m => ?_
    split
    · exact .pure hP _
    · exact .bind hP (Chunk.loadSource_within hR _) (foundIn_within hR _ _)
  | path =>
    have hpath : Within R (currentPath invoke tables) := by
      refine .bind hP (hostField_within hP hinvoke _ _) fun v => ?_
      cases v <;> grind
    have hstored (file : String) : Within R (loadStored file : Run H World _) := by
      unfold loadStored
      grind
    refine .bind hP hpath fun path => .bind hP (.get hP) fun m => ?_
    dsimp only
    split
    · exact .pure hP _
    · exact .bind hP (hstored _) (foundIn_within hR _ _)

end Calls

end Host

/-! ## Sessions -/

namespace Service

/-- What a service does is within a relation as soon as what is left open is. -/
theorem run_within {R : Machine (Service E) World → Machine (Service E) World → Prop} (hR : Serving R)
    (extension : Extension E) {invoke : Invoke (Service E) World} (hinvoke : Calls R invoke)
    (hprint : ∀ values, Within R (printLine invoke values))
    (hrequire : ∀ tables name, Within R (Module.require invoke tables name)) (s : Service E)
    (values : List Value) : Within R (s.run extension invoke values) := by
  have hP := hR.toPermissive
  have hpush {d : Datum} := exchanged_within hR (Exchange.push_within (H := Service E) hP d)
  have hmany {values : List Value} := exchanged_within hR
    (Exchange.mapM_within hP (Exchange.pullArgument_within hP hinvoke) values)
  have hvalue {v : Value} := exchanged_within hR (Exchange.pullValue_within hP hinvoke v)
  cases s with
  | print => exact hprint values
  | require tables =>
    exact .bind hP (orFail_within hP _) fun name =>
      .bind hP (hrequire tables name) fun v => .pure hP _
  | yamlText => exact .bind hP hmany fun _ => .pure hP _
  | jsonText => exact .bind hP hvalue fun _ => .pure hP _
  | _ => unfold run; grind

section Writing

variable {R : Machine H World → Machine H World → Prop} (hR : Writing R)

include hR

theorem write_within (bytes : ByteArray) : Within R (write bytes : Run H World Unit) := by
  intro m
  have hfail (fault : Fault) (m : Machine H World) := fail_within (α := Unit) hR.toPermissive fault m
  cases hheld : m.world.output.isHeld with
  | false =>
    unfold left
    rw [write_run hheld]
    cases m.world.output.write bytes with
    | ok output => exact hR.output m output
    | error flaw => exact hfail _ m
  | true =>
    unfold left
    rw [write_run_of_held hheld]
    exact hR.trans (hR.output m { m.world.output with clashes := m.world.output.clashes + 1 })
      (hfail _ _)

theorem printLine_within {invoke : Invoke H World} (hinvoke : Calls R invoke) (values : List Value) :
    Within R (printLine invoke values) := by
  have hP := hR.toPermissive
  have htext (f : Value) := textBy_within hR.toServing hinvoke f
  refine .bind hP (.get hP) fun m => .bind hP (hostField_within hP hinvoke _ _) fun v => ?_
  refine .bind hP (orFail_within hP _) fun f => .bind hP (.mapM hP (htext f) values) fun texts => ?_
  exact .bind hP (write_within hR _) fun _ => .pure hP _

end Writing

end Service

namespace Session

variable {R : Machine (Service E) World → Machine (Service E) World → Prop}

/-- All calls in a session, to whatever depth they may call on, are within a relation for sessions that
permits what `print` and `require` do. -/
theorem call_within (hR : Serving R) (extension : Extension E)
    (hprint : ∀ depth, Calls R ((engine extension).call depth) →
      ∀ values, Within R (Service.printLine ((engine extension).call depth) values))
    (hrequire : ∀ {invoke : Invoke (Service E) World}, Calls R invoke →
      ∀ tables name, Within R (Module.require invoke tables name)) (depth : Nat) :
    Calls R ((engine extension).call depth) := by
  refine Engine.call_within hR.toPermissive (fun depth hcall => ?_) (fun depth hcall => ?_) depth
  · exact routine_within hR.toPermissive hcall
  · exact Service.run_within hR extension hcall (hprint depth hcall) (hrequire hcall)

/-- All calls in a session are within a relation for sessions that permits all changes of the output and
what `require` does. -/
theorem invoke_within (hR : Writing R)
    (hrequire : ∀ {invoke : Invoke (Service E) World}, Calls R invoke →
      ∀ tables name, Within R (Module.require invoke tables name)) (extension : Extension E) :
    Calls R (engine extension).invoke :=
  call_within hR.toServing extension (fun _ hcall => Service.printLine_within hR hcall) hrequire _

end Session

end Sandbox
