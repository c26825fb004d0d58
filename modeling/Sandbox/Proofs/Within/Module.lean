import Sandbox.Proofs.Within.Service

/-!
# The module system within a relation

What `require` does besides calling functions: it looks at the table of modules, keeps what the function
of a module has returned, and notes each step. It is within every relation for sessions that permits
notes.
-/

namespace Sandbox

open Script Script.Run

variable {H : Type} {R : Machine H World → Machine H World → Prop}

/-- The relation permits what services do, and that the module system notes a step. -/
structure Noting (R : Machine H World → Machine H World → Prop) : Prop extends Serving R where
  note : ∀ (m : Machine H World) (event : Module.Event),
    R m { m with world.history := m.world.history ++ [event] }

namespace Module

variable {invoke : Invoke H World} {name : String}

/-! ## Modules that are kept -/

section Serving

variable (hR : Serving R) (hinvoke : Calls R invoke)

include hR hinvoke

theorem kept_within : Within R (kept invoke name) := by
  have hP := hR.toPermissive
  unfold kept
  grind

theorem keep_within (v : Value) : Within R (keep invoke name v) := by
  have hP := hR.toPermissive
  unfold keep
  grind

theorem keepResult_within (result : Value) : Within R (keepResult invoke name result) := by
  unfold keepResult
  split
  · exact .pure hR.toPermissive _
  · exact keep_within hR hinvoke result

theorem keptOrTrue_within : Within R (keptOrTrue invoke name) := by
  have hP := hR.toPermissive
  refine .bind hP (kept_within hR hinvoke) fun v => ?_
  split
  · exact .pure hP v
  · exact .bind hP (keep_within hR hinvoke _) fun _ => .pure hP _

end Serving

/-! ## Modules that are made -/

section Noting

variable (hR : Noting R)

include hR

theorem note_within (event : Event) : Within R (note event : Run H World Unit) :=
  .modify fun m => hR.note m event

theorem noteModules_within (event : Table → Event) :
    Within R (noteModules event : Run H World Unit) := by
  have hP := hR.toPermissive
  exact .bind hP (.get hP) fun m => .bind hP (table_within hP _) fun t => note_within hR _

variable (hinvoke : Calls R invoke)

include hinvoke

theorem make_within (loader : Value) (label : String) : Within R (make invoke name loader label) := by
  have hP := hR.toPermissive
  refine .bind hP (note_within hR _) fun _ => .bind hP (callGuarded_within hP hinvoke _ _) fun r => ?_
  refine .bind hP (orFail_within hP _) fun results => .bind hP (noteModules_within hR _) fun _ => ?_
  exact .bind hP (keepResult_within hR.toServing hinvoke _) fun _ =>
    keptOrTrue_within hR.toServing hinvoke

theorem consult_within (tables : ModuleTables) (searchers : List Searcher) (trail : String) :
    Within R (consult invoke tables name searchers trail) := by
  have hP := hR.toPermissive
  induction searchers generalizing trail with
  | nil => exact fail_within hP _
  | cons s rest ih =>
    have hask : Within R (ask invoke tables name s) :=
      .bind hP (note_within hR _) fun _ => Searcher.search_within hR.toServing hinvoke tables name s
    refine .bind hP hask fun finding => ?_
    cases finding with
    | missing more => exact ih _
    | found loader label => exact make_within hR hinvoke loader label

theorem require_within (tables : ModuleTables) : Within R (require invoke tables name) := by
  have hP := hR.toPermissive
  have hanswer (v : Value) : Within R (do noteModules (.answered name v); return v) :=
    .bind hP (noteModules_within hR _) fun _ => .pure hP v
  refine .bind hP (noteModules_within hR _) fun _ =>
    .bind hP (kept_within hR.toServing hinvoke) fun v => ?_
  split
  · exact hanswer v
  · exact .bind hP (consult_within hR hinvoke tables Searcher.all "") hanswer

end Noting

end Module
end Sandbox
