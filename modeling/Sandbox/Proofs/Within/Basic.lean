import Sandbox.Proofs.Script.Growth
import Sandbox.Script.Machine

/-!
# What runs do to machines

`Run.Within R act` says that a run leaves a machine that is related to the one before, whether it ends
well or not. A relation is `Permissive` if it permits everything that the engine itself does to a machine:
to change tables in ways that leave them sound, and to make new objects. A run is within such a relation
as soon as its parts are.
-/

namespace Sandbox.Script

variable {H W : Type} {α β σ : Type}

/-- The relation permits what the engine does to a machine, one thing after the other. -/
structure Permissive (R : Machine H W → Machine H W → Prop) : Prop where
  refl : ∀ m, R m m
  trans : ∀ {a b c}, R a b → R b c → R a c
  table : ∀ (m : Machine H W) (id : Nat) (f : Table → Table), (∀ t, t.Sound → (f t).Sound) →
    R m { m with tables := m.tables.modify id f }
  newTable : ∀ (m : Machine H W) (t : Table), t.Sound → R m { m with tables := m.tables.push t }
  function : ∀ (m : Machine H W) (f : Callable H), R m { m with functions := m.functions.push f }
  locals : ∀ (m : Machine H W) (locals : Array Value), R m { m with locals }
  fault : ∀ (m : Machine H W) (f : Fault), R m { m with faults := m.faults.push f }
  others : ∀ (m : Machine H W) (others : Nat), R m { m with others }
  frames : ∀ (m : Machine H W) (frames : List Frame), R m { m with frames }

namespace Run

/-- The machine that a run leaves. -/
def left (act : Run H W α) (m : Machine H W) : Machine H W :=
  match act.run m with
  | .ok _ m' => m'
  | .error _ m' => m'

theorem left_bind_ok {act : Run H W α} {next : α → Run H W β} {m m' : Machine H W} {a : α}
    (h : act.run m = .ok a m') : (act >>= next).left m = (next a).left m' := by
  unfold left
  rw [EStateM.run_bind, h]

/-- Whatever machine it starts from, the run leaves one that is related to it. -/
def Within (R : Machine H W → Machine H W → Prop) (act : Run H W α) : Prop := ∀ m, R m (act.left m)

theorem Within.of_ok {R : Machine H W → Machine H W → Prop} {act : Run H W α} (h : Within R act)
    {m m' : Machine H W} {a : α} (hrun : act.run m = .ok a m') : R m m' := by
  have hleft := h m
  rwa [left, hrun] at hleft

theorem Within.of_error {R : Machine H W → Machine H W → Prop} {act : Run H W α} (h : Within R act)
    {m m' : Machine H W} {stop : Stop} (hrun : act.run m = .error stop m') : R m m' := by
  have hleft := h m
  rwa [left, hrun] at hleft

/-- Whatever is called, the call is within the relation. -/
structure Calls (R : Machine H W → Machine H W → Prop) (invoke : Invoke H W) : Prop where
  within : ∀ site f arguments, Within R (invoke site f arguments)

attribute [grind cases] Calls

section Permissive

variable {R : Machine H W → Machine H W → Prop} (hR : Permissive R)

include hR

/-! ## Sequences -/

namespace Within

@[grind .] theorem pure (a : α) : Within R (pure a : Run H W α) := fun m => hR.refl m

@[grind .] theorem get : Within R (get : Run H W (Machine H W)) := fun m => hR.refl m

@[grind .] theorem throw (stop : Stop) : Within R (throw stop : Run H W α) := fun m => hR.refl m

@[grind .] theorem bind {act : Run H W α} {next : α → Run H W β} (hact : Within R act)
    (hnext : ∀ a, Within R (next a)) : Within R (act >>= next) := by
  intro m
  unfold left
  rw [EStateM.run_bind]
  cases hrun : act.run m with
  | ok a m' => exact hR.trans (hact.of_ok hrun) (hnext a m')
  | error stop m' => exact hact.of_error hrun

@[grind .] theorem map {act : Run H W α} (f : α → β) (hact : Within R act) :
    Within R (f <$> act) := by
  rw [map_eq_pure_bind]
  exact .bind hR hact fun a => .pure hR _

@[grind .] theorem discard {act : Run H W α} (hact : Within R act) :
    Within R (discard act) := .map hR _ hact

@[grind .] theorem tryCatch {act : Run H W α} {handle : Stop → Run H W α} (hact : Within R act)
    (hhandle : ∀ stop, Within R (handle stop)) : Within R (tryCatch act handle) := by
  intro m
  cases hrun : act.run m with
  | ok a m' =>
    have htry : EStateM.run (MonadExcept.tryCatch act handle) m = .ok a m' := by
      change EStateM.tryCatch act handle m = _
      simp only [EStateM.tryCatch, show act m = _ from hrun]
    rw [left, htry]
    exact hact.of_ok hrun
  | error stop m' =>
    have htry : EStateM.run (MonadExcept.tryCatch act handle) m = (handle stop).run m' := by
      change EStateM.tryCatch act handle m = _
      simp only [EStateM.tryCatch, show act m = _ from hrun]
      rfl
    rw [left, htry]
    exact hR.trans (hact.of_error hrun) (hhandle stop m')

omit hR in
theorem modify {f : Machine H W → Machine H W} (hf : ∀ m, R m (f m)) :
    Within R (modify f : Run H W PUnit) := hf

omit hR in
theorem modifyGet {f : Machine H W → α × Machine H W} (hf : ∀ m, R m (f m).2) :
    Within R (modifyGet f : Run H W α) := hf

omit hR in
/-- What follows may rely on the machine that is there. -/
theorem of_get {next : Machine H W → Run H W α} (hnext : ∀ m, R m ((next m).left m)) :
    Within R (MonadState.get >>= next) := hnext

/-! ## Lists -/

@[grind .] theorem mapM {f : α → Run H W β} (hf : ∀ a, Within R (f a)) (l : List α) :
    Within R (l.mapM f) := by
  induction l with
  | nil => exact .pure hR []
  | cons a rest ih =>
    rw [List.mapM_cons]
    exact .bind hR (hf a) fun b => .bind hR ih fun bs => .pure hR _

@[grind .] theorem forM {f : α → Run H W PUnit} (hf : ∀ a, Within R (f a)) (l : List α) :
    Within R (l.forM f) := by
  induction l with
  | nil => exact .pure hR _
  | cons a rest ih => exact .bind hR (hf a) fun _ => ih

@[grind .] theorem foldlM {f : σ → α → Run H W σ} (hf : ∀ s a, Within R (f s a)) (s : σ) (l : List α) :
    Within R (l.foldlM f s) := by
  induction l generalizing s with
  | nil => exact .pure hR s
  | cons a rest ih => exact .bind hR (hf s a) ih

@[grind .] theorem anyM {f : α → Run H W Bool} (hf : ∀ a, Within R (f a)) (l : List α) :
    Within R (l.anyM f) := by
  induction l with
  | nil => exact .pure hR false
  | cons a rest ih =>
    rw [List.anyM]
    refine .bind hR (hf a) fun b => ?_
    cases b
    · exact ih
    · exact .pure hR true

/-! ## Loops -/

@[grind .] theorem repeatFrom {step : σ → Run H W (σ ⊕ α)} (hstep : ∀ s, Within R (step s)) (n : Nat)
    (s : σ) : Within R (repeatFrom step n s) := by
  induction n generalizing s with
  | zero => exact .throw hR _
  | succ n ih =>
    rw [Run.repeatFrom]
    refine .bind hR (hstep s) fun r => ?_
    cases r with
    | inl s => exact ih s
    | inr a => exact .pure hR a

end Within

/-! ## Objects -/

@[grind .] theorem raise_within (error : Value) : Within R (raise error : Run H W α) :=
  .throw hR _

@[grind .] theorem table_within (id : Nat) : Within R (table id : Run H W Table) :=
  .bind hR (.get hR) fun _ => .pure hR _

theorem modifyTable_within (id : Nat) {f : Table → Table} (hf : ∀ t, t.Sound → (f t).Sound) :
    Within R (modifyTable id f : Run H W Unit) := .modify fun m => hR.table m id f hf

theorem newTable_within {t : Table} (ht : t.Sound) : Within R (newTable t : Run H W Nat) :=
  .modifyGet fun m => hR.newTable m t ht

@[grind .] theorem newFunction_within (f : Callable H) : Within R (newFunction f : Run H W Value) :=
  .modifyGet fun m => hR.function m f

@[grind .] theorem newVariable_within (v : Value) : Within R (newVariable v : Run H W Nat) :=
  .modifyGet fun m => hR.locals m _

@[grind .] theorem variableValue_within (id : Nat) : Within R (variableValue id : Run H W Value) :=
  .bind hR (.get hR) fun _ => .pure hR _

@[grind .] theorem setVariable_within (id : Nat) (v : Value) :
    Within R (setVariable id v : Run H W Unit) := .modify fun m => hR.locals m _

@[grind .] theorem newFault_within (f : Fault) : Within R (newFault f : Run H W Value) :=
  .modifyGet fun m => hR.fault m f

@[grind .] theorem newObject_within (kind : Nat → Value) :
    Within R (newObject kind : Run H W Value) := .modifyGet fun m => hR.others m _

@[grind .] theorem fail_within (f : Fault) : Within R (fail f : Run H W α) :=
  .bind hR (newFault_within hR f) fun e => raise_within hR e

@[grind .] theorem rawGet_within (id : Nat) (key : Value) : Within R (rawGet id key : Run H W Value) := by
  have htouch := modifyTable_within hR id fun _ ht => ht.touch key
  exact .bind hR (table_within hR id) fun _ => .bind hR htouch fun _ => .pure hR _

@[grind .] theorem rawField_within (id : Nat) (key : String) :
    Within R (rawField id key : Run H W Value) :=
  .bind hR (table_within hR id) fun _ => .pure hR _

@[grind .] theorem setField_within (id : Nat) (key : String) (v : Value) :
    Within R (setField id key v : Run H W Unit) :=
  modifyTable_within hR id fun _ ht => ht.setText key v

/-! ## Frames -/

@[grind .] theorem inFrame_within (frame : Frame) {act : Run H W α} (hact : Within R act) :
    Within R (inFrame frame act) :=
  .bind hR (.modify fun m => hR.frames m _) fun _ => .bind hR hact fun a =>
    .bind hR (.modify fun m => hR.frames m _) fun _ => .pure hR a

@[grind .] theorem protect_within {act : Run H W α} (hact : Within R act) :
    Within R (protect act) := by
  refine .bind hR (.get hR) fun m => .tryCatch hR (.map hR _ hact) fun stop => ?_
  cases stop with
  | raised e => exact .bind hR (.modify fun m => hR.frames m _) fun _ => .pure hR _
  | exhausted => exact .throw hR _

@[grind .] theorem atLine_within (line : Nat) : Within R (atLine line : Run H W Unit) := by
  refine .modify fun m => ?_
  split
  · exact hR.frames m _
  · exact hR.refl m

@[grind .] theorem placeOf_within (level : Nat) : Within R (placeOf level : Run H W String) := by
  refine .bind hR (.get hR) fun m => ?_
  split
  · exact .pure hR _
  · exact .pure hR _

@[grind .] theorem raiseAt_within (level : Nat) (text : String) :
    Within R (raiseAt level text : Run H W α) :=
  .bind hR (placeOf_within hR level) fun _ => raise_within hR _

@[grind .] theorem raiseText_within (text : String) : Within R (raiseText text : Run H W α) :=
  raiseAt_within hR 0 text

@[grind .] theorem raiseForCaller_within (text : String) :
    Within R (raiseForCaller text : Run H W α) := raiseAt_within hR 1 text

end Permissive

end Run
end Sandbox.Script
