import Sandbox.Proofs.Module.Order

/-!
# Modules that are made once

A host works on a session, operation by operation, and scripts ask for modules in the course of it.
`Session.Reached` holds of the machines that come up, and their histories are orderly. Where nobody but
`require` touches the table of modules, a module that somebody has got is what everybody gets from then
on, until a function of that module that is still running returns.
-/

namespace Sandbox

open Script Script.Run

namespace Module

/-- The tables have the same fields. -/
def SameFields (s t : Table) : Prop := ∀ name, t.getText name = s.getText name

/-- The table of modules as require leaves it at an event. -/
def Event.left? : Event → Option Table
  | .asked _ t | .answered _ _ t => some t
  | .returned name result t => some (t.settled name result)
  | _ => none

/-- The table of modules never has a metatable, and each look at it finds the fields that require has
left there, from a table with the fields of this one on. -/
def UntouchedSince (last : Table) : List Event → Prop
  | [] => True
  | e :: rest =>
    (∀ t, e.look? = some t → t.metatable = none ∧ SameFields last t) ∧
      UntouchedSince (e.left?.getD last) rest

/-- Nobody but require touches the table of modules. -/
def Untouched (events : List Event) : Prop := ∃ start, UntouchedSince start events

variable {name : String} {v : Value} {s t : Table} {e : Event} {before between after : List Event}

/-- Behind some events that leave the table of modules untouched, the order goes on. -/
theorem Orderly.behind (h : Orderly (before ++ after)) (huntouched : UntouchedSince s (before ++ after)) :
    Orderly after ∧ ∃ last, UntouchedSince last after := by
  induction before generalizing s with
  | nil => exact ⟨h, s, huntouched⟩
  | cons e rest ih =>
    rcases h with ⟨t, hlook, hmeta⟩ | ⟨-, hrest⟩
    · exact absurd (huntouched.1 t hlook).1 hmeta
    · exact ih hrest huntouched.2

theorem Orderly.follows (h : Orderly (e :: after)) (huntouched : UntouchedSince s (e :: after)) :
    Follows e after := by
  rcases h with ⟨t, hlook, hmeta⟩ | ⟨hfollows, -⟩
  · exact absurd (huntouched.1 t hlook).1 hmeta
  · exact hfollows

/-- A module stays in the table of modules as long as no function of it returns. -/
theorem Orderly.getText_eq (h : Orderly (between ++ .asked name t :: after))
    (huntouched : UntouchedSince s (between ++ .asked name t :: after))
    (hreturned : ∀ result t, .returned name result t ∉ between) : t.getText name = s.getText name := by
  induction between generalizing s with
  | nil => exact (huntouched.1 t rfl).2 name
  | cons e rest ih =>
    have hfollows := h.follows huntouched
    obtain ⟨hlook, hrest⟩ := huntouched
    have hstays : (e.left?.getD s).getText name = s.getText name := by
      cases e with
      | asked other u | answered other w u => exact (hlook u rfl).2 name
      | consulted other searcher | called other loader label => rfl
      | returned other result u =>
        have hne : name ≠ other := fun heq => hreturned result u (by simp [heq])
        exact (hfollows.1.getText_settled_of_ne hne result).trans ((hlook u rfl).2 name)
    rw [← hstays]
    exact ih (h.resolve_left fun ⟨u, hu, hmeta⟩ => hmeta (hlook u hu).1).2 hrest
      fun result u hmem => hreturned result u (List.mem_cons_of_mem _ hmem)

end Module

namespace Session

variable {E : Type} {extension : Extension E} {m : Machine (Service E) World}

/-- A machine that comes up in the life of a session: at its start, after an operation of the host, or
after a change of the world from outside. -/
inductive Reached (extension : Extension E) : Machine (Service E) World → Prop
  | start {w : World} (hhistory : w.history = []) : Reached extension (.fresh w)
  | operate {m : Machine (Service E) World} (h : Reached extension m) (op : Operation E) :
      Reached extension (op.left extension m)
  | outside {m : Machine (Service E) World} (h : Reached extension m) {w : World}
      (hhistory : w.history = m.world.history) : Reached extension { m with world := w }

theorem Reached.after (h : Reached extension m) (ops : List (Operation E)) :
    Reached extension (ops.foldl (Operation.left extension) m) := by
  induction ops generalizing m with
  | nil => exact h
  | cons op rest ih => exact ih (h.operate op)

/-- Every session that has been created has such a machine. -/
theorem reached_of_create {e : Environment E} {s : Session E} (hs : create extension e = .ok s)
    (hhistory : e.world.history = []) : Reached extension s.machine := by
  obtain ⟨failures, hrun⟩ := runOn_of_create hs
  have hleft : (Operation.setUp e.searchPath e.hostLibraries e.preInit).left extension
      (.fresh e.world) = s.machine := congrArg Prod.snd hrun
  rw [← hleft]
  exact .operate (.start hhistory) _

/-- A machine with nothing but a table of global variables and a table of modules. -/
def blank (w : World) : Machine (Service E) World := { tables := #[{}, {}], loaded := 1, world := w }

theorem sound_blank (w : World) : (blank w : Machine (Service E) World).Sound := by
  refine ⟨by simp [blank], fun id => ?_⟩
  have hempty : (blank w : Machine (Service E) World).tableAt id = {} := by
    match id with
    | 0 | 1 => rfl
    | n + 2 => simp [blank, Machine.tableAt]
  rw [hempty]
  exact Table.sound_empty

/-- Without an event, the standard library is put into a machine that has the two tables. -/
theorem adds_fresh (w : World) : Module.Adds (· = []) (blank w : Machine (Service E) World) (.fresh w) := by
  have hR := Module.hosting_adds (H := Service E) (P := (· = [])) rfl fun a b ha hb => by simp [ha, hb]
  have hP := hR.toPermissive
  have hS := hR.toServing
  have hglobals : (newTable {} : Run (Service E) World Nat).run { world := w } =
      .ok 0 { tables := #[{}], world := w } := rfl
  have hloaded : (newTable {} : Run (Service E) World Nat).run { tables := #[{}], world := w } =
      .ok 1 { tables := #[{}, {}], world := w } := rfl
  have hmodify : (modify fun m => { m with globals := 0, loaded := 1 } : Run (Service E) World Unit).run
      { tables := #[{}, {}], world := w } = .ok () (blank w) := rfl
  have hfresh : (Machine.fresh w : Machine (Service E) World) = left Library.install { world := w } := by
    unfold Machine.fresh left
    cases Library.install.run { world := w } <;> rfl
  rw [hfresh, Library.install, left_bind_ok hglobals, left_bind_ok hloaded, left_bind_ok hmodify]
  refine Within.bind hP (Setup.publish_within hS _ _) (fun _ => ?_) (blank w)
  refine .bind hP (setField_within hP _ _ _) fun _ => ?_
  refine .bind hP (Setup.setRoutines_within hS _ _) fun _ => ?_
  refine .bind hP (.discard hP (newFunction_within hP _)) fun _ => ?_
  refine .bind hP (Setup.newModule_within hS _ _) fun _ => ?_
  refine .bind hP (.discard hP (Setup.newModule_within hS _ _)) fun _ => ?_
  refine .bind hP (Setup.newModule_within hS _ _) fun _ => ?_
  refine .bind hP (Setup.setFields_within hS _ _) fun _ => ?_
  refine .bind hP (Setup.newModule_within hS _ _) fun _ => ?_
  refine .bind hP (Setup.setFields_within hS _ _) fun _ => ?_
  refine .bind hP (newTable_within hP Table.sound_empty) fun _ => ?_
  refine .bind hP (Setup.setRoutines_within hS _ _) fun _ => ?_
  refine .bind hP (setField_within hP _ _ _) fun _ => .modify fun m => ?_
  exact .of_same rfl (fun h => ⟨h.loaded, h.tables⟩) rfl

/-- The machine at the start has sound tables and the history of its world. -/
theorem sound_fresh (w : World) :
    (Machine.fresh w : Machine (Service E) World).Sound ∧
      (Machine.fresh w : Machine (Service E) World).world.history = w.history := by
  obtain ⟨hsound, events, hevents, hnone⟩ := adds_fresh (E := E) w
  have hblank := sound_blank (E := E) w
  refine ⟨hsound hblank, ?_⟩
  rw [hevents, hnone hblank, List.append_nil]
  rfl

theorem Reached.sound_and_orderly (h : Reached extension m) :
    m.Sound ∧ Module.Orderly m.world.history := by
  induction h with
  | @start w hhistory =>
    obtain ⟨hsound, heq⟩ := sound_fresh (E := E) w
    rw [heq, hhistory]
    exact ⟨hsound, trivial⟩
  | @operate m h op ih =>
    have hinvoke := invoke_within (R := Module.Adds Module.Orderly) Module.hosting_orderly.toWriting
      (fun hinvoke tables name => Module.require_orderly hinvoke tables) extension
    obtain ⟨hsound, events, hevents, horderly⟩ :=
      op.left_within Module.hosting_orderly.toServing hinvoke m
    rw [hevents]
    exact ⟨hsound ih.1, ih.2.append (horderly ih.1)⟩
  | outside h hhistory ih =>
    refine ⟨⟨ih.1.loaded, ih.1.tables⟩, ?_⟩
    rw [hhistory]
    exact ih.2

/-- What a function of a module has returned is the module at once, or else what it has put in its place,
or else true. And where somebody has got a module other than false, whoever asks for it gets the same at
once, until a function of the module returns. -/
theorem require_once (h : Reached extension m) (huntouched : Module.Untouched m.world.history) :
    (∀ before name result t after, m.world.history = before ++ .returned name result t :: after →
      ∃ t' later, after = .answered name
        (if result.isNil then t.fieldOr name (.bool true) else result) t' :: later) ∧
    ∀ before name v t between t' after,
      m.world.history = before ++ .answered name v t :: (between ++ .asked name t' :: after) →
      v ≠ .bool false → (∀ result t, .returned name result t ∉ between) →
      ∃ later, after = .answered name v t' :: later := by
  obtain ⟨start, huntouched⟩ := huntouched
  have horderly := h.sound_and_orderly.2
  constructor
  · intro before name result t after hsplit
    rw [hsplit] at horderly huntouched
    obtain ⟨hnow, last, hlast⟩ := horderly.behind huntouched
    obtain ⟨ht, later, rfl⟩ := hnow.follows hlast
    exact ⟨_, later, by rw [ht.getText_settled]⟩
  · intro before name v t between t' after hsplit hfalse hreturned
    rw [hsplit] at horderly huntouched
    obtain ⟨hnow, last, hlast⟩ := horderly.behind huntouched
    obtain ⟨hv, hnil⟩ := hnow.follows hlast
    have hbetween := (hnow.resolve_left fun ⟨u, hu, hmeta⟩ => hmeta (hlast.1 u hu).1).2
    have hsame : t'.getText name = v := (hbetween.getText_eq hlast.2 hreturned).trans hv
    obtain ⟨hasked, last', hlast'⟩ := hbetween.behind hlast.2
    have htrue : (t'.getText name).isTrue := by
      rw [hsame]
      unfold Value.isTrue
      split <;> simp_all
    obtain ⟨later, rfl⟩ := hasked.follows hlast' htrue
    exact ⟨later, by rw [hsame]⟩

/-! ## Where a module is made again -/

/-- A module is false, and the function of another one asks for this very module the first time. -/
def wayward : String :=
  "local calls = 0\n" ++
  "package.preload.off = function() return false end\n" ++
  "package.preload.twice = function(name)\n" ++
  "  calls = calls + 1\n" ++
  "  if calls == 1 then require(name) return 1 end\n" ++
  "  return 2\n" ++
  "end\n"

/-- The machine of a session with these modules, after some operations. -/
def waywardAfter (ops : List (Operation Empty)) : Machine (Service Empty) World :=
  (.setUp SearchPath.standard [] [] :: .exec "=wayward" wayward :: ops).foldl (Operation.left nofun)
    (.fresh { storage := {}, store := .memory 0 })

theorem reached_waywardAfter (ops : List (Operation Empty)) : Reached nofun (waywardAfter ops) :=
  (Reached.start rfl).after _

/-- The events where both modules are asked for twice, from a table of modules on. -/
def waywardEvents (t : Table) : List Module.Event :=
  let t₁ := t.settled "off" (.bool false)
  let t₂ := t₁.settled "off" (.bool false)
  let t₃ := t₂.settled "twice" (.int 2)
  let t₄ := t₃.settled "twice" (.int 1)
  [.asked "off" t, .consulted "off" .preload, .called "off" (.function 92) ":preload:",
    .returned "off" (.bool false) t, .answered "off" (.bool false) t₁,
    .asked "off" t₁, .consulted "off" .preload, .called "off" (.function 92) ":preload:",
    .returned "off" (.bool false) t₁, .answered "off" (.bool false) t₂,
    .asked "twice" t₂, .consulted "twice" .preload, .called "twice" (.function 93) ":preload:",
    .asked "twice" t₂, .consulted "twice" .preload, .called "twice" (.function 93) ":preload:",
    .returned "twice" (.int 2) t₂, .answered "twice" (.int 2) t₃,
    .returned "twice" (.int 1) t₃, .answered "twice" (.int 1) t₄,
    .asked "twice" t₄, .answered "twice" (.int 1) t₄]

theorem untouched_waywardEvents {t : Table} (h : t.metatable = none) :
    Module.Untouched (waywardEvents t) := by
  refine ⟨t, ?_⟩
  simp [waywardEvents, Module.UntouchedSince, Module.Event.look?, Module.Event.left?, Module.SameFields, h]

set_option maxRecDepth 10000 in
theorem waywardAfter_requires : (waywardAfter []).modules.metatable = none ∧
    (waywardAfter [.require "off", .require "off", .require "twice", .require "twice"]).world.history =
      waywardEvents (waywardAfter []).modules := by
  decide +kernel

/-- The machine after both modules have been asked for twice. -/
def waywardEnd : Machine (Service Empty) World :=
  waywardAfter [.require "off", .require "off", .require "twice", .require "twice"]

/-- Once the outer function of the module has returned, everybody gets what it has returned. -/
theorem require_once_of_wayward :
    let events := waywardEnd.world.history
    Reached nofun waywardEnd ∧ Module.Untouched events ∧ Value.int 1 ≠ .bool false ∧
      ∃ t, events = events.take 19 ++
          .answered "twice" (.int 1) t :: ([] ++ .asked "twice" t :: events.drop 21) ∧
        (∀ result t, .returned "twice" result t ∉ ([] : List Module.Event)) ∧
        ∃ later, events.drop 21 = .answered "twice" (.int 1) t :: later := by
  obtain ⟨hmeta, hhistory⟩ := waywardAfter_requires
  have hreached : Reached nofun waywardEnd := reached_waywardAfter _
  have huntouched : Module.Untouched waywardEnd.world.history := by
    rw [waywardEnd, hhistory]
    exact untouched_waywardEvents hmeta
  obtain ⟨t, hsplit⟩ : ∃ t, waywardEnd.world.history = waywardEnd.world.history.take 19 ++
      .answered "twice" (.int 1) t :: ([] ++ .asked "twice" t :: waywardEnd.world.history.drop 21) := by
    rw [waywardEnd, hhistory]
    exact ⟨_, rfl⟩
  exact ⟨hreached, huntouched, by decide, t, hsplit, by simp,
    (require_once hreached huntouched).2 _ _ _ _ _ _ _ hsplit (by decide) (by simp)⟩

/-- A module that is false is made again for whoever asks for it, and where a function of a module is
still running, what it returns takes the place of the module that somebody has got. -/
theorem not_require_once : Reached nofun waywardEnd ∧ Module.Untouched waywardEnd.world.history ∧
    (∃ before t between t' after, waywardEnd.world.history =
        before ++ .answered "off" (.bool false) t :: (between ++ .asked "off" t' :: after) ∧
      ¬∃ later, after = .answered "off" (.bool false) t' :: later) ∧
    ∃ before t between t' after, waywardEnd.world.history =
        before ++ .answered "twice" (.int 2) t :: (between ++ .asked "twice" t' :: after) ∧
      ¬∃ later, after = .answered "twice" (.int 2) t' :: later := by
  obtain ⟨hmeta, hhistory⟩ := waywardAfter_requires
  refine ⟨reached_waywardAfter _, ?_, ?_, ?_⟩
  · rw [waywardEnd, hhistory]
    exact untouched_waywardEvents hmeta
  · rw [waywardEnd, hhistory]
    refine ⟨(waywardEvents _).take 4, _, [], _, (waywardEvents _).drop 6, rfl, ?_⟩
    rintro ⟨later, h⟩
    simp [waywardEvents] at h
  · rw [waywardEnd, hhistory]
    refine ⟨(waywardEvents _).take 17, _, ((waywardEvents _).drop 18).take 2, _,
      (waywardEvents _).drop 21, rfl, ?_⟩
    rintro ⟨later, h⟩
    simp [waywardEvents] at h

end Session
end Sandbox
