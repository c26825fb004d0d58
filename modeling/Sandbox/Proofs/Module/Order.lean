import Sandbox.Proofs.Module.Cache
import Sandbox.Proofs.Within.Module
import Sandbox.Proofs.Within.Session

/-!
# The order of module events

The module system does one thing after the other, whatever scripts do in between: who asks for a module
that is there gets it at once, and what the function of a module has returned is kept and answered at
once. `Module.Orderly` says so of a history, up to the first look at a table of modules that has a
metatable, and `Session.Reached.orderly` that the history of every session is orderly.
-/

namespace Sandbox

open Script Script.Run

variable {H E α : Type}

namespace Script

/-- Modules are kept in a table that is there, and all tables are sound. -/
structure Machine.Sound {W : Type} (m : Machine H W) : Prop where
  loaded : m.loaded < m.tables.size
  tables : ∀ id, (m.tableAt id).Sound

namespace Machine.Sound

variable {m : Machine H World}

theorem noted (h : m.Sound) (event : Module.Event) : (m.noted event).Sound := ⟨h.loaded, h.tables⟩

theorem setModules (h : m.Sound) {t : Table} (ht : t.Sound) : (m.setModules t).Sound := by
  refine ⟨by simpa using h.loaded, fun id => ?_⟩
  by_cases hid : m.loaded = id
  · subst hid
    have hmodules : (m.setModules t).tableAt m.loaded = t := Machine.modules_setModules h.loaded t
    rwa [hmodules]
  · rw [Machine.setModules, Machine.tableAt_setTable_of_ne hid]
    exact h.tables id

end Machine.Sound

namespace Table

/-! ## Results that are kept -/

variable {t : Table}

theorem Sound.put (h : t.Sound) (name : String) (v : Value) : (t.put name v).Sound := by
  unfold Table.put
  split
  · exact h
  · exact h.setText name v

theorem Sound.getText_put (h : t.Sound) (name other : String) (v : Value) :
    (t.put name v).getText other = if other = name ∧ v ≠ .nil then v else t.getText other := by
  unfold Table.put
  cases hnil : v.isNil
  · have hv : v ≠ .nil := fun heq => by simp [heq, Value.isNil] at hnil
    simp [h.getText_setText, hv]
  · simp [Value.isNil_iff.mp hnil]

theorem Sound.settled (h : t.Sound) (name : String) (result : Value) :
    (t.settled name result).Sound := by
  unfold Table.settled Table.withDefault
  split
  · exact (h.put name result).setText name _
  · exact h.put name result

@[simp] theorem metatable_settled (t : Table) (name : String) (result : Value) :
    (t.settled name result).metatable = t.metatable := by
  have hput : (t.put name result).metatable = t.metatable := by
    unfold Table.put
    split
    · rfl
    · exact metatable_setText t name result
  unfold Table.settled Table.withDefault
  split
  · rw [metatable_setText, hput]
  · exact hput

/-- Another module stays when a result is kept. -/
theorem Sound.getText_settled_of_ne (h : t.Sound) {name other : String} (hne : other ≠ name)
    (result : Value) : (t.settled name result).getText other = t.getText other := by
  unfold Table.settled Table.withDefault
  split
  · rw [(h.put name result).getText_setText, if_neg hne, h.getText_put]
    simp [hne]
  · rw [h.getText_put]
    simp [hne]

/-- The module is what its function has returned, or else what is there already, or else true. -/
theorem Sound.getText_settled (h : t.Sound) (name : String) (result : Value) :
    (t.settled name result).getText name =
      if result.isNil then t.fieldOr name (.bool true) else result := by
  have hput := h.getText_put name name result
  unfold Table.settled Table.withDefault Table.fieldOr
  cases hresult : result.isNil
  · have hne : result ≠ .nil := fun heq => by simp [heq, Value.isNil] at hresult
    rw [if_pos ⟨rfl, hne⟩] at hput
    simp [hput, hresult]
  · rw [if_neg fun hand => hand.2 (Value.isNil_iff.mp hresult)] at hput
    rw [hput]
    cases (t.getText name).isNil
    · simpa using hput
    · simp [(h.put name result).getText_setText]

theorem Sound.fieldOr_put (h : t.Sound) (name : String) (result : Value) :
    (t.put name result).fieldOr name (.bool true) = (t.settled name result).getText name := by
  unfold Table.settled Table.withDefault Table.fieldOr
  split
  · rw [(h.put name result).getText_setText, if_pos rfl]
  · rfl

theorem Sound.getText_settled_ne_nil (h : t.Sound) (name : String) (result : Value) :
    (t.settled name result).getText name ≠ .nil := by
  rw [h.getText_settled]
  unfold Table.fieldOr
  intro heq
  split at heq
  · split at heq
    · cases heq
    · simp_all [Value.isNil]
  · simp_all [Value.isNil]

end Table
end Script

namespace Module

/-- The table of modules that an event has looked at. -/
def Event.look? : Event → Option Table
  | .asked _ t | .returned _ _ t | .answered _ _ t => some t
  | _ => none

/-- What stands behind an event, or what an event says. -/
def Follows : Event → List Event → Prop
  | .asked name t, rest =>
    (t.getText name).isTrue → ∃ later, rest = .answered name (t.getText name) t :: later
  | .returned name result t, rest => t.Sound ∧ ∃ later, rest =
      .answered name ((t.settled name result).getText name) (t.settled name result) :: later
  | .answered name v t, _ => t.getText name = v ∧ v ≠ .nil
  | _, _ => True

/-- Modules that are there are answered at once, and so are results of functions of modules. Nothing is
said from the first look at a table with a metatable on. -/
def Orderly : List Event → Prop
  | [] => True
  | e :: rest => (∃ t, e.look? = some t ∧ t.metatable ≠ none) ∨ Follows e rest ∧ Orderly rest

theorem Follows.append {e : Event} {a : List Event} (h : Follows e a) (b : List Event) :
    Follows e (a ++ b) := by
  cases e with
  | asked name t =>
    intro htrue
    obtain ⟨later, rfl⟩ := h htrue
    exact ⟨later ++ b, rfl⟩
  | returned name result t =>
    obtain ⟨hsound, later, rfl⟩ := h
    exact ⟨hsound, later ++ b, rfl⟩
  | answered name v t => exact h
  | _ => trivial

theorem Orderly.append {a b : List Event} (ha : Orderly a) (hb : Orderly b) : Orderly (a ++ b) := by
  induction a with
  | nil => exact hb
  | cons e rest ih => exact ha.imp id fun ⟨hfollows, hrest⟩ => ⟨hfollows.append b, ih hrest⟩

theorem orderly_consulted (name : String) (s : Searcher) : Orderly [.consulted name s] :=
  .inr ⟨trivial, trivial⟩

theorem orderly_called (name label : String) (loader : Value) :
    Orderly [.called name loader label] := .inr ⟨trivial, trivial⟩

/-- A module that is not there is asked for. -/
theorem orderly_absent {name : String} {t : Table} (hfalse : (t.getText name).isTrue = false) :
    Orderly [.asked name t] :=
  .inr ⟨fun htrue => absurd htrue (by simp [hfalse]), trivial⟩

/-- A module that is there is asked for and answered. -/
theorem orderly_present {name : String} {t : Table} (htrue : (t.getText name).isTrue) :
    Orderly [.asked name t, .answered name (t.getText name) t] :=
  .inr ⟨fun _ => ⟨[], rfl⟩, .inr ⟨⟨rfl, fun hnil => by simp [hnil, Value.isTrue] at htrue⟩, trivial⟩⟩

/-- A result is kept and answered. -/
theorem orderly_settled {t : Table} (ht : t.Sound) (name : String) (result : Value) :
    Orderly [.returned name result t,
      .answered name ((t.settled name result).getText name) (t.settled name result)] :=
  .inr ⟨⟨ht, [], rfl⟩, .inr ⟨⟨rfl, ht.getText_settled_ne_nil name result⟩, trivial⟩⟩

/-- The tables remain sound, and the history goes on with events of some kind. -/
structure Adds (P : List Event → Prop) (m m' : Machine H World) : Prop where
  sound : m.Sound → m'.Sound
  history : ∃ events, m'.world.history = m.world.history ++ events ∧ (m.Sound → P events)

section Adds

variable {P : List Event → Prop} {m m' : Machine H World}

/-- To change anything but the tables in a sound way and the history adds no events. -/
theorem Adds.of_same (hnil : P []) (hsound : m.Sound → m'.Sound)
    (hhistory : m'.world.history = m.world.history) : Adds P m m' :=
  ⟨hsound, [], by rw [hhistory, List.append_nil], fun _ => hnil⟩

/-- What is permitted to add no events and to add them in turn is permitted to sessions. -/
theorem hosting_adds (hnil : P []) (happend : ∀ a b, P a → P b → P (a ++ b)) :
    Hosting (Adds P : Machine H World → Machine H World → Prop) where
  refl m := .of_same hnil id rfl
  trans := by
    rintro a b c ⟨hab, before, hbefore, hfirst⟩ ⟨hbc, after, hafter, hsecond⟩
    refine ⟨fun h => hbc (hab h), before ++ after, ?_, fun h => ?_⟩
    · rw [hafter, hbefore, List.append_assoc]
    · exact happend _ _ (hfirst h) (hsecond (hab h))
  table m id f hf := by
    refine .of_same hnil (fun h => ⟨by simpa using h.loaded, fun other => ?_⟩) rfl
    have hother := h.tables other
    simp only [Machine.tableAt, Array.getD_eq_getD_getElem?, Array.getElem?_modify] at hother ⊢
    split
    · cases hget : m.tables[other]? with
      | none => simpa [hget] using hother
      | some t => exact hf t (by simpa [hget] using hother)
    · exact hother
  newTable m t ht := by
    refine .of_same hnil (fun h => ⟨?_, fun other => ?_⟩) rfl
    · have := h.loaded
      simp only [Array.size_push]
      omega
    · have hother := h.tables other
      simp only [Machine.tableAt, Array.getD_eq_getD_getElem?, Array.getElem?_push] at hother ⊢
      split
      · exact ht
      · exact hother
  function m f := .of_same hnil (fun h => ⟨h.loaded, h.tables⟩) rfl
  locals m locals := .of_same hnil (fun h => ⟨h.loaded, h.tables⟩) rfl
  fault m f := .of_same hnil (fun h => ⟨h.loaded, h.tables⟩) rfl
  others m others := .of_same hnil (fun h => ⟨h.loaded, h.tables⟩) rfl
  frames m frames := .of_same hnil (fun h => ⟨h.loaded, h.tables⟩) rfl
  world m w hw := .of_same hnil (fun h => ⟨h.loaded, h.tables⟩) hw

theorem Adds.mono {Q : List Event → Prop} (hPQ : ∀ events, P events → Q events) (h : Adds P m m') :
    Adds Q m m' := by
  obtain ⟨hsound, events, hevents, hP⟩ := h
  exact ⟨hsound, events, hevents, fun h => hPQ _ (hP h)⟩

/-- To note an event is permitted where the event alone is. -/
theorem adds_noted {e : Event} (he : P [e]) : Adds P m (m.noted e) :=
  ⟨fun h => h.noted e, [e], rfl, fun _ => he⟩

end Adds

/-! ## What require adds -/

/-- Any events. -/
def Anything (_ : List Event) : Prop := True

theorem noting_anything : Noting (Adds Anything : Machine H World → Machine H World → Prop) :=
  { (hosting_adds trivial fun _ _ _ _ => trivial).toServing with note := fun _ _ => adds_noted trivial }

theorem hosting_orderly : Hosting (Adds Orderly : Machine H World → Machine H World → Prop) :=
  hosting_adds trivial fun _ _ => .append

/-- A run that begins by noting a look at a table with a metatable may add anything behind it. -/
theorem adds_orderly_of_look {m m' : Machine H World} {e : Event}
    (hlook : e.look? = some m.modules) (hrest : Adds Anything (m.noted e) m')
    (hplain : m.modules.metatable = none → m.Sound → Adds Orderly m m') : Adds Orderly m m' := by
  have hany : Adds Anything m m' := (noting_anything.trans (adds_noted trivial) hrest)
  by_cases hgood : m.modules.metatable = none ∧ m.Sound
  · exact hplain hgood.1 hgood.2
  · obtain ⟨-, more, hmore, -⟩ := hrest
    refine ⟨hany.sound, e :: more, ?_, fun hsound =>
      .inl ⟨m.modules, hlook, fun hmeta => hgood ⟨hmeta, hsound⟩⟩⟩
    rw [hmore, Machine.history_noted, List.append_assoc]
    rfl

section Require

variable {invoke : Invoke H World} {name : String}

/-- The calls may add anything if they may add orderly events. -/
theorem calls_anything (hinvoke : Calls (Adds Orderly) invoke) : Calls (Adds Anything) invoke :=
  ⟨fun site f arguments m => (hinvoke.within site f arguments m).mono fun _ _ => trivial⟩

/-- An answer with the table of modules as it is then. -/
def answer (name : String) (v : Value) : Run H World Value := do
  noteModules (.answered name v)
  return v

theorem left_answer (v : Value) (m : Machine H World) :
    (answer name v).left m = m.noted (.answered name v m.modules) := rfl

theorem answer_within (v : Value) :
    Within (Adds Anything) (answer name v : Run H World Value) :=
  .bind noting_anything.toPermissive (noteModules_within noting_anything _) fun _ =>
    .pure noting_anything.toPermissive v

/-- Keeps a result and answers the module. -/
theorem keepResult_answer_within (hinvoke : Calls (Adds Anything) invoke) (result : Value) :
    Within (Adds Anything) (do
      keepResult invoke name result
      let v ← keptOrTrue invoke name
      answer name v) := by
  have hR := (noting_anything (H := H)).toServing
  exact .bind hR.toPermissive (keepResult_within hR hinvoke _) fun _ =>
    .bind hR.toPermissive (keptOrTrue_within hR hinvoke) answer_within

variable (hinvoke : Calls (Adds Orderly) invoke)

include hinvoke

/-- A result is kept and answered at once. -/
theorem settle_answer_within (result : Value) :
    Within (Adds Orderly) (settle invoke name result >>= answer name) := by
  intro m
  have hfirst : (settle invoke name result >>= answer name).left m = left (do
      keepResult invoke name result
      let v ← keptOrTrue invoke name
      answer name v) (m.noted (.returned name result m.modules)) := by
    rw [settle, bind_assoc, left_bind_ok (noteModules_run _), bind_assoc]
  refine adds_orderly_of_look (e := .returned name result m.modules) rfl ?_ fun hmeta hsound => ?_
  · rw [hfirst]
    exact keepResult_answer_within (calls_anything hinvoke) result _
  have hmodules : m.modules.Sound := hsound.tables m.loaded
  have hsettled := hmodules.settled name result
  rw [left_bind_ok (settle_run hmeta invoke hsound.loaded result), hmodules.fieldOr_put]
  have hleft : (answer name ((m.modules.settled name result).getText name) : Run H World Value).left
      ((m.noted (.returned name result m.modules)).setModules (m.modules.settled name result)) =
      ((m.noted (.returned name result m.modules)).setModules (m.modules.settled name result)).noted
        (.answered name ((m.modules.settled name result).getText name)
          (m.modules.settled name result)) := by
    rw [left_answer, Machine.modules_setModules]
    exact hsound.loaded
  rw [hleft]
  exact ⟨fun _ => ((hsound.noted _).setModules hsettled).noted _,
    [.returned name result m.modules, .answered name ((m.modules.settled name result).getText name)
      (m.modules.settled name result)], by simp, fun _ => orderly_settled hmodules name result⟩

theorem make_answer_within (loader : Value) (label : String) :
    Within (Adds Orderly) (make invoke name loader label >>= answer name) := by
  have hP := (hosting_orderly (H := H)).toPermissive
  have hcalled : Within (Adds Orderly) (note (.called name loader label) : Run H World Unit) :=
    fun _ => adds_noted (orderly_called ..)
  simp only [make, bind_assoc]
  exact .bind hP hcalled fun _ => .bind hP (callGuarded_within hP hinvoke _ _) fun _ =>
    .bind hP (orFail_within hP _) fun _ => settle_answer_within hinvoke _

theorem consult_answer_within (tables : ModuleTables) (searchers : List Searcher) (trail : String) :
    Within (Adds Orderly) (consult invoke tables name searchers trail >>= answer name) := by
  have hP := (hosting_orderly (H := H)).toPermissive
  induction searchers generalizing trail with
  | nil =>
    rw [consult, Run.fail, bind_assoc]
    exact .bind hP (newFault_within hP _) fun v => raise_within hP v
  | cons s rest ih =>
    have hask : Within (Adds Orderly) (ask invoke tables name s) :=
      .bind hP (fun _ => adds_noted (orderly_consulted ..)) fun _ =>
        Searcher.search_within hosting_orderly.toServing hinvoke tables name s
    rw [consult, bind_assoc]
    refine .bind hP hask fun finding => ?_
    cases finding with
    | missing more => exact ih _
    | found loader label => exact make_answer_within hinvoke loader label

/-- What require adds to the history is orderly. -/
theorem require_orderly (tables : ModuleTables) :
    Within (Adds Orderly) (require invoke tables name) := by
  intro m
  have hconsult : Within (Adds Orderly) (consult invoke tables name Searcher.all "" >>= answer name) :=
    consult_answer_within hinvoke tables Searcher.all ""
  have hfirst : (require invoke tables name).left m = left (do
      let v ← kept invoke name
      if v.isTrue then answer name v
      else consult invoke tables name Searcher.all "" >>= answer name)
        (m.noted (.asked name m.modules)) := by
    rw [require, left_bind_ok (noteModules_run _)]
    refine congrArg (fun act => left (kept invoke name >>= act) _) (funext fun v => ?_)
    split <;> rfl
  refine adds_orderly_of_look (e := .asked name m.modules) rfl ?_ fun hmeta hsound => ?_
  · rw [hfirst]
    refine Within.bind noting_anything.toPermissive
      (kept_within noting_anything.toServing (calls_anything hinvoke)) (fun v => ?_) _
    split
    · exact answer_within v
    · exact fun m => (hconsult m).mono fun _ _ => trivial
  · rw [hfirst, left_bind_ok (kept_run (m := m.noted _) hmeta invoke), Machine.modules_noted]
    split
    case isTrue htrue =>
      rw [left_answer]
      exact ⟨fun _ => (hsound.noted _).noted _, [.asked name m.modules, .answered name _ m.modules],
        by simp, fun _ => orderly_present htrue⟩
    case isFalse hfalse =>
      exact hosting_orderly.trans (adds_noted (orderly_absent (by simpa using hfalse))) (hconsult _)

end Require

end Module
end Sandbox
