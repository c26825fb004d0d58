import Sandbox.Proofs.Script.Call
import Sandbox.Proofs.Within.Evaluation

/-!
# The limit of nested calls

Where calls that are not from scripts are nested as deep as may be, a function of the host can call nothing
any more. Each call raises an error text and leaves the machine as it is, and so does the metamethod that
would give the error another text, so the host always gets a fault.
-/

namespace Sandbox.Script

variable {H W α β : Type} {m m' : Machine H W}

namespace Machine

/-- The running function is one of the host. -/
def IsHosted (m : Machine H W) : Prop := ∃ f rest, m.frames = f :: rest ∧ f.chunk = none

/-- A function of the host runs and may call nothing any more. -/
structure IsFull (m : Machine H W) : Prop where
  hosted : m.IsHosted
  full : Engine.nestingLimit ≤ m.nesting

theorem IsHosted.of_frames (h : m.IsHosted) (hframes : m'.frames = m.frames) : m'.IsHosted := by
  obtain ⟨f, rest, htop, hchunk⟩ := h
  exact ⟨f, rest, hframes.trans htop, hchunk⟩

theorem IsFull.of_frames (h : m.IsFull) (hframes : m'.frames = m.frames) : m'.IsFull := by
  refine ⟨h.hosted.of_frames hframes, ?_⟩
  rw [Machine.nesting, hframes]
  exact h.full

/-- No metatable gives texts another text. -/
def TextsPlain (m : Machine H W) : Prop :=
  ∀ id, m.textMetatable = some id → (m.tableAt id).getText "__tostring" = .nil

end Machine

namespace Run

/-- A run leaves the machine as it is, and if it fails it raises an error text. -/
def OnlyLooks (act : Run H W α) (m : Machine H W) : Prop :=
  (∃ a, act.run m = .ok a m) ∨ ∃ s, act.run m = .error (.raised (.text s)) m

namespace OnlyLooks

theorem pure (a : α) (m : Machine H W) : OnlyLooks (Pure.pure a) m := .inl ⟨a, rfl⟩

theorem get (m : Machine H W) : OnlyLooks (MonadState.get : Run H W (Machine H W)) m := .inl ⟨m, rfl⟩

theorem bind {act : Run H W α} {next : α → Run H W β} (hact : OnlyLooks act m)
    (hnext : ∀ a, OnlyLooks (next a) m) : OnlyLooks (act >>= next) m := by
  rcases hact with ⟨a, hact⟩ | ⟨s, hact⟩
  · rcases hnext a with ⟨b, hnext⟩ | ⟨s, hnext⟩
    · exact .inl ⟨b, (bind_ok hact).trans hnext⟩
    · exact .inr ⟨s, (bind_ok hact).trans hnext⟩
  · exact .inr ⟨s, bind_error hact⟩

end OnlyLooks

theorem raiseAt_run (level : Nat) (text : String) (m : Machine H W) :
    ∃ s, (raiseAt level text : Run H W α).run m = .error (.raised (.text s)) m := by
  have hplace : ∃ place, (placeOf level : Run H W String).run m = .ok place m := by
    rw [placeOf, bind_ok get_run]
    cases m.frames[level]?.bind Frame.place? with
    | none => exact ⟨_, rfl⟩
    | some place => exact ⟨_, rfl⟩
  obtain ⟨place, hplace⟩ := hplace
  exact ⟨_, by rw [raiseAt, bind_ok hplace]; rfl⟩

/-- A function of the host has no place in a script. -/
theorem raiseText_run (hhosted : m.IsHosted) (text : String) :
    (raiseText text : Run H W α).run m = .error (.raised (.ofString text)) m := by
  obtain ⟨f, rest, hframes, hchunk⟩ := hhosted
  have hplace : (placeOf 0 : Run H W String).run m = .ok "" m := by
    rw [placeOf, bind_ok get_run, hframes]
    simp only [List.getElem?_cons_zero, Option.bind_some, Frame.place?, hchunk]
    rfl
  rw [raiseText, raiseAt, bind_ok hplace, String.empty_append]
  rfl

theorem onlyLooks_raiseAt (level : Nat) (text : String) (m : Machine H W) :
    OnlyLooks (raiseAt level text : Run H W α) m := .inr (raiseAt_run level text m)

theorem onlyLooks_metafield (v : Value) (field : String) (m : Machine H W) :
    OnlyLooks (metafield v field : Run H W Value) m := by
  refine .bind ?_ fun metatable => ?_
  · unfold metatable?
    split
    · exact .inl ⟨_, rfl⟩
    · exact .inl ⟨_, rfl⟩
    · exact .pure _ m
  · cases metatable with
    | none => exact .pure _ m
    | some id => exact .inl ⟨_, rfl⟩

theorem onlyLooks_typeNameOf (v : Value) (m : Machine H W) :
    OnlyLooks (typeNameOf v : Run H W String) m := by
  unfold typeNameOf
  split
  · refine .bind (onlyLooks_metafield _ _ m) fun name => ?_
    split
    · exact .pure _ m
    · exact .pure _ m
  · exact .pure _ m

end Run

namespace Engine

open Run

variable (engine : Engine H W)

theorem onlyLooks_raiseUncallable (site : Option Site) (f : Value) (m : Machine H W) :
    OnlyLooks (raiseUncallable site f : Run H W α) m :=
  .bind (onlyLooks_typeNameOf f m) fun _ => onlyLooks_raiseAt _ _ m

/-- To find out which function a call calls is to look at metatables. -/
theorem onlyLooks_resolve (site : Option Site) (limit : Nat) (f : Value) (arguments : List Value)
    (m : Machine H W) : OnlyLooks (resolve site limit f arguments : Run H W _) m := by
  fun_induction resolve site limit f arguments with
  | case1 _ id arguments => exact .pure _ m
  | case2 f =>
    rw [discard_bind]
    exact .bind (onlyLooks_metafield _ _ m) fun _ => onlyLooks_raiseUncallable site _ m
  | case3 limit f arguments _ ih =>
    refine .bind (onlyLooks_metafield _ _ m) fun handler => ?_
    split
    · exact .pure _ m
    · exact ih _
    · exact onlyLooks_raiseUncallable site _ m

/-- A function of the host has no direct calls. -/
theorem nestingOf_run_of_hosted (hhosted : m.IsHosted) (site : Option Site) :
    (nestingOf site).run m = (if m.nesting ≥ nestingLimit then raiseText "C stack overflow"
      else return m.nesting + 1 : Run H W Nat).run m := by
  obtain ⟨f, rest, hframes, hchunk⟩ := hhosted
  have hnesting : m.nesting = f.nesting := by simp [Machine.nesting, hframes]
  rw [nestingOf, bind_ok get_run, hframes, hnesting]
  simp [hchunk]

theorem nestingOf_refused (hfull : m.IsFull) (site : Option Site) :
    (nestingOf site).run m = .error (.raised (.ofString "C stack overflow")) m := by
  rw [nestingOf_run_of_hosted hfull.hosted, if_pos hfull.full]
  exact raiseText_run hfull.hosted _

/-- At the limit nothing can be called. -/
theorem call_refused (hfull : m.IsFull) (depth : Nat) (site : Option Site) (f : Value)
    (arguments : List Value) :
    ∃ s, (call engine depth site f arguments).run m = .error (.raised (.text s)) m := by
  cases depth with
  | zero => exact raiseAt_run 0 "stack overflow" m
  | succ depth =>
    rw [call, repeatFrom_budget, bind_assoc]
    rcases onlyLooks_resolve site standInLimit f arguments m with ⟨⟨id, _⟩, hresolve⟩ | ⟨s, hresolve⟩
    · refine ⟨"C stack overflow".toUTF8, ?_⟩
      rw [bind_ok hresolve]
      exact bind_error (bind_error (nestingOf_refused hfull site))
    · exact ⟨s, bind_error hresolve⟩

/-- For a function the error says that this is the limit. -/
theorem call_function_refused (hfull : m.IsFull) (depth : Nat) (site : Option Site) (id : Nat)
    (arguments : List Value) : (call engine (depth + 1) site (.function id) arguments).run m =
      .error (.raised (.ofString "C stack overflow")) m := by
  rw [call_succ]
  exact bind_error (bind_error (nestingOf_refused hfull site))

/-- At the limit the text of a value is not looked for in scripts. -/
theorem onlyLooks_textOf (hfull : m.IsFull) (depth : Nat) (v : Value) :
    OnlyLooks (textOf (call engine depth) v) m := by
  refine .bind (onlyLooks_metafield _ _ m) fun handler => ?_
  split
  · split
    · exact .pure _ m
    · exact .pure _ m
    · exact .bind (.get m) fun _ => .pure _ m
    · split
      · exact .pure _ m
      · exact .bind (onlyLooks_typeNameOf _ m) fun _ => .pure _ m
  · obtain ⟨s, hcall⟩ := call_refused engine hfull depth
      (some ⟨"metamethod", ("__tostring".drop 2).toString⟩) handler [v]
    exact .inr ⟨s, bind_error (bind_error hcall)⟩

/-- At the limit the host makes a fault of every error. -/
theorem faultOf_run (hfull : m.IsFull) (depth tries : Nat) (v : Value) :
    ∃ fault, (faultOf (call engine depth) tries v).run m = .ok fault m := by
  fun_induction faultOf (call engine depth) tries v with
  | case1 => exact ⟨_, rfl⟩
  | case2 => exact ⟨_, rfl⟩
  | case3 tries v _ ih =>
    rcases onlyLooks_textOf engine hfull depth v with ⟨s, htext⟩ | ⟨s, htext⟩
    · rw [bind_ok (protect_ok htext)]
      exact ⟨_, rfl⟩
    · rw [bind_ok (protect_raised htext)]
      exact ih _

theorem textOf_text_run (hplain : m.TextsPlain) (invoke : Invoke H W) (s : ByteArray) :
    (textOf invoke (.text s)).run m = .ok s m := by
  have hmetafield : (metafield (.text s) "__tostring" : Run H W Value).run m = .ok .nil m := by
    have hmetatable : (metatable? (.text s) : Run H W (Option Nat)).run m = .ok m.textMetatable m := rfl
    rw [metafield, bind_ok hmetatable]
    cases hid : m.textMetatable with
    | none => rfl
    | some id => rw [← hplain id hid]; rfl
  exact (bind_ok hmetafield : (textOf invoke (.text s)).run m = _)

/-- What the host makes of the error at the limit. -/
def refusal : Fault := .runtime "C stack overflow"

theorem toTextLossy_refused : .runtime (untilNull "C stack overflow".toUTF8).toTextLossy = refusal := by
  decide +kernel

/-- At the limit a call for the host gives a fault, which is the one of the limit unless texts have got
another text. -/
theorem callGuarded_refused (hfull : m.IsFull) (depth : Nat) (id : Nat) (arguments : List Value) :
    ∃ fault, (callGuarded (call engine (depth + 1)) (.function id) arguments).run m =
      .ok (.error fault) m ∧ (m.TextsPlain → fault = refusal) := by
  have hcall := call_function_refused engine hfull depth none id arguments
  obtain ⟨fault, hfault⟩ := faultOf_run engine hfull (depth + 1) errorTextLimit
    (.ofString "C stack overflow")
  refine ⟨fault, ?_, fun hplain => ?_⟩
  · rw [callGuarded, guarded, bind_ok (protect_raised hcall)]
    exact bind_ok hfault
  · have htext := textOf_text_run hplain (call engine (depth + 1)) "C stack overflow".toUTF8
    have hrun : (faultOf (call engine (depth + 1)) errorTextLimit (.ofString "C stack overflow")).run m =
        .ok (.runtime (untilNull "C stack overflow".toUTF8).toTextLossy) m := bind_ok (protect_ok htext)
    obtain ⟨rfl, -⟩ := EStateM.Result.ok.inj (hfault.symm.trans hrun)
    exact toTextLossy_refused

end Engine
end Sandbox.Script
