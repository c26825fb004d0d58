import Sandbox.Proofs.Exchange.Reread
import Sandbox.Proofs.Json.RoundTrip
import Sandbox.Proofs.Json.Shape
import Sandbox.Proofs.Service.Parameters

/-!
# Tables as JSON and back

What a script has written as JSON it can read again, as long as no number in floating point is in it and
the reader goes as deep: the table that it gets is read as the first one was. What it has read from JSON
it can write again only if every list in it ends at its border, since nulls at the end of a list can hide
an item from the border that is found.
-/

namespace Sandbox.Service

open Script Exchange

variable {E : Type} {invoke : Invoke (Service E) World} {extension : Extension E}
  {m m' : Machine (Service E) World}

/-! ## Runs of the two services -/

/-- An exchange that has not been raised has a result. -/
theorem yields_of_exchanged {α : Type} {act : Exchanging (Service E) World α} {a : α}
    (h : (exchanged act).run m = .ok a m') : Yields act m (.ok a) m' := by
  rw [exchanged] at h
  obtain ⟨r, m₁, hact, h⟩ := Run.exists_of_bind h
  cases r with
  | error e => cases h
  | ok b =>
    cases h
    exact hact

/-- What is written as JSON is the value of the table. -/
theorem exists_of_jsonText {v : Value} {out : List Value}
    (h : (run extension invoke .jsonText [v]).run m = .ok out m') :
    ∃ d, Yields (pullValue invoke v) m (.ok d) m' ∧ out = [.ofString (Json.render d)] := by
  obtain ⟨d, m₁, hpull, h⟩ := Run.exists_of_bind h
  cases h
  exact ⟨d, yields_of_exchanged hpull, rfl⟩

theorem hostText_ofString (s : String) :
    Value.hostArgument Value.toHostText [.ofString s] 1 = .ok s := by
  rw [Value.hostArgument, List.getD_cons_zero, Value.toHostText_ofString, Except.mapError]

/-- What has been read as JSON is pushed. -/
theorem jsonValue_run {text : String} {d : Datum} {v : Value} (hparse : Json.parse text = .ok d)
    (hpush : Yields (push d) m (.ok v) m') :
    (run extension invoke .jsonValue [.ofString text]).run m = .ok [v] m' := by
  change (readFor Json.parse (·.message) [.ofString text]).run m = _
  have hgiven : (Run.orFail (.ok text) : Run (Service E) World String).run m = .ok text m := rfl
  rw [readFor, hostText_ofString, Run.bind_ok hgiven, hparse]
  exact Run.bind_ok (exchanged_ok hpush)

/-- What a text is read as is the value that it denotes. -/
theorem exists_of_jsonValue {text : String} {v : Value}
    (h : (run extension invoke .jsonValue [.ofString text]).run m = .ok [v] m') :
    ∃ d, Json.parse text = .ok d ∧ Yields (push d) m (.ok v) m' := by
  change (readFor Json.parse (·.message) [.ofString text]).run m = _ at h
  have hgiven : (Run.orFail (.ok text) : Run (Service E) World String).run m = .ok text m := rfl
  rw [readFor, hostText_ofString, Run.bind_ok hgiven] at h
  cases hparse : Json.parse text with
  | error e =>
    rw [hparse] at h
    cases h
  | ok d =>
    rw [hparse] at h
    obtain ⟨v', m₁, hpush, h⟩ := Run.exists_of_bind h
    cases h
    exact ⟨d, rfl, yields_of_exchanged hpush⟩

/-! ## There and back -/

/-- What a service has written as JSON for a table, the other one reads as a table of the same value,
in any machine and with any length functions there, if those of the first machine change no table. -/
theorem jsonValue_jsonText (extension : Extension E) (invoke : Invoke (Service E) World)
    (m m' : Machine (Service E) World) (id : Nat) (text : Value) (haddr : m.Addressable)
    (hkeep : m.LengthsKeep invoke)
    (hwrite : (run extension invoke .jsonText [.table id]).run m = .ok [text] m') :
    ∃ d, Yields (pull invoke id) m (.ok d) m' ∧ (d.FloatFree → d.depth ≤ 127 →
      ∀ (invoke' : Invoke (Service E) World) (n : Machine (Service E) World), ∃ v tables,
        (run extension invoke' .jsonValue [text]).run n = .ok [v] { n with tables } ∧
          Yields (pullValue invoke' v) { n with tables } (.ok d) { n with tables }) := by
  obtain ⟨d, hpull, hout⟩ := exists_of_jsonText hwrite
  obtain rfl := (List.cons.inj hout).1
  refine ⟨d, hpull, fun hfloat hdepth invoke' n => ?_⟩
  obtain ⟨-, -, hcomes⟩ := gives_pullTable hkeep depthLimit id m d m' ⟨.start, haddr⟩ hpull
  obtain ⟨hform, hsolid, -, -⟩ := hcomes.settled.fit
  have hparse : Json.parse (Json.render d) = .ok d :=
    Json.parse_render d hform hsolid.native hfloat (Nat.lt_succ_of_le hdepth)
  obtain ⟨v, tables, hpush, hread⟩ := push_pullValue hcomes (cases_of_pullTable hpull) invoke' n
  exact ⟨v, tables, jsonValue_run hparse hpush, hread⟩

/-- A machine with a list of three items behind one another, and calls that answer nothing. -/
def holding : Machine (Service Empty) World where
  tables := #[{ array := #[.int 1, .ofString "\"\n", .bool true], limit := 3 }]
  world := { storage := {}, store := .memory 0, log := { threshold := .info, isSelective := false } }

/-- What is read from it. -/
def heldItems : List Datum := [.int 1, .text "\"\n", .bool true]

/-- A list with a text of characters that have to be escaped is read back. -/
theorem jsonValue_jsonText_of_list :
    (holding.Addressable ∧ holding.LengthsKeep silent ∧
      (run nofun silent .jsonText [.table 0]).run holding =
        .ok [.ofString (Json.render (.list heldItems))] holding) ∧
      ∃ v tables, (run nofun silent .jsonValue [.ofString (Json.render (.list heldItems))]).run holding =
          .ok [v] { holding with tables } ∧
        Yields (pullValue silent v) { holding with tables } (.ok (.list heldItems))
          { holding with tables } := by
  have haddr : holding.Addressable := Machine.addressable_of_forall (by decide +kernel)
  have hkeep : holding.LengthsKeep silent := Machine.lengthsKeep_pure [] holding
  have hpull : (pull silent 0).run.run holding = .ok (.ok (.list heldItems)) holding := rfl
  have hwrite : (run nofun silent .jsonText [.table 0]).run holding =
      .ok [.ofString (Json.render (.list heldItems))] holding :=
    Run.bind_ok (exchanged_ok hpull)
  obtain ⟨d, hread, hback⟩ := jsonValue_jsonText nofun silent holding holding 0 _ haddr hkeep hwrite
  cases (Yields.unique hpull hread).1
  have hfloat : (Datum.list heldItems).FloatFree := by
    simp [heldItems, Datum.FloatFree, Datum.Everywhere, Datum.EverywhereItems, Datum.NotFloat]
  exact ⟨⟨haddr, hkeep, hwrite⟩, hback hfloat (by decide) silent holding⟩

/-- A table of three items that has lost its last one. -/
def shortened : Table :=
  ((((Table.withSizes 0 3).setIndex 1 (.int 1)).setIndex 2 (.table 1)).setIndex 3 (.int 3)).setIndex 3
    .nil

/-- A machine with this table, whose length function still counts the item. The length function of the
table inside it gives the item back. -/
def shifting : Machine (Service Empty) World where
  tables := #[{ shortened with metatable := some 2 }, { metatable := some 3 },
    Table.setText {} "__len" (.function 0), Table.setText {} "__len" (.function 1)]
  world := { storage := {}, store := .memory 0, log := { threshold := .info, isSelective := false } }

/-- The two length functions. -/
def shift : Invoke (Service Empty) World := fun _ f _ =>
  match f with
  | .function 0 => pure [.int 3]
  | _ => do
    Run.modifyTable 0 (·.setIndex 3 (.int 3))
    return [.int 0]

/-- What is read from the table. -/
def shiftedItems : List Datum := [.int 1, .record [], .null]

/-- The machine in which it has been read. -/
def shifted : Machine (Service Empty) World :=
  match (pull shift 0).run.run shifting with
  | .ok _ m => m
  | .error _ m => m

/-- A length function that changes the table that is being read makes a list with null at its end, which
is not read back from JSON. -/
theorem jsonValue_jsonText_of_shift :
    ∃ text id d m m', (run nofun shift .jsonText [.table 0]).run shifting = .ok [text] shifted ∧
      Yields (pull shift 0) shifting (.ok (.list shiftedItems)) shifted ∧
      ((Datum.list shiftedItems).FloatFree ∧ (Datum.list shiftedItems).depth ≤ 127) ∧
      (run nofun shift .jsonValue [text]).run shifted = .ok [.table id] m ∧
      Yields (pull shift id) m (.ok d) m' ∧ d ≠ .list shiftedItems := by
  have hpull : (pull shift 0).run.run shifting = .ok (.ok (.list shiftedItems)) shifted := rfl
  obtain ⟨m, hpush, m', hback⟩ : ∃ m,
      (push (.list shiftedItems)).run.run shifted = .ok (.ok (.table 4)) m ∧
        ∃ m', (pull shift 4).run.run m = .ok (.ok (.list [.int 1, .record []])) m' :=
    ⟨_, rfl, _, rfl⟩
  have hfloat : (Datum.list shiftedItems).FloatFree := by
    simp [shiftedItems, Datum.FloatFree, Datum.Everywhere, Datum.EverywhereItems,
      Datum.EverywhereFields, Datum.NotFloat]
  have hparse : Json.parse (Json.render (.list shiftedItems)) = .ok (.list shiftedItems) := by
    refine Json.parse_render _ ?_ ?_ hfloat (by decide)
    · simp [shiftedItems, Datum.WellFormed, Datum.WellFormedItems, Datum.WellFormedFields]
    · simp [shiftedItems, Datum.Native, Datum.Everywhere, Datum.EverywhereItems,
        Datum.EverywhereFields, Datum.NotForeign]
  exact ⟨_, 4, _, m, m', Run.bind_ok (exchanged_ok hpull), hpull, ⟨hfloat, by decide⟩,
    jsonValue_run hparse hpush, hback, by simp [shiftedItems]⟩

/-! ## Back and there -/

/-- What has been read from JSON can be written again, by any calls and whatever has happened to other
things than tables, if every list in it ends at its border; and otherwise writing it raises. -/
theorem jsonText_jsonValue (extension : Extension E) (invoke : Invoke (Service E) World)
    (m m' : Machine (Service E) World) (text : String) (v : Value) (hlength : text.length < 2 ^ 63)
    (hread : (run extension invoke .jsonValue [.ofString text]).run m = .ok [v] m') :
    ∃ d, Json.parse text = .ok d ∧ ((∃ items, d = .list items) ∨ (∃ fields, d = .record fields) →
      ∀ (invoke' : Invoke (Service E) World) (n : Machine (Service E) World), n.tables = m'.tables →
        (d.Bordered → ∃ out n', (run extension invoke' .jsonText [v]).run n = .ok [out] n') ∧
        (¬d.Bordered →
          ∃ e n', (run extension invoke' .jsonText [v]).run n = .error (.raised e) n')) := by
  obtain ⟨d, hparse, hpush⟩ := exists_of_jsonValue hread
  refine ⟨d, hparse, fun hparts invoke' n htables => ?_⟩
  have hfits := Json.fits_of_parse hlength hparse
  have hdepth : d.depth ≤ depthLimit := hfits.depth_lt.le.trans (by decide)
  obtain ⟨id, tables, hpush', hpull⟩ :=
    push_pullValue_iff hfits.wellFormed hfits.native hfits.addressable hdepth hparts m
  obtain ⟨hv, rfl⟩ := hpush.unique hpush'
  obtain rfl := Except.ok.inj hv
  obtain ⟨r, n', hyields, hgood⟩ := hpull invoke' n htables
  cases r with
  | ok d' =>
    exact ⟨fun _ => ⟨_, n', Run.bind_ok (exchanged_ok hyields)⟩,
      fun hbad => absurd (hgood.mp ⟨d', rfl⟩) hbad⟩
  | error e =>
    refine ⟨fun hbordered => ?_, fun _ => ⟨_, _, Run.bind_error (exchanged_error hyields)⟩⟩
    obtain ⟨d', heq⟩ := hgood.mpr hbordered
    cases heq

/-- A list with null inside, and one with null at its end. -/
def holedItems : List Datum := [.int 1, .null, .int 3, .list [.int 4, .null]]

/-- Lists that end at their borders are written again. -/
theorem jsonText_jsonValue_of_holes :
    "[1,null,3,[4,null]]".length < 2 ^ 63 ∧ ∃ v m' out n',
      (run nofun silent .jsonValue [.ofString "[1,null,3,[4,null]]"]).run holding = .ok [v] m' ∧
        (Datum.list holedItems).Bordered ∧
        (run nofun silent .jsonText [v]).run m' = .ok [out] n' := by
  have htext : Json.render (.list holedItems) = "[1,null,3,[4,null]]" := by decide +kernel
  have hparse : Json.parse "[1,null,3,[4,null]]" = .ok (.list holedItems) := by
    rw [← htext]
    refine Json.parse_render _ ?_ ?_ ?_ (by decide) <;>
      simp [holedItems, Datum.WellFormed, Datum.WellFormedItems, Datum.Native, Datum.FloatFree,
        Datum.Everywhere, Datum.EverywhereItems, Datum.NotForeign, Datum.NotFloat]
  obtain ⟨m', hpush⟩ : ∃ m', (push (.list holedItems)).run.run holding = .ok (.ok (.table 1)) m' :=
    ⟨_, rfl⟩
  have hread : (run nofun silent .jsonValue [.ofString "[1,null,3,[4,null]]"]).run holding =
      .ok [.table 1] m' := jsonValue_run hparse hpush
  have hlength : "[1,null,3,[4,null]]".length < 2 ^ 63 := by decide +kernel
  have hint (n : Int64) : (Datum.int n).Bordered := Datum.bordered_of_scalar (by simp) (by simp)
  have hinner : (Datum.list [.int 4, .null]).Bordered := by
    have hpresent : Datum.presentItems 0 [.int 4, .null] = [(1, .int 4)] := rfl
    rw [Datum.bordered_list_iff, hpresent]
    exact ⟨.inr (by decide), by simp [hint]⟩
  have hbordered : (Datum.list holedItems).Bordered := by
    have hpresent : Datum.presentItems 0 holedItems =
        [(1, .int 1), (3, .int 3), (4, .list [.int 4, .null])] := rfl
    rw [Datum.bordered_list_iff, hpresent]
    exact ⟨.inr (by decide), by simp [hint, hinner]⟩
  obtain ⟨d, hparse', hwrite⟩ := jsonText_jsonValue nofun silent holding m' _ _ hlength hread
  cases hparse.symm.trans hparse'
  obtain ⟨out, n', hrun⟩ := (hwrite (.inl ⟨_, rfl⟩) silent m' rfl).1 hbordered
  exact ⟨hlength, _, m', out, n', hread, hbordered, hrun⟩

/-- A list with an item between nulls behind its border. -/
def tornItems : List Datum := [.int 1, .null, .int 3, .null, .null]

/-- What has been read from JSON cannot always be written again: the border is in front of an item. -/
theorem jsonText_jsonValue_of_nulls :
    ∃ v m' e n',
      (run nofun silent .jsonValue [.ofString "[1,null,3,null,null]"]).run holding = .ok [v] m' ∧
        (run nofun silent .jsonText [v]).run m' = .error (.raised e) n' := by
  have htext : Json.render (.list tornItems) = "[1,null,3,null,null]" := by decide +kernel
  have hparse : Json.parse "[1,null,3,null,null]" = .ok (.list tornItems) := by
    rw [← htext]
    refine Json.parse_render _ ?_ ?_ ?_ (by decide) <;>
      simp [tornItems, Datum.WellFormed, Datum.WellFormedItems, Datum.Native, Datum.FloatFree,
        Datum.Everywhere, Datum.EverywhereItems, Datum.NotForeign, Datum.NotFloat]
  obtain ⟨m', hpush, n', hpull⟩ : ∃ m',
      (push (.list tornItems)).run.run holding = .ok (.ok (.table 1)) m' ∧
        ∃ n', (pullValue silent (.table 1)).run.run m' = .ok (.error (.indexOutside 3 1)) n' :=
    ⟨_, rfl, _, rfl⟩
  exact ⟨_, m', _, _, jsonValue_run hparse hpush, Run.bind_error (exchanged_error hpull)⟩

end Sandbox.Service
