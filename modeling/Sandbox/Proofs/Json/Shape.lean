import Sandbox.Proofs.Datum.Settled
import Sandbox.Proofs.Json.Scalar

/-!
# What the reader of JSON gives

Whatever text is read, the value that it gives has the keys of its records in order, holds nothing
foreign, is no deeper than the reader allows, and no list in it is longer than the text.
-/

namespace Sandbox.Json

/-! ## Numbers -/

/-- The value is a number. -/
inductive IsNumber : Datum → Prop
  | int (n : Int64) : IsNumber (.int n)
  | float (x : Binary64) : IsNumber (.float x)

variable {negative : Bool} {significand : Nat} {exponent : Int} {s r rest : List Char} {d : Datum}

theorem isNumber_of_assemble (h : assemble negative significand exponent s = .ok (d, r)) :
    IsNumber d := by
  rw [assemble] at h
  split at h
  · cases h
    exact .float _
  · cases h

theorem isNumber_of_exponentPart (h : exponentPart negative significand exponent s = .ok (d, r)) :
    IsNumber d := by
  unfold exponentPart at h
  split at h
  split at h
  · cases h
  · split at h
    · cases h
    · split at h
      · exact isNumber_of_assemble h
      · split at h
        · cases h
        · cases h
          exact .float _

theorem isNumber_of_afterDigits (h : afterDigits negative significand exponent s = .ok (d, r)) :
    IsNumber d := by
  unfold afterDigits at h
  split at h
  · exact isNumber_of_exponentPart h
  · exact isNumber_of_exponentPart h
  · exact isNumber_of_assemble h

theorem isNumber_of_fractionPart (h : fractionPart negative significand exponent s = .ok (d, r)) :
    IsNumber d := by
  unfold fractionPart at h
  dsimp only at h
  split at h
  · split at h
    · exact isNumber_of_afterDigits h
    · split at h
      · cases h
      · exact isNumber_of_afterDigits h
  · split at h
    · cases h
    · exact isNumber_of_afterDigits h

theorem isNumber_integer (negative : Bool) (n : Nat) : IsNumber (integer negative n) := by
  unfold integer Datum.ofNat
  split <;> split <;> first | exact .int _ | exact .float _

theorem isNumber_of_finish (h : numberValue.finish negative significand s = .ok (d, r)) :
    IsNumber d := by
  unfold numberValue.finish at h
  split at h
  · exact isNumber_of_fractionPart h
  · exact isNumber_of_exponentPart h
  · exact isNumber_of_exponentPart h
  · cases h
    exact isNumber_integer _ _

theorem isNumber_of_numberValue (h : numberValue negative s = .ok (d, r)) : IsNumber d := by
  unfold numberValue at h
  split at h
  · cases h
  · split at h
    · split at h
      · cases h
      · exact isNumber_of_finish h
    · exact isNumber_of_finish h
  · split at h
    · cases h
    · dsimp only at h
      split at h
      · exact isNumber_of_finish h
      · split at h
        · exact isNumber_of_fractionPart h
        · exact isNumber_of_afterDigits h

/-! ## One step of the reader -/

/-- The value is no list, no record and nothing foreign. -/
inductive IsScalar : Datum → Prop
  | null : IsScalar .null
  | bool (b : Bool) : IsScalar (.bool b)
  | number {d : Datum} (h : IsNumber d) : IsScalar d
  | text (s : String) : IsScalar (.text s)

theorem Reads.of_number {s r : List Char} {d : Datum}
    (h : Reads ((numberValue negative r).bind (shorten s)) d rest) : IsNumber d := by
  obtain ⟨_, h⟩ := h
  cases hnumber : numberValue negative r with
  | error e =>
    rw [hnumber] at h
    cases h
  | ok a =>
    rw [hnumber] at h
    change shorten s a = _ at h
    rw [shorten] at h
    split at h
    · cases h
      exact isNumber_of_numberValue hnumber
    · cases h

theorem Reads.eq_of_word {e : Except Failure (List Char)} {s : List Char} {d d' : Datum}
    (h : Reads (e.bind fun r => shorten s (d, r)) d' rest) : d' = d := by
  obtain ⟨_, h⟩ := h
  cases e with
  | error e => cases h
  | ok r =>
    change shorten s (d, r) = _ at h
    rw [shorten] at h
    split at h
    · cases h
      rfl
    · cases h

/-- A value that is read is a scalar, or a list or record, whose parts are read with one level less. -/
theorem Reads.value_cases {depth : Nat} {s rest : List Char} {d : Datum}
    (h : Reads (value depth s) d rest) :
    IsScalar d ∨ 1 < depth ∧ ∃ after, after.length < s.length ∧
      ((∃ all, d = .list all ∧ Reads (items (depth - 1) after true []) all rest) ∨
        ∃ all, d = .record all ∧ Reads (fields (depth - 1) after true []) all rest) := by
  rw [Reads, value] at h
  split at h
  · obtain ⟨_, h⟩ := h
    cases h
  · rename_i c after hlt _
    split at h
    · exact .inl (Reads.eq_of_word h ▸ .null)
    · exact .inl (Reads.eq_of_word h ▸ .bool true)
    · exact .inl (Reads.eq_of_word h ▸ .bool false)
    · exact .inl (.number (Reads.of_number h))
    · obtain ⟨_, h⟩ := h
      split at h
      · cases h
      · cases h
        exact .inl (.text _)
    · obtain ⟨_, h⟩ := h
      split at h
      · cases h
      · rename_i hdepth
        split at h
        · cases h
        · rename_i hitems
          cases h
          exact .inr ⟨by omega, _, hlt, .inl ⟨_, rfl, _, hitems⟩⟩
    · obtain ⟨_, h⟩ := h
      split at h
      · cases h
      · rename_i hdepth
        split at h
        · cases h
        · rename_i hfields
          cases h
          exact .inr ⟨by omega, _, hlt, .inr ⟨_, rfl, _, hfields⟩⟩
    · split at h
      · exact .inl (.number (Reads.of_number h))
      · obtain ⟨_, h⟩ := h
        cases h
/-- Items that are read end with those that were there, or one more is read and put to them. -/
theorem Reads.items_cases {depth : Nat} {s rest : List Char} {first : Bool} {acc all : List Datum}
    (h : Reads (items depth s first acc) all rest) :
    all = acc.reverse ∨ ∃ next d after, next.length ≤ s.length ∧ Reads (value depth next) d after ∧
      after.length < s.length ∧ Reads (items depth after false (d :: acc)) all rest := by
  obtain ⟨hlt, h⟩ := h
  rw [items] at h
  split at h
  · cases h
  · rename_i c next hnext _
    split at h
    · cases h
      exact .inl rfl
    · split at h
      · split at h
        · cases h
        · rename_i d after hafter hvalue
          split at h
          · cases h
          · rename_i hmore
            cases h
            exact .inr ⟨s, d, after, Nat.le_refl _, ⟨_, hvalue⟩, hafter, _, hmore⟩
      · split at h
        · split at h
          · cases h
          · cases h
          · split at h
            · cases h
            · rename_i d after hafter hvalue
              split at h
              · cases h
              · rename_i hmore
                cases h
                exact .inr ⟨next, d, after, Nat.le_of_lt hnext, ⟨_, hvalue⟩,
                  Nat.lt_trans hafter hnext, _, hmore⟩
        · cases h
/-- A field that is read is put in its place among those that were there. -/
theorem Reads.field_cases {depth : Nat} {s rest : List Char} {acc all : List (String × Datum)}
    (h : Reads (Json.field depth s acc) all rest) :
    ∃ key next d, next.length < s.length ∧ Reads (value depth next) d rest ∧
      all = Named.insert key d acc := by
  obtain ⟨hlt, h⟩ := h
  rw [Json.field] at h
  split at h
  · cases h
  · rename_i key r hr _
    split at h
    · cases h
    · rename_i next hnext _
      split at h
      · cases h
      · rename_i d _ _ hvalue
        cases h
        exact ⟨key, next, d, Nat.lt_trans hnext hr, ⟨_, hvalue⟩, rfl⟩
    · cases h
/-- Fields that are read end with those that were there, or one more is read. -/
theorem Reads.fields_cases {depth : Nat} {s rest : List Char} {first : Bool}
    {acc all : List (String × Datum)} (h : Reads (fields depth s first acc) all rest) :
    all = acc ∨ ∃ next acc' after, next.length < s.length ∧
      Reads (Json.field depth next acc) acc' after ∧ after.length < s.length ∧
      Reads (fields depth after false acc') all rest := by
  obtain ⟨hlt, h⟩ := h
  rw [fields] at h
  split at h
  · cases h
  · rename_i c next hnext _
    split at h
    · cases h
      exact .inl rfl
    · split at h
      · split at h
        · split at h
          · cases h
          · rename_i acc' after hafter hfield
            split at h
            · cases h
            · rename_i hmore
              cases h
              exact .inr ⟨next, acc', after, hnext, ⟨_, hfield⟩, Nat.lt_trans hafter hnext, _, hmore⟩
        · cases h
      · split at h
        · split at h
          · cases h
          · rename_i key hkey _
            split at h
            · cases h
            · rename_i acc' after hafter hfield
              split at h
              · cases h
              · rename_i hmore
                cases h
                exact .inr ⟨key, acc', after, Nat.lt_trans hkey hnext, ⟨_, hfield⟩,
                  Nat.lt_trans hafter (Nat.lt_trans hkey hnext), _, hmore⟩
          · cases h
          · cases h
        · cases h
/-! ## Whole values -/

/-- What may be said of a value that has been read with this depth. -/
structure Fits (depth : Nat) (d : Datum) : Prop where
  wellFormed : d.WellFormed
  native : d.Native
  addressable : d.Addressable
  depth_lt : d.depth < depth

variable {depth : Nat}

theorem IsScalar.fits (h : IsScalar d) (hdepth : 1 ≤ depth) : Fits depth d := by
  rcases h with _ | _ | ⟨_ | _⟩ | _ <;>
    exact ⟨trivial, by simp [Datum.Native, Datum.Everywhere, Datum.NotForeign], trivial, hdepth⟩

theorem Fits.list {all : List Datum} (hlength : all.length < 2 ^ 63)
    (h : ∀ d ∈ all, Fits depth d) (hdepth : 1 ≤ depth) : Fits (depth + 1) (.list all) := by
  refine ⟨?_, ⟨by simp [Datum.NotForeign], ?_⟩, ⟨hlength, ?_⟩, ?_⟩
  · exact Datum.wellFormedItems_iff.mpr fun d hd => (h d hd).wellFormed
  · exact Datum.everywhereItems_iff.mpr fun d hd => (h d hd).native
  · exact Datum.addressableItems_iff.mpr fun d hd => (h d hd).addressable
  · have hle : Datum.depthItems all ≤ depth - 1 :=
      Datum.depthItems_le fun d hd => Nat.le_sub_one_of_lt (h d hd).depth_lt
    rw [Datum.depth]
    omega

theorem Fits.record {all : List (String × Datum)} (hnamed : Named.Ascending all)
    (h : ∀ f ∈ all, Fits depth f.2) (hdepth : 1 ≤ depth) : Fits (depth + 1) (.record all) := by
  refine ⟨⟨List.pairwise_map.mpr hnamed, ?_⟩, ⟨by simp [Datum.NotForeign], ?_⟩, ?_, ?_⟩
  · exact Datum.wellFormedFields_iff.mpr fun f hf => (h f hf).wellFormed
  · exact Datum.everywhereFields_iff.mpr fun f hf => (h f hf).native
  · exact Datum.addressableFields_iff.mpr fun f hf => (h f hf).addressable
  · have hle : Datum.depthFields all ≤ depth - 1 :=
      Datum.depthFields_le_iff.mpr fun f hf => Nat.le_sub_one_of_lt (h f hf).depth_lt
    rw [Datum.depth]
    omega

mutual
/-- A value that is read fits. -/
theorem fits_of_value {depth : Nat} {s rest : List Char} {d : Datum} (hdepth : 1 ≤ depth)
    (hlength : s.length < 2 ^ 63) (h : Reads (value depth s) d rest) : Fits depth d := by
  obtain hscalar | ⟨hmore, after, hafter, hparts⟩ := h.value_cases
  · exact hscalar.fits hdepth
  · obtain ⟨below, rfl⟩ : ∃ below, depth = below + 1 := ⟨depth - 1, by omega⟩
    obtain ⟨all, rfl, hitems⟩ | ⟨all, rfl, hfields⟩ := hparts
    · obtain ⟨hcount, hall⟩ := fits_of_items (by omega) (by omega) (by simp) hitems
      exact .list (by simp at hcount; omega) hall (by omega)
    · obtain ⟨hnamed, hall⟩ :=
        fits_of_fields (by omega) (by omega) .nil (by simp) hfields
      exact .record hnamed hall (by omega)
termination_by 2 * s.length

/-- Each item that is read takes a character of the text. -/
theorem fits_of_items {depth : Nat} {s rest : List Char} {first : Bool} {acc all : List Datum}
    (hdepth : 1 ≤ depth) (hlength : s.length < 2 ^ 63) (hacc : ∀ d ∈ acc, Fits depth d)
    (h : Reads (items depth s first acc) all rest) :
    all.length ≤ acc.length + s.length ∧ ∀ d ∈ all, Fits depth d := by
  obtain rfl | ⟨next, d, after, hnext, hvalue, hafter, hmore⟩ := h.items_cases
  · exact ⟨by simp, fun d hd => hacc d (List.mem_reverse.mp hd)⟩
  · have hfits : Fits depth d := fits_of_value hdepth (by omega) hvalue
    obtain ⟨hcount, hall⟩ := fits_of_items hdepth (by omega)
      (List.forall_mem_cons.mpr ⟨hfits, hacc⟩) hmore
    exact ⟨by simp at hcount; omega, hall⟩
termination_by 2 * s.length + 1

/-- Fields that are read are in the order of their keys. -/
theorem fits_of_fields {depth : Nat} {s rest : List Char} {first : Bool}
    {acc all : List (String × Datum)} (hdepth : 1 ≤ depth) (hlength : s.length < 2 ^ 63)
    (hnamed : Named.Ascending acc) (hacc : ∀ f ∈ acc, Fits depth f.2) (h : Reads (fields depth s first acc) all rest) :
    Named.Ascending all ∧ ∀ f ∈ all, Fits depth f.2 := by
  obtain rfl | ⟨next, acc', after, hnext, hfield, hafter, hmore⟩ := h.fields_cases
  · exact ⟨hnamed, hacc⟩
  · obtain ⟨key, start, d, hstart, hvalue, rfl⟩ := hfield.field_cases
    have hfits : Fits depth d := fits_of_value hdepth (by omega) hvalue
    refine fits_of_fields hdepth (by omega) (hnamed.insert key d) (fun f hf => ?_) hmore
    rcases Named.mem_insert hf with rfl | hf
    · exact hfits
    · exact hacc f hf
termination_by 2 * s.length + 1
end

/-- What a text denotes is well formed, holds nothing foreign, is at most 127 deep, and has no list that
is longer than the text. -/
theorem fits_of_parse {text : String} {d : Datum} (hlength : text.length < 2 ^ 63)
    (h : parse text = .ok d) : Fits depthLimit d := by
  rw [parse] at h
  dsimp only at h
  cases hvalue : value depthLimit text.toList with
  | error e =>
    rw [hvalue] at h
    cases h
  | ok v =>
    rw [hvalue] at h
    dsimp only at h
    have hfits : Fits depthLimit v.1 :=
      fits_of_value (by decide) (by rwa [String.length_toList]) ⟨v.2.2, hvalue⟩
    split at h
    · rename_i hresult
      split at hresult
      · cases hresult
        cases h
        exact hfits
      · cases hresult
    · cases h

end Sandbox.Json
