import Sandbox.Proofs.Local.Walk
import Sandbox.Proofs.Module.Below
import Sandbox.Proofs.Store.Key

/-!
# The names of modules

A module is named after the steps to its file: the directories and the stem of the file's name, with dots
between them. A search for the module on the standard search path turns the dots into slashes again, which
leads back to the file just if there is no dot in the steps themselves.
-/

namespace Sandbox

namespace Utf8

/-- How many bytes behind the first one belong to what stands at the front. -/
def Head.behind (h : Head) : Nat :=
  match h with
  | .scalar _ width => width - 1
  | .invalid width => width - 1
  | .incomplete => 0

theorem behind_head_le (first : UInt8) (bytes : List UInt8) :
    (head first bytes).behind ≤ bytes.length := by
  fun_cases head first bytes <;> simp [Head.behind]

theorem low_secondRange (first : UInt8) : 0x80 ≤ (secondRange first).1 := by
  unfold secondRange
  repeat' split
  all_goals decide

/-- A byte below 0x80 belongs to nothing that stands in front of it. -/
theorem head_append {b : UInt8} (hb : b < 0x80) (first : UInt8) (bytes rest : List UInt8) :
    head first (bytes ++ b :: rest) =
      if head first bytes = .incomplete then .invalid (bytes.length + 1) else head first bytes := by
  have hcontinuation : isContinuation b = false := by
    rw [isContinuation, decide_eq_false (UInt8.not_le.mpr hb), Bool.false_and]
  have hlow : ∀ low high, secondRange first = (low, high) → b < low := fun low high hrange =>
    UInt8.lt_of_lt_of_le hb (by simpa [hrange] using low_secondRange first)
  fun_cases head first bytes
  case case6 low high hrange =>
    have hbelow := hlow low high hrange
    simp [head, *]
  all_goals simp [head, *]

theorem decodeLossy_append {b : UInt8} (hb : b < 0x80) (bytes rest : List UInt8) :
    decodeLossy (bytes ++ b :: rest) = decodeLossy bytes ++ decodeLossy (b :: rest) := by
  have hdrop : ∀ first bytes, (bytes ++ b :: rest).drop (head first bytes).behind =
      bytes.drop (head first bytes).behind ++ b :: rest :=
    fun first bytes => List.drop_append_of_le_length (behind_head_le first bytes)
  fun_induction decodeLossy bytes with
  | case1 => rfl
  | case2 first bytes c width hhead ih =>
    have hwidth := hdrop first bytes
    rw [hhead] at hwidth
    have happend := head_append hb first bytes rest
    rw [hhead, if_neg (by simp)] at happend
    rw [List.cons_append, decodeLossy, happend]
    dsimp only
    rw [List.cons_append, ← ih]
    exact congrArg (fun s => _ :: decodeLossy s) hwidth
  | case3 first bytes width hhead ih =>
    have hwidth := hdrop first bytes
    rw [hhead] at hwidth
    have happend := head_append hb first bytes rest
    rw [hhead, if_neg (by simp)] at happend
    rw [List.cons_append, decodeLossy, happend]
    dsimp only
    rw [List.cons_append, ← ih]
    exact congrArg (fun s => _ :: decodeLossy s) hwidth
  | case4 first bytes hhead =>
    have happend := head_append hb first bytes rest
    rw [hhead, if_pos rfl] at happend
    rw [List.cons_append, decodeLossy, happend]
    simp

end Utf8

end Sandbox

namespace ByteArray

theorem fromUTF8?_eq_some_iff {bytes : ByteArray} {s : String} :
    String.fromUTF8? bytes = some s ↔ bytes = s.toByteArray := by
  rw [String.fromUTF8?]
  constructor
  · intro h
    split at h
    · cases h
      rfl
    · cases h
  · rintro rfl
    rw [dif_pos s.isValidUTF8]
    rfl

theorem eq_of_beq_eq_true {bytes others : ByteArray} (h : (bytes == others) = true) : bytes = others :=
  ByteArray.ext (eq_of_beq h)

end ByteArray

namespace Sandbox.Local

/-! ## The ending of a script -/

/-- The name of a file without the ending. -/
def stem (name : ByteArray) : ByteArray := name.extract 0 (name.size - ending.size)

theorem append_ending {name : ByteArray} (h : isScript name = true) : stem name ++ ending = name := by
  obtain ⟨hsize, hending⟩ := Bool.and_eq_true_iff.mp h
  have hsize : ending.size < name.size := of_decide_eq_true hsize
  have hending : name.extract (name.size - ending.size) name.size = ending :=
    ByteArray.eq_of_beq_eq_true hending
  have hsplit : name.extract 0 name.size = stem name ++ name.extract (name.size - ending.size) name.size :=
    ByteArray.extract_eq_extract_append_extract _ (by omega) (by omega)
  rw [ByteArray.extract_zero_size, hending] at hsplit
  exact hsplit.symm

/-- What stands in front of the ending of a text is a text. -/
theorem exists_of_append_ending {bytes : ByteArray} {s : String} (h : bytes ++ ending = s.toByteArray) :
    ∃ front : String, bytes = front.toByteArray := by
  have hsize : bytes.size < s.rawEndPos.byteIdx := by
    have hlength := congrArg ByteArray.size h
    have hending : ending.size = 4 := by decide
    rw [ByteArray.size_append, String.size_toByteArray] at hlength
    rw [String.byteIdx_rawEndPos]
    omega
  have hbyte : s.getUTF8Byte ⟨bytes.size⟩ hsize = 0x2E := by
    simp only [String.getUTF8Byte, ← h]
    rw [ByteArray.getElem_append_right (Nat.le_refl _)]
    simp only [Nat.sub_self]
    rfl
  have hvalid : String.Pos.Raw.IsValid s ⟨bytes.size⟩ :=
    String.Pos.Raw.isValid_iff_isUTF8FirstByte.mpr (.inr ⟨hsize, hbyte ▸ by decide⟩)
  obtain ⟨front, back, rfl, hfront⟩ := String.Pos.Raw.isValid_iff_exists_append.mp hvalid
  have hfront : bytes.size = front.toByteArray.size := by
    simpa using congrArg String.Pos.Raw.byteIdx hfront
  rw [String.toByteArray_append] at h
  exact ⟨front, ByteArray.append_inj_left h hfront⟩

/-- The text of a script's name is the text of its stem with the ending. -/
theorem toTextLossy_append_ending (bytes : ByteArray) :
    (bytes ++ ending).toTextLossy = bytes.toTextLossy ++ ".lua" := by
  have hbytes : ending = ".lua".toByteArray := rfl
  cases hs : String.fromUTF8? bytes with
  | some s =>
    have hwhole : String.fromUTF8? (bytes ++ ending) = some (s ++ ".lua") := by
      rw [ByteArray.fromUTF8?_eq_some_iff] at hs ⊢
      rw [hs, hbytes, String.toByteArray_append]
    rw [ByteArray.toTextLossy, ByteArray.toTextLossy, hs, hwhole]
  | none =>
    have hwhole : String.fromUTF8? (bytes ++ ending) = none := by
      rw [Option.eq_none_iff_forall_ne_some]
      intro s h
      obtain ⟨front, hfront⟩ := exists_of_append_ending (ByteArray.fromUTF8?_eq_some_iff.mp h)
      rw [ByteArray.fromUTF8?_eq_some_iff.mpr hfront] at hs
      cases hs
    have hlist : (bytes ++ ending).toList = bytes.toList ++ 0x2E :: [0x6C, 0x75, 0x61] := by
      rw [toList_eq, toList_eq, ByteArray.data_append, Array.toList_append]
      rfl
    have hending : Utf8.decodeLossy (0x2E :: [0x6C, 0x75, 0x61]) = ".lua".toList := by
      decide +kernel
    rw [ByteArray.toTextLossy, ByteArray.toTextLossy, hs, hwhole]
    dsimp only
    rw [hlist, Utf8.decodeLossy_append (by decide), hending, String.ofList_append, String.ofList_toList]

/-! ## Names between marks -/

theorem toList_joined (mark : Char) (steps : List ByteArray) :
    (joined (String.singleton mark) steps).toList =
      [mark].intercalate (steps.map (·.toTextLossy.toList)) := by
  rw [joined, String.toList_intercalate, String.toList_singleton, List.map_map]
  rfl

theorem mem_joined (mark : Char) {c : Char} {steps : List ByteArray} {step : ByteArray} (hstep : step ∈ steps)
    (hc : c ∈ step.toTextLossy.toList) : c ∈ (joined (String.singleton mark) steps).toList := by
  rw [toList_joined]
  exact (Path.infix_intercalate_of_mem [mark] (List.mem_map_of_mem hstep)).subset hc

/-- Steps are known by the text of them, unless the mark is in them. -/
theorem joined_inj (mark : Char) {steps others : List ByteArray} (hne : steps ≠ []) (hne' : others ≠ [])
    (hmark : ∀ step ∈ steps, mark ∉ step.toTextLossy.toList)
    (hmark' : ∀ step ∈ others, mark ∉ step.toTextLossy.toList)
    (h : joined (String.singleton mark) steps = joined (String.singleton mark) others) :
    steps.map ByteArray.toTextLossy = others.map ByteArray.toTextLossy := by
  have hsplit : ∀ steps : List ByteArray, steps ≠ [] →
      (∀ step ∈ steps, mark ∉ step.toTextLossy.toList) →
      (joined (String.singleton mark) steps).toList.splitOn mark =
        (steps.map ByteArray.toTextLossy).map String.toList := by
    intro steps hne hmark
    rw [toList_joined, List.splitOn_intercalate mark (by simpa using hmark) (by simpa using hne),
      List.map_map]
    rfl
  have hparts := hsplit steps hne hmark
  rw [h, hsplit others hne' hmark'] at hparts
  exact (List.map_injective_iff.mpr (fun _ _ => String.toList_inj.mp) hparts).symm

theorem map_intercalate (f : Char → Char) (mark : Char) (texts : List (List Char)) :
    ([mark].intercalate texts).map f = [f mark].intercalate (texts.map (List.map f)) := by
  induction texts with
  | nil => rfl
  | cons text rest ih =>
    rcases eq_or_ne rest [] with rfl | hne
    · simp
    · rw [List.map_cons, List.intercalate_cons_of_ne_nil hne,
        List.intercalate_cons_of_ne_nil (mt List.map_eq_nil_iff.mp hne), ← ih]
      simp

/-- Another mark may be put between the steps. -/
theorem map_joined {mark : Char} {steps : List ByteArray}
    (hmark : ∀ step ∈ steps, mark ∉ step.toTextLossy.toList) (other : Char) :
    (joined (String.singleton mark) steps).toList.map (fun c => if c = mark then other else c) =
      (joined (String.singleton other) steps).toList := by
  rw [toList_joined, toList_joined, map_intercalate, if_pos rfl, List.map_map]
  congr 1
  refine List.map_congr_left fun step hstep => ?_
  have hsame : ∀ c ∈ step.toTextLossy.toList, (if c = mark then other else c) = c :=
    fun c hc => if_neg fun heq => hmark step hstep (by rwa [heq] at hc)
  rw [Function.comp_apply, List.map_congr_left hsame, List.map_id']

/-! ## The file of a module -/

/-- The parts of the name of a module: the directories and the stem of the file. -/
def parts (steps : List ByteArray) : List ByteArray :=
  steps.dropLast ++ [stem (steps.getLastD .empty)]

/-- No part has a dot in it. -/
def Dotless (steps : List ByteArray) : Prop := ∀ part ∈ parts steps, '.' ∉ part.toTextLossy.toList

theorem moduleName_of_dotless {steps : List ByteArray} (h : Dotless steps) :
    moduleName steps = joined "." (parts steps) := by
  have hstem : (stem (steps.getLastD .empty) == ".".toUTF8) = false := by
    rw [Bool.eq_false_iff]
    intro heq
    have heq : stem (steps.getLastD .empty) = ".".toUTF8 := ByteArray.eq_of_beq_eq_true heq
    refine h (stem (steps.getLastD .empty)) (by simp [parts]) ?_
    rw [heq]
    decide
  have hname : moduleName steps = joined "." (if stem (steps.getLastD .empty) == ".".toUTF8 &&
    !steps.dropLast.isEmpty then steps.dropLast else parts steps) := rfl
  rw [hname, hstem]
  rfl

/-- The steps to a script, their parts, and the text of the last one. -/
theorem EndInScript.split {steps : List ByteArray} (h : EndInScript steps) :
    ∃ directories name, steps = directories ++ [name] ∧ parts steps = directories ++ [stem name] ∧
      name.toTextLossy = (stem name).toTextLossy ++ ".lua" := by
  obtain ⟨name, hlast, hscript⟩ := h
  refine ⟨steps.dropLast, name, (List.dropLast_append_getLast? name hlast).symm, ?_, ?_⟩
  · rw [parts, List.getLastD_eq_getLast?, Option.mem_def.mp hlast]
    rfl
  · rw [← toTextLossy_append_ending, append_ending hscript]

/-- The name of a script's file is that of its parts with the ending. -/
theorem EndInScript.joined_eq {steps : List ByteArray} (h : EndInScript steps) :
    joined "/" steps = joined "/" (parts steps) ++ ".lua" := by
  obtain ⟨directories, name, rfl, hparts, htext⟩ := h.split
  rw [hparts, joined, joined, List.map_append, List.map_append, List.map_singleton, List.map_singleton,
    Path.intercalate_append_singleton, Path.intercalate_append_singleton, htext, String.append_assoc]

/-- The file that is tried for a module on the standard search path. -/
theorem candidates_standard (name : String) :
    SearchPath.candidates name SearchPath.standard Searcher.separators.1 Searcher.separators.2 =
      [String.ofList (name.toList.map fun c => if c = '.' then '/' else c) ++ ".lua"] := by
  have htemplates : SearchPath.templates SearchPath.standard = ["?.lua"] := by decide +kernel
  have hdots : replaceAll Searcher.separators.1.toList Searcher.separators.2.toList name.toList =
      name.toList.map fun c => if c = '.' then '/' else c := SearchPath.replaceAll_dot name.toList
  rw [SearchPath.candidates, htemplates, hdots]
  simp [SearchPath.candidate]

/-- The standard search path leads from the name of a module back to its file just if there is no dot in
the steps to it. -/
theorem EndInScript.candidates_iff {steps : List ByteArray} (h : EndInScript steps) :
    SearchPath.candidates (moduleName steps) SearchPath.standard Searcher.separators.1
      Searcher.separators.2 = [joined "/" steps] ↔ Dotless steps := by
  rw [candidates_standard, h.joined_eq, List.singleton_inj, String.append_left_inj]
  constructor
  · intro h part hpart hdot
    have hmem : '.' ∈ (joined "/" (parts steps)).toList := mem_joined '/' hpart hdot
    rw [← h, String.toList_ofList] at hmem
    obtain ⟨c, -, hc⟩ := List.mem_map.mp hmem
    split at hc
    · exact absurd hc (by decide)
    · exact absurd hc (by assumption)
  · intro h
    rw [moduleName_of_dotless h]
    have hmap := map_joined h '/'
    rw [← String.toList_inj, String.toList_ofList]
    exact hmap

/-! ## Different files -/

/-- All names on the way are texts. -/
def AreTexts (steps : List ByteArray) : Prop := ∀ step ∈ steps, ∃ s : String, step = s.toByteArray

theorem AreTexts.inj {steps others : List ByteArray} (h : AreTexts steps) (h' : AreTexts others)
    (heq : steps.map ByteArray.toTextLossy = others.map ByteArray.toTextLossy) : steps = others := by
  induction steps generalizing others with
  | nil => exact (List.map_eq_nil_iff.mp heq.symm).symm
  | cons step rest ih =>
    cases others with
    | nil => cases heq
    | cons other others =>
      obtain ⟨⟨s, rfl⟩, hrest⟩ := List.forall_mem_cons.mp h
      obtain ⟨⟨t, rfl⟩, hothers⟩ := List.forall_mem_cons.mp h'
      obtain ⟨hhead, htail⟩ := List.cons.inj heq
      rw [ByteArray.toTextLossy_toByteArray, ByteArray.toTextLossy_toByteArray] at hhead
      rw [hhead, ih hrest hothers htail]

theorem slash_not_mem {step : ByteArray} (htext : ∃ s : String, step = s.toByteArray)
    (h : 0x2F ∉ step.toList) : '/' ∉ step.toTextLossy.toList := by
  obtain ⟨s, rfl⟩ := htext
  rw [ByteArray.toTextLossy_toByteArray]
  intro hmem
  obtain ⟨front, back, hsplit⟩ := List.append_of_mem hmem
  have hs : s = String.ofList front ++ "/" ++ String.ofList back := by
    rw [← String.toList_inj, hsplit]
    simp
  refine h ?_
  rw [toList_eq, hs, String.toByteArray_append, String.toByteArray_append, ByteArray.data_append,
    ByteArray.data_append]
  have hslash : (0x2F : UInt8) ∈ "/".toByteArray.data.toList := by decide
  simp [hslash]

section Plain

variable {steps others : List ByteArray}

/-- The name of its module tells a script from the others, as long as there are no dots in the steps. -/
theorem EndInScript.eq_of_moduleName (h : EndInScript steps) (h' : EndInScript others)
    (hdots : Dotless steps) (hdots' : Dotless others) (htexts : AreTexts steps) (htexts' : AreTexts others)
    (heq : moduleName steps = moduleName others) : steps = others := by
  rw [moduleName_of_dotless hdots, moduleName_of_dotless hdots'] at heq
  have hparts := joined_inj '.' (by simp [parts]) (by simp [parts]) hdots hdots' heq
  obtain ⟨directories, name, rfl, hsplit, htext⟩ := h.split
  obtain ⟨directories', name', rfl, hsplit', htext'⟩ := h'.split
  rw [hsplit, hsplit', List.map_append, List.map_append, List.map_singleton, List.map_singleton] at hparts
  obtain ⟨hdirectories, hname⟩ := List.append_inj' hparts (by rw [List.length_singleton, List.length_singleton])
  refine htexts.inj htexts' ?_
  rw [List.map_append, List.map_append, hdirectories, List.map_singleton, List.map_singleton, htext, htext',
    List.singleton_inj.mp hname]

/-- So does the name of its file, as long as there are no slashes in the names. -/
theorem eq_of_joined (hne : steps ≠ []) (hne' : others ≠ []) (htexts : AreTexts steps)
    (htexts' : AreTexts others) (hslash : ∀ step ∈ steps, 0x2F ∉ step.toList)
    (hslash' : ∀ step ∈ others, 0x2F ∉ step.toList) (heq : joined "/" steps = joined "/" others) :
    steps = others :=
  htexts.inj htexts' <| joined_inj '/' hne hne'
    (fun step hstep => slash_not_mem (htexts step hstep) (hslash step hstep))
    (fun step hstep => slash_not_mem (htexts' step hstep) (hslash' step hstep)) heq

end Plain

end Sandbox.Local
