import Mathlib.Data.List.Nodup
import Mathlib.Data.List.Range
import Mathlib.Data.List.Perm.Subperm
import Sandbox.Local
import Sandbox.Proofs.Chunk.Refusal

/-!
# The scripts below a directory

What is below a directory is a tree if no directory is below itself and no directory has a name twice. A walk
through such a tree meets each script just once, in the order of the steps that lead to the scripts, although
it stops at a depth.
-/

namespace Sandbox

/-! ## The order of names -/

theorem bytesBelow_iff {s t : List UInt8} : bytesBelow s t = true ↔ s < t := by
  induction s generalizing t with
  | nil => cases t <;> simp [bytesBelow]
  | cons a s ih =>
    cases t with
    | nil => simp [bytesBelow]
    | cons b t =>
      rw [bytesBelow, List.cons_lt_cons_iff]
      by_cases hab : a = b
      · subst hab
        simp [ih]
      · simp [hab]

namespace Disk

variable {d : Disk} {top directory number next : Nat} {name : ByteArray} {steps : List ByteArray}

/-- A directory has this entry. -/
def HasEntry (d : Disk) (directory : Nat) (name : ByteArray) (number : Nat) : Prop :=
  ∃ entries, d.entries? directory = some entries ∧ (name, number) ∈ entries

/-- Some steps lead from one node to another one. No link is followed. -/
inductive Leads (d : Disk) : Nat → List ByteArray → Nat → Prop
  | here (number : Nat) : Leads d number [] number
  | step {directory next number : Nat} {name : ByteArray} {steps : List ByteArray}
      (hentry : d.HasEntry directory name next) (hrest : Leads d next steps number) :
      Leads d directory (name :: steps) number

theorem Leads.append {middle : Nat} {more : List ByteArray} (h : d.Leads directory steps middle)
    (hmore : d.Leads middle more number) : d.Leads directory (steps ++ more) number := by
  induction h with
  | here => exact hmore
  | step hentry _ ih => exact .step hentry (ih hmore)

theorem HasEntry.leads (h : d.HasEntry directory name next) : d.Leads directory [name] next :=
  .step h (.here next)

/-- A directory is one of the nodes. -/
theorem lt_size_of_entries? {entries : List (ByteArray × Nat)} (h : d.entries? number = some entries) :
    number < d.nodes.size := by
  by_contra hnot
  have hnode : d.node number = default := by
    rw [node, Array.getD_eq_getD_getElem?, Array.getElem?_eq_none (by omega)]
    rfl
  rw [entries?, hnode] at h
  exact absurd h (by simp [default])

/-- What is below a node is a tree of names. -/
structure IsTree (d : Disk) (top : Nat) : Prop where
  /-- No directory is below itself. -/
  acyclic : ∀ steps round number, d.Leads top steps number → d.Leads number round number → round = []
  /-- No directory has a name twice. -/
  nodup : ∀ steps number entries, d.Leads top steps number → d.entries? number = some entries →
    (entries.map (·.1)).Nodup
  /-- No name has a slash in it. -/
  slash : ∀ steps number name next, d.Leads top steps number → d.HasEntry number name next →
    0x2F ∉ name.toList

theorem IsTree.below (h : d.IsTree top) (hentry : d.HasEntry top name next) : d.IsTree next where
  acyclic _ round number hleads hround := h.acyclic _ round number (.step hentry hleads) hround
  nodup _ number entries hleads := h.nodup _ number entries (.step hentry hleads)
  slash _ number name next hleads := h.slash _ number name next (.step hentry hleads)

/-- Every directory stands in front of what it has, no name occurs twice in it, and none has a slash. -/
def isAscending (d : Disk) : Bool :=
  (List.range d.nodes.size).all fun number =>
    let entries := (d.entries? number).getD []
    decide (entries.map (·.1)).Nodup &&
      entries.all fun (name, next) => number < next && !name.toList.contains 0x2F

theorem HasEntry.of_isAscending (h : d.isAscending = true) (hentry : d.HasEntry number name next) :
    number < next ∧ 0x2F ∉ name.toList := by
  obtain ⟨entries, hentries, hmem⟩ := hentry
  have hnode := List.all_eq_true.mp h number (List.mem_range.mpr (lt_size_of_entries? hentries))
  rw [hentries, Option.getD_some, Bool.and_eq_true, List.all_eq_true] at hnode
  simpa using hnode.2 (name, next) hmem

theorem Leads.of_isAscending (h : d.isAscending = true) (hleads : d.Leads directory steps number) :
    steps = [] ∨ directory < number := by
  induction hleads with
  | here => exact .inl rfl
  | @step directory next number name steps hentry hrest ih =>
    obtain ⟨hlt, -⟩ := hentry.of_isAscending h
    rcases ih with rfl | ih
    · cases hrest
      exact .inr hlt
    · exact .inr (Nat.lt_trans hlt ih)

/-- What is below a node of such a disk is a tree. -/
theorem isTree_of_isAscending (h : d.isAscending = true) (top : Nat) : d.IsTree top where
  acyclic _ _ _ _ hround := (hround.of_isAscending h).resolve_right (Nat.lt_irrefl _)
  nodup _ number entries _ hentries := by
    have hnode := List.all_eq_true.mp h number (List.mem_range.mpr (lt_size_of_entries? hentries))
    rw [hentries, Option.getD_some, Bool.and_eq_true] at hnode
    exact of_decide_eq_true hnode.1
  slash _ _ _ _ _ hentry := (hentry.of_isAscending h).2

/-- In a tree steps lead to one node. -/
theorem IsTree.unique (h : d.IsTree top) {other : Nat} (hleads : d.Leads top steps number)
    (hleads' : d.Leads top steps other) : number = other := by
  induction hleads with
  | here =>
    cases hleads'
    rfl
  | @step top next number name steps hentry _ ih =>
    cases hleads' with
    | @step _ next' _ _ _ hentry' hrest' =>
      obtain ⟨entries, hentries, hmem⟩ := hentry
      obtain ⟨_, hentries', hmem'⟩ := hentry'
      obtain rfl := Option.some.inj (hentries.symm.trans hentries')
      obtain rfl : next = next' := (Prod.mk.inj (List.inj_on_of_nodup_map
        (h.nodup [] top entries (.here top) hentries) hmem hmem' rfl)).2
      exact ih (h.below ⟨entries, hentries, hmem⟩) hrest'

theorem entries?_eq_some_iff {entries : List (ByteArray × Nat)} :
    d.entries? number = some entries ↔ (d.node number).content = .directory entries := by
  rw [entries?]
  cases (d.node number).content <;> simp

end Disk

namespace Local

open Disk

variable {d : Disk} {top directory : Nat} {steps : List ByteArray} {data : ByteArray}

/-- Some steps end with the name of a script. -/
def EndInScript (steps : List ByteArray) : Prop := ∃ name ∈ steps.getLast?, isScript name = true

/-- There is a script at these steps. -/
structure HasScript (d : Disk) (top : Nat) (steps : List ByteArray) (data : ByteArray) : Prop where
  leads : ∃ number, d.Leads top steps number ∧ (d.node number).content = .file data
  named : EndInScript steps

theorem HasScript.unique {data' : ByteArray} (h : HasScript d top steps data) (htree : d.IsTree top)
    (h' : HasScript d top steps data') : data = data' := by
  obtain ⟨number, hleads, hcontent⟩ := h.leads
  obtain ⟨other, hleads', hcontent'⟩ := h'.leads
  obtain rfl := htree.unique hleads hleads'
  exact Content.file.inj (hcontent.symm.trans hcontent')

theorem mem_sortedEntries {name : ByteArray} {next : Nat} :
    (name, next) ∈ sortedEntries d directory ↔ d.HasEntry directory name next := by
  rw [sortedEntries, List.mem_mergeSort, HasEntry]
  cases d.entries? directory <;> simp

/-! ## The walk meets the scripts -/

/-- What the walk meets at an entry. -/
def entryScripts (d : Disk) (fuel : Nat) (entry : ByteArray × Nat) : List (List ByteArray × ByteArray) :=
  match (d.node entry.2).content with
  | .directory _ => (scriptsBelow d fuel entry.2).map fun (steps, data) => (entry.1 :: steps, data)
  | .file data => if isScript entry.1 then [([entry.1], data)] else []
  | .link _ => []

theorem scriptsBelow_succ (d : Disk) (fuel directory : Nat) :
    scriptsBelow d (fuel + 1) directory = (sortedEntries d directory).flatMap (entryScripts d fuel) := rfl

theorem mem_entryScripts {fuel : Nat} {name : ByteArray} {next : Nat} :
    (steps, data) ∈ entryScripts d fuel (name, next) ↔ ∃ rest, steps = name :: rest ∧
      (rest = [] ∧ (d.node next).content = .file data ∧ isScript name = true ∨
        (∃ entries, (d.node next).content = .directory entries) ∧
          (rest, data) ∈ scriptsBelow d fuel next) := by
  unfold entryScripts
  cases hcontent : (d.node next).content with
  | file bytes =>
    by_cases hscript : isScript name = true
    · simp [hscript, eq_comm]
    · simp [hscript]
  | directory entries =>
    constructor
    · intro h
      obtain ⟨⟨rest, bytes⟩, hrest, heq⟩ := List.mem_map.mp h
      obtain ⟨rfl, rfl⟩ := Prod.mk.inj heq
      exact ⟨rest, rfl, .inr ⟨⟨entries, rfl⟩, hrest⟩⟩
    · rintro ⟨rest, rfl, ⟨-, hfile, -⟩ | ⟨-, hrest⟩⟩
      · cases hfile
      · exact List.mem_map.mpr ⟨(rest, data), hrest, rfl⟩
  | link target => simp

/-- What the walk meets are scripts. -/
theorem hasScript_of_mem {fuel : Nat} (h : (steps, data) ∈ scriptsBelow d fuel top) :
    HasScript d top steps data := by
  induction fuel generalizing top steps with
  | zero => exact absurd h (by simp [scriptsBelow])
  | succ fuel ih =>
    rw [scriptsBelow_succ, List.mem_flatMap] at h
    obtain ⟨⟨name, next⟩, hmem, h⟩ := h
    have hentry := mem_sortedEntries.mp hmem
    obtain ⟨rest, rfl, ⟨rfl, hcontent, hscript⟩ | ⟨-, hrest⟩⟩ := mem_entryScripts.mp h
    · exact ⟨⟨next, hentry.leads, hcontent⟩, name, rfl, hscript⟩
    · obtain ⟨⟨number, hleads, hfile⟩, last, hlast, hscript⟩ := ih hrest
      refine ⟨⟨number, .step hentry hleads, hfile⟩, last, ?_, hscript⟩
      rw [List.getLast?_cons, Option.mem_def.mp hlast]
      rfl

/-- The first step to a script leads to the script itself or to a directory that has the script below it. -/
theorem HasScript.cases (h : HasScript d directory steps data) :
    ∃ name rest next, steps = name :: rest ∧ d.HasEntry directory name next ∧
      (rest = [] ∧ (d.node next).content = .file data ∧ isScript name = true ∨
        (∃ entries, (d.node next).content = .directory entries) ∧ HasScript d next rest data) := by
  obtain ⟨⟨number, hleads, hfile⟩, last, hlast, hscript⟩ := h
  cases hleads with
  | here => exact absurd hlast (by simp)
  | @step directory next number name rest hentry hrest =>
    refine ⟨name, rest, next, rfl, hentry, ?_⟩
    cases hrest with
    | here =>
      obtain rfl : name = last := by simpa using hlast
      exact .inl ⟨rfl, hfile, hscript⟩
    | @step _ further _ name' rest' hentry' hrest' =>
      obtain ⟨entries, hentries, hmem⟩ := hentry'
      refine .inr ⟨⟨entries, entries?_eq_some_iff.mp hentries⟩, ?_⟩
      refine ⟨⟨number, .step ⟨entries, hentries, hmem⟩ hrest', hfile⟩, last, ?_, hscript⟩
      rwa [List.getLast?_cons_cons] at hlast

/-- Some different directories, from each of which further steps lead to this node. -/
structure Above (d : Disk) (directory : Nat) (above : List Nat) : Prop where
  nodup : above.Nodup
  range : ∀ number ∈ above, number < d.nodes.size
  leads : ∀ number ∈ above, ∃ steps ≠ [], d.Leads number steps directory

theorem Above.length_le {above : List Nat} (h : Above d directory above) :
    above.length ≤ d.nodes.size := by
  have hsub : above ⊆ List.range d.nodes.size := fun number hmem => List.mem_range.mpr (h.range number hmem)
  simpa using (List.subperm_of_subset h.nodup hsub).length_le

/-- A directory of a tree is above its entries, and it is not among the directories above it. -/
theorem Above.cons {above : List Nat} (h : Above d directory above) (htree : d.IsTree directory)
    {name : ByteArray} {next : Nat} (hentry : d.HasEntry directory name next) :
    Above d next (directory :: above) where
  nodup := by
    refine List.nodup_cons.mpr ⟨fun hmem => ?_, h.nodup⟩
    obtain ⟨round, hne, hround⟩ := h.leads directory hmem
    exact hne (htree.acyclic [] round directory (.here directory) hround)
  range := by
    obtain ⟨entries, hentries, -⟩ := hentry
    exact List.forall_mem_cons.mpr ⟨lt_size_of_entries? hentries, h.range⟩
  leads := by
    refine List.forall_mem_cons.mpr ⟨⟨[name], by simp, hentry.leads⟩, fun number hmem => ?_⟩
    obtain ⟨steps, -, hsteps⟩ := h.leads number hmem
    exact ⟨steps ++ [name], by simp, hsteps.append hentry.leads⟩

/-- The walk meets every script as long as it may go at least as deep as there are nodes that are not above
the directory. -/
theorem mem_scriptsBelow_of_hasScript {fuel : Nat} {above : List Nat} (htree : d.IsTree directory)
    (habove : Above d directory above) (hfuel : d.nodes.size ≤ above.length + fuel)
    (h : HasScript d directory steps data) : (steps, data) ∈ scriptsBelow d fuel directory := by
  induction fuel generalizing directory above steps with
  | zero =>
    obtain ⟨name, rest, next, rfl, hentry, -⟩ := h.cases
    have hlength := (habove.cons htree hentry).length_le
    rw [List.length_cons] at hlength
    omega
  | succ fuel ih =>
    obtain ⟨name, rest, next, rfl, hentry, hnext⟩ := h.cases
    rw [scriptsBelow_succ, List.mem_flatMap]
    refine ⟨(name, next), mem_sortedEntries.mpr hentry, mem_entryScripts.mpr ⟨rest, rfl, ?_⟩⟩
    refine hnext.imp_right fun ⟨hdirectory, hrest⟩ => ⟨hdirectory, ?_⟩
    exact ih (htree.below hentry) (habove.cons htree hentry) (by rw [List.length_cons]; omega) hrest

/-- In a tree the walk meets just the scripts. -/
theorem mem_scriptsBelow_iff (htree : d.IsTree top) :
    (steps, data) ∈ scriptsBelow d d.nodes.size top ↔ HasScript d top steps data :=
  ⟨hasScript_of_mem, mem_scriptsBelow_of_hasScript htree ⟨List.nodup_nil, by simp, by simp⟩ (by simp)⟩

/-! ## The order of the walk -/

/-- At the first step at which they differ, the steps to one script go on with the smaller name. -/
def Precedes : List ByteArray → List ByteArray → Prop := List.Lex fun a b => a.toList < b.toList

theorem pairwise_sortedEntries (h : d.IsTree top) :
    (sortedEntries d top).Pairwise fun a b => a.1.toList < b.1.toList := by
  have hsorted : (sortedEntries d top).Pairwise fun a b => (!bytesBelow b.1.toList a.1.toList) = true := by
    refine List.pairwise_mergeSort (fun a b c hab hbc => ?_) (fun a b => ?_) _
    · simp only [Bool.not_eq_true', Bool.eq_false_iff, ne_eq, bytesBelow_iff, List.not_lt] at hab hbc ⊢
      exact List.le_trans hab hbc
    · simp only [Bool.or_eq_true, Bool.not_eq_true', Bool.eq_false_iff, ne_eq, bytesBelow_iff, List.not_lt]
      exact List.le_total ..
  have hnames : (sortedEntries d top).Pairwise fun a b => a.1 ≠ b.1 := by
    have hperm : (sortedEntries d top).Perm ((d.entries? top).getD []) := List.mergeSort_perm ..
    refine List.pairwise_map.mp ((hperm.map Prod.fst).nodup_iff.mpr ?_)
    cases hcontent : d.entries? top with
    | none => exact List.nodup_nil
    | some entries => exact h.nodup [] top entries (.here top) hcontent
  refine (hsorted.and hnames).imp fun {a b} hab => ?_
  obtain ⟨hle, hne⟩ := hab
  simp only [Bool.not_eq_true', Bool.eq_false_iff, ne_eq, bytesBelow_iff, List.not_lt] at hle
  by_contra hnot
  exact hne (toList_injective (Std.le_antisymm hle (List.not_lt.mp hnot)))

theorem pairwise_scriptsBelow (h : d.IsTree top) (fuel : Nat) :
    (scriptsBelow d fuel top).Pairwise fun a b => Precedes a.1 b.1 := by
  induction fuel generalizing top with
  | zero => exact .nil
  | succ fuel ih =>
    rw [scriptsBelow_succ, List.pairwise_flatMap]
    constructor
    · rintro ⟨name, next⟩ hmem
      have hbelow := ih (h.below (mem_sortedEntries.mp hmem))
      unfold entryScripts
      split
      · rw [List.pairwise_map]
        exact hbelow.imp fun hab => .cons hab
      · split
        · exact List.pairwise_singleton ..
        · exact .nil
      · exact .nil
    · refine (pairwise_sortedEntries h).imp ?_
      rintro ⟨a, m⟩ ⟨b, n⟩ hab ⟨x, data⟩ hx ⟨y, data'⟩ hy
      obtain ⟨xs, rfl, -⟩ := mem_entryScripts.mp hx
      obtain ⟨ys, rfl, -⟩ := mem_entryScripts.mp hy
      exact .rel hab

end Local
end Sandbox
