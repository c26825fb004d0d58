import Mathlib.Data.List.Basic
import Sandbox.Config.Basic

/-!
# The root in the other paths of a profile

A path of a profile may have marks for the root in it. `Expansion.around` expands such a path around the
root, which is put in as it is. The program puts the root in first and expands then, so a root in which
there is something to expand is expanded a second time; another one is put in as it is.
-/

namespace Sandbox

namespace Expansion

/-! ## Texts with marks -/

/-- The characters of a text, with none for each mark for the root. -/
def marked (s : List Char) : List (Option Char) :=
  match s with
  | [] => []
  | c :: rest =>
    if rootMark.toList.isPrefixOf (c :: rest) then
      none :: marked (rest.drop (rootMark.toList.length - 1))
    else some c :: marked rest
  termination_by s.length
  decreasing_by all_goals (simp only [List.length_drop, List.length_cons]; omega)

/-- A text with the root in place of its marks. -/
def filled (root : List Char) (s : List (Option Char)) : List Char := s.flatMap (·.elim root ([·]))

/-- A mark is no character of a name. -/
def isNamePart (p : Option Char) : Bool := p.elim false isNameCharacter

/-- A mark closes nothing. -/
def isOpenPart (p : Option Char) : Bool := p.elim true notClosing

/-- The text up to the mark of a default, and the default. -/
def splitDefaultAround : List (Option Char) → List (Option Char) × Option (List (Option Char))
  | some ':' :: some '-' :: rest => ([], some rest)
  | p :: rest =>
    let (name, standard) := splitDefaultAround rest
    (p :: name, standard)
  | [] => ([], none)

/-- The value of what stands between braces, where the root is part of a name or of a default. -/
def bracedAround (value : String → Option String) (root : List Char) (inside : List (Option Char)) :
    Option (List Char) :=
  let (name, standard) := match splitDefaultAround inside with
    | ([], some _) => (inside, none)
    | parts => parts
  match value (String.ofList (filled root name)) with
  | some v => some v.toList
  | none => standard.map (filled root)

/-- The text with the values of its variables and with the root as it is; nothing if one of the variables
has no value. -/
def substituteAround (value : String → Option String) (root : List Char) (s : List (Option Char)) :
    Option (List Char) :=
  match s with
  | [] => some []
  | none :: rest => (root ++ ·) <$> substituteAround value root rest
  | some '$' :: some '$' :: rest => ('$' :: ·) <$> substituteAround value root rest
  | some '$' :: some '\x7b' :: rest =>
    if rest.all isOpenPart then (['$', '\x7b'] ++ ·) <$> substituteAround value root rest
    else do
      let v ← bracedAround value root (rest.takeWhile isOpenPart)
      return v ++ (← substituteAround value root ((rest.dropWhile isOpenPart).drop 1))
  | some '$' :: some c :: rest =>
    if isNameCharacter c then do
      let v ← value (String.ofList (c :: filled root (rest.takeWhile isNamePart)))
      return v.toList ++ (← substituteAround value root (rest.dropWhile isNamePart))
    else ('$' :: ·) <$> substituteAround value root (some c :: rest)
  | some c :: rest => (c :: ·) <$> substituteAround value root rest
  termination_by s.length
  decreasing_by
    all_goals
      have closed := (List.dropWhile_suffix (l := rest) isOpenPart).length_le
      have named := (List.dropWhile_suffix (l := rest) isNamePart).length_le
      simp only [List.length_drop, List.length_cons]
      omega

/-- A path with its variables and its tilde expanded around the root. -/
def around (w : Surroundings) (root text : String) : Option String := do
  let s := marked text.toList
  let expanded ← substituteAround w.valueOf? root.toList s
  return String.ofList (if s.head? = some (some '~') then tilde w.home? expanded else expanded)

/-! ## A root with nothing to expand -/

/-- A root in which nothing is expanded and which takes part in nothing that is expanded around it. -/
structure Inert (root : List Char) : Prop where
  slash : root.head? = some '/'
  dollar : '$' ∉ root
  brace : '\x7d' ∉ root
  colon : ':' ∉ root

variable {value : String → Option String} {root : List Char}

@[simp] theorem filled_nil : filled root [] = [] := rfl

@[simp] theorem filled_some (c : Char) (rest : List (Option Char)) :
    filled root (some c :: rest) = c :: filled root rest := rfl

@[simp] theorem filled_none (rest : List (Option Char)) :
    filled root (none :: rest) = root ++ filled root rest := rfl

@[simp] theorem filled_map_some (s : List Char) : filled root (s.map some) = s := by
  induction s with
  | nil => rfl
  | cons c rest ih => rw [List.map_cons, filled_some, ih]

/-- The program puts the root in for the marks. -/
theorem replaceAll_rootMark (root s : List Char) :
    replaceAll rootMark.toList root s = filled root (marked s) := by
  fun_induction marked s with
  | case1 => rw [replaceAll, filled_nil]
  | case2 c rest hmark ih =>
    rw [replaceAll, if_pos ⟨by decide, hmark⟩, ih, filled_none]
  | case3 c rest hmark ih =>
    rw [replaceAll, if_neg (fun h => hmark h.2), ih, filled_some]

theorem Inert.exists_cons (h : Inert root) : ∃ tail, root = '/' :: tail := by
  cases root with
  | nil => exact absurd h.slash (by simp)
  | cons c tail =>
    obtain rfl : c = '/' := by simpa using h.slash
    exact ⟨tail, rfl⟩

/-- A run of characters of one kind ends in front of the root, or goes on through all of it. -/
structure Spans (root : List Char) (p : Char → Bool) (q : Option Char → Bool) : Prop where
  character : ∀ c, q (some c) = p c
  through : q none = true → ∀ c ∈ root, p c = true
  ends : q none = false → ∃ c tail, root = c :: tail ∧ p c = false

theorem isNameCharacter_slash : isNameCharacter '/' = false := by decide +kernel

theorem Inert.spans_open (h : Inert root) : Spans root notClosing isOpenPart where
  character _ := rfl
  through _ c hc := by
    have hne : c ≠ '\x7d' := fun heq => h.brace (heq ▸ hc)
    simpa [notClosing] using hne
  ends hnone := absurd hnone (by decide)

theorem Inert.spans_name (h : Inert root) : Spans root isNameCharacter isNamePart where
  character _ := rfl
  through hnone := absurd hnone (by decide)
  ends _ := by
    obtain ⟨tail, htail⟩ := h.exists_cons
    exact ⟨'/', tail, htail, isNameCharacter_slash⟩

section Spans

variable {p : Char → Bool} {q : Option Char → Bool}

theorem Spans.takeWhile (h : Spans root p q) (s : List (Option Char)) :
    (filled root s).takeWhile p = filled root (s.takeWhile q) := by
  induction s with
  | nil => rfl
  | cons part rest ih =>
    cases part with
    | some c =>
      rw [filled_some, List.takeWhile_cons, List.takeWhile_cons, h.character, ih]
      cases p c <;> rfl
    | none =>
      rw [filled_none, List.takeWhile_cons]
      cases hnone : q none with
      | true =>
        rw [List.takeWhile_append_of_pos (h.through hnone), ih]
        rfl
      | false =>
        obtain ⟨c, tail, hroot, hc⟩ := h.ends hnone
        simp [hroot, hc]

theorem Spans.dropWhile (h : Spans root p q) (s : List (Option Char)) :
    (filled root s).dropWhile p = filled root (s.dropWhile q) := by
  induction s with
  | nil => rfl
  | cons part rest ih =>
    cases part with
    | some c =>
      rw [filled_some, List.dropWhile_cons, List.dropWhile_cons, h.character, ih]
      cases p c <;> rfl
    | none =>
      rw [filled_none, List.dropWhile_cons]
      cases hnone : q none with
      | true =>
        rw [List.dropWhile_append_of_pos (h.through hnone), ih]
        rfl
      | false =>
        obtain ⟨c, tail, hroot, hc⟩ := h.ends hnone
        simp [hroot, hc]

theorem Spans.all (h : Spans root p q) (s : List (Option Char)) :
    (filled root s).all p = s.all q := by
  induction s with
  | nil => rfl
  | cons part rest ih =>
    cases part with
    | some c => rw [filled_some, List.all_cons, List.all_cons, h.character, ih]
    | none =>
      rw [filled_none, List.all_append, List.all_cons, ih]
      congr 1
      cases hnone : q none with
      | true => exact List.all_eq_true.mpr (h.through hnone)
      | false =>
        obtain ⟨c, tail, hroot, hc⟩ := h.ends hnone
        simp [hroot, hc]

end Spans

/-! ## Expanding around the root -/

/-- A character that begins no mark of a default belongs to the name. -/
theorem splitDefault_cons {c : Char} {rest : List Char} (h : c = ':' → rest.head? ≠ some '-') :
    splitDefault (c :: rest) = (c :: (splitDefault rest).1, (splitDefault rest).2) := by
  rw [splitDefault]
  intro tail hc hrest
  exact h hc (by rw [hrest]; rfl)

theorem splitDefault_append {before : List Char} (hbefore : ':' ∉ before) (rest : List Char) :
    splitDefault (before ++ rest) = (before ++ (splitDefault rest).1, (splitDefault rest).2) := by
  induction before with
  | nil => rfl
  | cons c before ih =>
    obtain ⟨hc, hbefore⟩ := not_or.mp (mt List.mem_cons.mpr hbefore)
    rw [List.cons_append, splitDefault_cons (fun h => absurd h.symm hc), ih hbefore]
    rfl

/-- A text begins with the character that it begins with around the root, or with a slash. -/
theorem Inert.head?_filled (h : Inert root) (s : List (Option Char)) :
    (filled root s).head? = s.head?.map (·.getD '/') := by
  obtain ⟨tail, htail⟩ := h.exists_cons
  cases s with
  | nil => rfl
  | cons part rest =>
    cases part with
    | none => rw [filled_none, htail]; rfl
    | some c => rfl

/-- The root is in no mark of a default. -/
theorem Inert.splitDefault_filled (h : Inert root) (s : List (Option Char)) :
    splitDefault (filled root s) =
      (filled root (splitDefaultAround s).1, (splitDefaultAround s).2.map (filled root)) := by
  fun_induction splitDefaultAround s with
  | case1 rest => rfl
  | case2 part rest hpart name standard hsplit ih =>
    rw [hsplit] at ih
    cases part with
    | none => rw [filled_none, splitDefault_append h.colon, ih]; rfl
    | some c =>
      rw [filled_some, splitDefault_cons, ih]
      · rfl
      · intro hc hhead
        rw [h.head?_filled] at hhead
        obtain ⟨next, hnext, hdash⟩ := Option.map_eq_some_iff.mp hhead
        obtain ⟨tail, rfl⟩ := List.head?_eq_some_iff.mp hnext
        cases next with
        | none => exact absurd hdash (by decide)
        | some d =>
          obtain rfl : d = '-' := hdash
          exact hpart tail (by rw [hc]) rfl
  | case3 => rfl

theorem match_eq_or (v : Option String) (standard : Option (List Char)) :
    (match v with
      | some v => some v.toList
      | none => standard) = (v.map String.toList).or standard := by
  cases v <;> rfl

theorem braced_cons {inside name : List Char} {c : Char} {standard : Option (List Char)}
    (h : splitDefault inside = (c :: name, standard)) :
    braced value inside = ((value (String.ofList (c :: name))).map String.toList).or standard := by
  rw [braced, h]
  exact match_eq_or _ _

theorem bracedAround_cons {inside name : List (Option Char)} {part : Option Char}
    {standard : Option (List (Option Char))} (h : splitDefaultAround inside = (part :: name, standard)) :
    bracedAround value root inside =
      ((value (String.ofList (filled root (part :: name)))).map String.toList).or
        (standard.map (filled root)) := by
  rw [bracedAround, h]
  exact match_eq_or _ _

theorem Inert.braced_filled (h : Inert root) (inside : List (Option Char)) :
    braced value (filled root inside) = bracedAround value root inside := by
  have hfilled := h.splitDefault_filled inside
  cases hsplit : splitDefaultAround inside with
  | mk name standard =>
    rw [hsplit] at hfilled
    cases name with
    | nil =>
      rw [braced, bracedAround, hfilled, hsplit]
      cases standard <;> rfl
    | cons part rest =>
      have hname : filled root (part :: rest) ≠ [] := by
        obtain ⟨tail, htail⟩ := h.exists_cons
        cases part <;> simp [htail]
      obtain ⟨c, chars, hcons⟩ := List.exists_cons_of_ne_nil hname
      rw [bracedAround_cons hsplit, hcons]
      exact braced_cons (hfilled.trans (by rw [hcons]))

/-- A character that begins nothing to expand stands for itself. -/
theorem substitute_cons {c : Char} (hc : c ≠ '$') (rest : List Char) :
    substitute value (c :: rest) = (c :: ·) <$> substitute value rest := by
  rw [substitute]
  · exact fun _ h _ => hc h
  · exact fun _ h _ => hc h
  · exact fun _ _ h _ => hc h

/-- So does a dollar sign that begins nothing to expand. -/
theorem substitute_dollar {rest : List Char} (h : ∀ c ∈ rest.head?, c ≠ '$' ∧ c ≠ '\x7b' ∧
    isNameCharacter c = false) :
    substitute value ('$' :: rest) = ('$' :: ·) <$> substitute value rest := by
  cases rest with
  | nil => simp [substitute]
  | cons c rest =>
    obtain ⟨hdollar, hbrace, hname⟩ := h c rfl
    rw [substitute, if_neg (by simp [hname])]
    · exact hdollar
    · exact hbrace

theorem substitute_append {before : List Char} (hbefore : '$' ∉ before) (rest : List Char) :
    substitute value (before ++ rest) = (before ++ ·) <$> substitute value rest := by
  induction before with
  | nil => simp
  | cons c before ih =>
    obtain ⟨hc, hbefore⟩ := not_or.mp (mt List.mem_cons.mpr hbefore)
    rw [List.cons_append, substitute_cons (Ne.symm hc), ih hbefore, Functor.map_map]
    rfl

/-- What is not open is a brace, and no mark. -/
theorem drop_one_dropWhile_open (root : List Char) (rest : List (Option Char)) :
    (filled root (rest.dropWhile isOpenPart)).drop 1 =
      filled root ((rest.dropWhile isOpenPart).drop 1) := by
  cases hbehind : rest.dropWhile isOpenPart with
  | nil => rfl
  | cons part tail =>
    have hpart := List.head?_dropWhile_not isOpenPart rest
    rw [hbehind] at hpart
    cases part with
    | none => exact absurd hpart (by simp [isOpenPart])
    | some c => rfl

/-- A dollar sign in front of a mark stands for itself, since the root begins with a slash. -/
theorem Inert.substitute_dollar_filled (h : Inert root) {rest : List (Option Char)}
    (hrest : ∀ d tail, rest ≠ some d :: tail) :
    substitute value ('$' :: filled root rest) = ('$' :: ·) <$> substitute value (filled root rest) := by
  refine substitute_dollar fun next hnext => ?_
  rw [Option.mem_def, h.head?_filled] at hnext
  obtain ⟨part, hpart, rfl⟩ := Option.map_eq_some_iff.mp hnext
  obtain ⟨tail, rfl⟩ := List.head?_eq_some_iff.mp hpart
  cases part with
  | none => exact ⟨by decide, by decide, isNameCharacter_slash⟩
  | some d => exact absurd rfl (hrest d tail)

/-- The expansion of a text with an inert root in it is the expansion around the root. -/
theorem Inert.substitute_filled (h : Inert root) (s : List (Option Char)) :
    substitute value (filled root s) = substituteAround value root s := by
  fun_induction substituteAround value root s with
  | case1 => rw [filled_nil, substitute]
  | case2 rest ih => rw [filled_none, substitute_append h.dollar, ih]
  | case3 rest ih => rw [filled_some, filled_some, substitute, ih]
  | case4 rest hopen ih =>
    rw [filled_some, filled_some, substitute, h.spans_open.all, if_pos hopen, ih]
  | case5 rest hopen ih =>
    rw [filled_some, filled_some, substitute, h.spans_open.all, if_neg hopen, h.spans_open.takeWhile,
      h.spans_open.dropWhile, h.braced_filled, drop_one_dropWhile_open, ih]
  | case6 c rest hdollar hbrace hname ih =>
    rw [filled_some, filled_some, substitute, if_pos hname, h.spans_name.takeWhile,
      h.spans_name.dropWhile, ih]
    · exact hdollar
    · exact hbrace
  | case7 c rest hdollar hbrace hname ih =>
    rw [filled_some, filled_some, substitute, if_neg hname, ← filled_some, ih]
    · exact hdollar
    · exact hbrace
  | case8 c rest hdollars hbrace hcharacter ih =>
    rw [filled_some, ← ih]
    by_cases hc : c = '$'
    · subst hc
      exact h.substitute_dollar_filled fun d tail hrest => hcharacter d tail hrest rfl
    · exact substitute_cons hc _

theorem Inert.pathBelow_eq {root : String} (h : Inert root.toList) (w : Surroundings) (text : String) :
    pathBelow w root text = around w root text := by
  have hhead : (filled root.toList (marked text.toList)).head? = some '~' ↔
      (marked text.toList).head? = some (some '~') := by
    rw [h.head?_filled]
    cases (marked text.toList).head? with
    | none => simp
    | some part => cases part <;> simp
  simp only [pathBelow, path, around, String.toList_ofList, replaceAll_rootMark, h.substitute_filled, hhead]

/-! ## A text behind the root -/

/-- A text that may stand behind the root with nothing in it to expand: further steps, or nothing. -/
structure IsTail (tail : List Char) : Prop where
  slash : tail.head?.getD '/' = '/'
  dollar : '$' ∉ tail
  opening : '\x7b' ∉ tail
  closing : '\x7d' ∉ tail

variable {tail : List Char}

theorem IsTail.head?_eq (h : IsTail tail) {c : Char} (hc : c ∈ tail.head?) : c = '/' := by
  have hslash := h.slash
  rwa [Option.mem_def.mp hc] at hslash

/-- Nothing of the tail belongs to a name at the end of the text before it. -/
theorem IsTail.takeWhile_append (h : IsTail tail) (s : List Char) :
    (s ++ tail).takeWhile isNameCharacter = s.takeWhile isNameCharacter ∧
      (s ++ tail).dropWhile isNameCharacter = s.dropWhile isNameCharacter ++ tail := by
  induction s with
  | nil =>
    cases tail with
    | nil => exact ⟨rfl, rfl⟩
    | cons c rest =>
      have hc : isNameCharacter c = false := h.head?_eq (c := c) rfl ▸ isNameCharacter_slash
      simp [hc]
  | cons c s ih =>
    obtain ⟨htake, hdrop⟩ := ih
    rw [List.cons_append, List.takeWhile_cons, List.takeWhile_cons, List.dropWhile_cons,
      List.dropWhile_cons, htake, hdrop]
    cases isNameCharacter c <;> exact ⟨rfl, rfl⟩

/-- Braces that are closed in front of the tail are not closed in it. -/
theorem dropWhile_append_of_closed {s : List Char} (h : ¬s.all notClosing = true) (tail : List Char) :
    (s ++ tail).takeWhile notClosing = s.takeWhile notClosing ∧
      ((s ++ tail).dropWhile notClosing).drop 1 = (s.dropWhile notClosing).drop 1 ++ tail := by
  induction s with
  | nil => exact absurd rfl h
  | cons c s ih =>
    rw [List.cons_append, List.takeWhile_cons, List.takeWhile_cons, List.dropWhile_cons,
      List.dropWhile_cons]
    cases hc : notClosing c with
    | false => exact ⟨rfl, rfl⟩
    | true =>
      obtain ⟨htake, hdrop⟩ := ih (by simpa [hc] using h)
      exact ⟨congrArg (c :: ·) htake, hdrop⟩

/-- A dollar sign in front of the tail stands for itself. -/
theorem IsTail.substitute_dollar (h : IsTail tail) :
    substitute value ('$' :: tail) = ('$' :: ·) <$> substitute value tail := by
  refine Expansion.substitute_dollar fun d hd => ?_
  obtain rfl := h.head?_eq hd
  exact ⟨by decide, by decide, isNameCharacter_slash⟩

theorem IsTail.substitute_self (h : IsTail tail) : substitute value tail = some tail := by
  have hself : substitute value (tail ++ []) = (tail ++ ·) <$> substitute value [] :=
    Expansion.substitute_append h.dollar []
  rw [List.append_nil, substitute] at hself
  simpa using hself

/-- Braces that are not closed are not closed in the tail. -/
theorem IsTail.all_append (h : IsTail tail) (s : List Char) :
    (s ++ tail).all notClosing = s.all notClosing := by
  have htail : tail.all notClosing = true := by
    rw [List.all_eq_true]
    exact fun c hc => by simpa [notClosing] using fun heq : c = '\x7d' => h.closing (heq ▸ hc)
  rw [List.all_append, htail, Bool.and_true]

/-- What comes behind both parts comes behind the second one. -/
theorem bind_append {α : Type} (first : Option α) (text : α → List Char) (second : Option (List Char))
    (tail : List Char) :
    (do let v ← first; return text v ++ (← (· ++ tail) <$> second)) =
      (· ++ tail) <$> (do let v ← first; return text v ++ (← second)) := by
  cases first with
  | none => rfl
  | some v => cases second <;> simp

/-- What is expanded in front of the tail is expanded as without it. -/
theorem IsTail.substitute_append (h : IsTail tail) (s : List Char) :
    substitute value (s ++ tail) = (· ++ tail) <$> substitute value s := by
  fun_induction substitute value s with
  | case1 => exact h.substitute_self
  | case2 rest ih =>
    rw [List.cons_append, List.cons_append, substitute, ih]
    cases substitute value rest <;> rfl
  | case3 rest hopen ih =>
    rw [List.cons_append, List.cons_append, substitute, h.all_append, if_pos hopen, ih]
    cases substitute value rest <;> rfl
  | case4 rest hopen ih =>
    obtain ⟨htake, hdrop⟩ := dropWhile_append_of_closed hopen tail
    rw [List.cons_append, List.cons_append, substitute, h.all_append, if_neg hopen, htake, hdrop, ih]
    exact bind_append _ (fun v => v) _ tail
  | case5 c rest hdollar hbrace hname ih =>
    obtain ⟨htake, hdrop⟩ := h.takeWhile_append rest
    rw [List.cons_append, List.cons_append, substitute, if_pos hname, htake, hdrop, ih]
    · exact bind_append _ String.toList _ tail
    · exact hdollar
    · exact hbrace
  | case6 c rest hdollar hbrace hname ih =>
    rw [List.cons_append, List.cons_append, substitute, if_neg hname, ← List.cons_append, ih]
    · cases substitute value (c :: rest) <;> rfl
    · exact hdollar
    · exact hbrace
  | case7 c rest hdollars hbrace hcharacter ih =>
    have hcons : substitute value (c :: (rest ++ tail)) =
        (c :: ·) <$> substitute value (rest ++ tail) := by
      by_cases hc : c = '$'
      · subst hc
        -- nothing stands behind this dollar sign but the tail
        obtain rfl : rest = [] := by
          cases rest with
          | nil => rfl
          | cons d rest => exact (hcharacter d rest rfl rfl).elim
        exact h.substitute_dollar
      · exact substitute_cons hc _
    rw [List.cons_append, hcons, ih]
    cases substitute value rest <;> rfl

/-- A tilde that is the first step stands for the home directory. -/
theorem tilde_step (home : String) {rest : List Char} (h : rest.head?.getD '/' = '/') :
    tilde (some home) ('~' :: rest) = home.toList ++ rest := by
  cases rest with
  | nil => simp [tilde]
  | cons c rest =>
    obtain rfl : c = '/' := h
    rfl

/-- Another text stays as it is. -/
theorem tilde_of_not_step (home : Option String) {s : List Char}
    (h : ∀ rest, s = '~' :: rest → rest.head?.getD '/' ≠ '/') : tilde home s = s := by
  rw [tilde]
  · rintro home rfl -
    exact h [] rfl rfl
  · rintro rest home rfl -
    exact h ('/' :: rest) rfl rfl

theorem IsTail.tilde_append (h : IsTail tail) (home : Option String) (s : List Char) :
    tilde home (s ++ tail) = tilde home s ++ tail := by
  have hstep : ∀ rest : List Char,
      ((rest ++ tail).head?.getD '/' = '/' ↔ rest.head?.getD '/' = '/') := by
    intro rest
    cases rest with
    | nil => simpa using h.slash
    | cons c rest => rfl
  by_cases hs : ∃ rest, s = '~' :: rest ∧ rest.head?.getD '/' = '/'
  · obtain ⟨rest, rfl, hrest⟩ := hs
    cases home with
    | none => simp [tilde]
    | some home =>
      rw [tilde_step home hrest, List.cons_append, tilde_step home ((hstep rest).mpr hrest),
        List.append_assoc]
  · have hs : ∀ rest, s = '~' :: rest → rest.head?.getD '/' ≠ '/' :=
      fun rest heq hrest => hs ⟨rest, heq, hrest⟩
    rw [tilde_of_not_step home hs, tilde_of_not_step]
    intro rest heq
    cases s with
    | nil => exact absurd (h.head?_eq (c := '~') (by rw [← List.nil_append tail, heq]; rfl)) (by decide)
    | cons c s =>
      obtain ⟨rfl, rfl⟩ := List.cons.inj heq
      exact fun hrest => hs s rfl ((hstep s).mp hrest)

/-- A path with a tail behind it is the expanded path with the tail behind it. -/
theorem IsTail.path_append {tail : String} (h : IsTail tail.toList) (w : Surroundings) (text : String) :
    path w (text ++ tail) = (· ++ tail) <$> path w text := by
  have hhead : (text ++ tail).toList.head? = some '~' ↔ text.toList.head? = some '~' := by
    rw [String.toList_append]
    cases text.toList with
    | nil => exact ⟨fun heq => absurd (h.head?_eq heq) (by decide), fun heq => absurd heq (by simp)⟩
    | cons c rest => rfl
  simp only [path, hhead]
  rw [String.toList_append, h.substitute_append]
  cases substitute w.valueOf? text.toList with
  | none => rfl
  | some s =>
    refine congrArg some ?_
    split
    · rw [h.tilde_append, String.ofList_append, String.ofList_toList]
    · rw [String.ofList_append, String.ofList_toList]

/-! ## The root with further steps behind it -/

theorem marked_of_notMem {s : List Char} (h : '\x7b' ∉ s) : marked s = s.map some := by
  fun_induction marked s with
  | case1 => rfl
  | case2 c rest hmark ih =>
    refine absurd ?_ h
    exact (List.isPrefixOf_iff_prefix.mp hmark).subset (by decide)
  | case3 c rest hmark ih =>
    rw [ih fun hmem => h (List.mem_cons_of_mem _ hmem)]
    rfl

theorem IsTail.marked_rootMark (h : IsTail tail) :
    marked (rootMark.toList ++ tail) = none :: tail.map some := by
  have hmark : rootMark.toList.isPrefixOf (rootMark.toList ++ tail) = true :=
    List.isPrefixOf_iff_prefix.mpr (List.prefix_append ..)
  have hcons : rootMark.toList ++ tail = '\x7b' :: (rootMark.toList.drop 1 ++ tail) := rfl
  rw [hcons, marked, ← hcons, if_pos hmark]
  have hdrop : (rootMark.toList.drop 1 ++ tail).drop (rootMark.toList.length - 1) = tail := rfl
  rw [hdrop, marked_of_notMem h.opening]

theorem substituteAround_of_notMem (h : '$' ∉ tail) :
    substituteAround value root (tail.map some) = some tail := by
  induction tail with
  | nil => rw [List.map_nil, substituteAround]
  | cons c rest ih =>
    obtain ⟨hc, hrest⟩ := not_or.mp (mt List.mem_cons.mpr h)
    rw [List.map_cons, substituteAround, ih hrest]
    · rfl
    · exact fun _ _ heq => hc heq.symm
    · exact fun _ _ heq => hc heq.symm
    · exact fun _ _ _ heq => hc heq.symm

theorem IsTail.around_rootMark {tail : String} (h : IsTail tail.toList) (w : Surroundings)
    (root : String) : around w root (rootMark ++ tail) = some (root ++ tail) := by
  simp only [around]
  rw [String.toList_append, h.marked_rootMark, substituteAround, substituteAround_of_notMem h.dollar]
  simp

theorem IsTail.pathBelow_rootMark {tail : String} (h : IsTail tail.toList) (w : Surroundings)
    (root : String) : pathBelow w root (rootMark ++ tail) = (· ++ tail) <$> path w root := by
  rw [← h.path_append, pathBelow, replaceAll_rootMark, String.toList_append, h.marked_rootMark,
    filled_none, filled_map_some, ← String.toList_append, String.ofList_toList]

/-- Steps behind the mark come behind the root itself just if expanding the root again changes
nothing. -/
theorem IsTail.pathBelow_eq_iff {tail : String} (h : IsTail tail.toList) (w : Surroundings)
    (root : String) :
    pathBelow w root (rootMark ++ tail) = around w root (rootMark ++ tail) ↔ path w root = some root := by
  rw [h.around_rootMark, h.pathBelow_rootMark]
  cases path w root with
  | none => exact ⟨fun heq => absurd heq (by simp), fun heq => absurd heq (by simp)⟩
  | some again => simp [String.append_left_inj]

end Expansion

namespace Config

open Expansion (Inert IsTail around pathBelow rootMark)

/-- A profile with its root resolved, and with its other paths expanded in a certain way. -/
def resolveBy (below : String → Option String) (root name : String) (p : Profile) (l : Logging) :
    Except Error Config := do
  let initDirectory ← p.initDirectory.mapM (expanded ∘ below)
  let libraryDirectory ← p.libraryDirectory.mapM (expanded ∘ below)
  let mounts ← p.mounts.mapM fun (name, mount) => do
    if name.isEmpty || name.contains '/' then throw (.badMount name)
    return (name, { mount with path := ← expanded (below mount.path) })
  let file ← l.file.mapM (expanded ∘ below)
  return ⟨name, { p with root, initDirectory, libraryDirectory, mounts }, { l with file }⟩

variable {w : Surroundings} {p : Profile} {root : String}

theorem resolve_eq (hroot : Expansion.path w p.root = some root) (name : String) (l : Logging) :
    resolve w name p l = resolveBy (pathBelow w root) root name p l := by
  rw [resolve, hroot]
  rfl

/-- The other paths of a profile are expanded around an inert root. Around any root, the mark with further
steps behind it stands for the root just if expanding the root again changes nothing. -/
theorem resolve_around (hroot : Expansion.path w p.root = some root) (name : String) (l : Logging) :
    resolve w name p l = resolveBy (pathBelow w root) root name p l ∧
    (Inert root.toList → resolve w name p l = resolveBy (around w root) root name p l) ∧
    ∀ tail : String, IsTail tail.toList →
      (pathBelow w root (rootMark ++ tail) = around w root (rootMark ++ tail) ↔
        Expansion.path w root = some root) := by
  refine ⟨resolve_eq hroot name l, fun hinert => ?_, fun tail htail => htail.pathBelow_eq_iff w root⟩
  have hbelow : pathBelow w root = around w root := funext (hinert.pathBelow_eq w)
  rw [resolve_eq hroot, hbelow]

/-- The root may come out of a variable. -/
theorem resolve_around_of_variable :
    let w : Surroundings := { disk := ⟨#[]⟩, environ := [("BASE", "/srv")] }
    let p : Profile := { root := "$BASE/box", initDirectory := some "\x7b\x7broot\x7d\x7d/init" }
    Expansion.path w p.root = some "/srv/box" ∧
      resolve w "default" p {} = resolveBy (around w "/srv/box") "/srv/box" "default" p {} := by
  intro w p
  have h : Expansion.path w p.root = some "/srv/box" := by decide +kernel
  exact ⟨h, (resolve_around h _ _).2.1 ⟨by decide, by decide, by decide, by decide⟩⟩

/-- A root with a dollar sign is not put in as it is: the dollar sign is expanded again. -/
theorem not_resolve_around :
    ¬∀ (w : Surroundings) (p : Profile) (root name : String) (l : Logging),
      Expansion.path w p.root = some root →
        resolve w name p l = resolveBy (around w root) root name p l := by
  intro h
  have hroot : Expansion.path ⟨⟨#[]⟩, ⟨true, []⟩, [], .epoch⟩ "/a$$b" = some "/a$b" := by decide +kernel
  have hresolve := h ⟨⟨#[]⟩, ⟨true, []⟩, [], .epoch⟩
    { root := "/a$$b", initDirectory := some "\x7b\x7broot\x7d\x7d/x" } "/a$b" "default" {} hroot
  exact absurd hresolve (by decide +kernel)

end Config
end Sandbox
