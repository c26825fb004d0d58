/-!
# Replacing within a text
-/

namespace Sandbox

/-- The text with every occurrence of a pattern replaced, from left to right. What has been put in is
not looked at again. -/
def replaceAll (pattern replacement : List Char) (s : List Char) : List Char :=
  match s with
  | [] => []
  | c :: rest =>
    if pattern ≠ [] ∧ pattern.isPrefixOf (c :: rest) then
      replacement ++ replaceAll pattern replacement (rest.drop (pattern.length - 1))
    else c :: replaceAll pattern replacement rest
  termination_by s.length
  decreasing_by all_goals (simp only [List.length_drop, List.length_cons]; omega)

end Sandbox
