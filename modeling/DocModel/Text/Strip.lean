/-!
Removing bracketed parts from a text.
-/

namespace DocModel.Text

/-- A text without the parts that go from an `opening` to the first `closing` behind it. An
`opening` without a `closing` behind it stays. -/
def strip (opening closing : Char) : List Char → List Char
  | [] => []
  | c :: rest =>
    if c = opening then
      if rest.contains closing then
        strip opening closing (rest.dropWhile (· ≠ closing)).tail
      else c :: rest
    else c :: strip opening closing rest
termination_by s => s.length
decreasing_by
  · have := (List.dropWhile_suffix (· ≠ closing) (l := rest)).length_le
    rw [List.length_tail, List.length_cons]
    omega
  · exact Nat.lt_succ_self _

end DocModel.Text
