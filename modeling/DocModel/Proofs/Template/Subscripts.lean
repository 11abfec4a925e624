import DocModel.Proofs.Template.Occurrences
import DocModel.Proofs.Text.Strip
import DocModel.Template.Reading
import Mathlib

/-!
Subscripts have no part in the data paths of a template. Whether a name is free, whether it is reserved and
what its clean path is do not depend on what stands inside of its subscripts. So the data paths are those of
the hollow names, and a reference that stands in a subscript is among them only if it occurs elsewhere.
-/

namespace DocModel

/-- A name with nothing inside of its subscripts. -/
def Path.hollow (name : String) : String := String.ofList (Text.hollow '[' ']' name.toList)

example : Path.hollow "data.rows[data.idx].cells[0]" = "data.rows[].cells[]" := by decide +kernel

namespace Path

theorem toList_hollow (name : String) : (hollow name).toList = Text.hollow '[' ']' name.toList :=
  String.toList_ofList

theorem clean_hollow (name : String) : clean (hollow name) = clean name := by
  rw [clean, names, stripSubscripts, toList_hollow, Text.strip_hollow, ← stripSubscripts, ← names,
    ← clean]

theorem hollow_eq_iff {word : String} (hword : '[' ∉ word.toList) (name : String) :
    hollow name = word ↔ name = word := by
  rw [← String.toList_inj, toList_hollow, Text.hollow_eq_iff hword, String.toList_inj]

theorem head_hollow_eq_iff {word : String} (hword : '[' ∉ word.toList) (name : String) :
    head (hollow name) = word ↔ head name = word := by
  rw [head, head, toList_hollow, ← String.toList_inj, ← String.toList_inj, String.toList_ofList,
    String.toList_ofList, Text.takeWhile_hollow_eq_iff hword]

theorem isReserved_hollow (name : String) : isReserved (hollow name) = isReserved name := by
  have hthis : (head (hollow name) == "this") = (head name == "this") := by
    rw [Bool.eq_iff_iff, beq_iff_eq, beq_iff_eq, head_hollow_eq_iff (by decide)]
  have hkeywords : keywords.contains (hollow name) = keywords.contains name := by
    have hplain : ∀ word ∈ keywords, '[' ∉ word.toList := by decide
    rw [Bool.eq_iff_iff, List.contains_iff_mem, List.contains_iff_mem]
    constructor
    · intro hmem
      rwa [(hollow_eq_iff (hplain _ hmem) name).mp rfl]
    · intro hmem
      rwa [(hollow_eq_iff (hplain _ hmem) name).mpr rfl]
  rw [isReserved, toList_hollow, Text.head?_hollow, hthis, hkeywords, isReserved]

end Path

namespace Template

theorem pathOfName?_hollow (name : String) : pathOfName? (Path.hollow name) = pathOfName? name := by
  rw [pathOfName?, Path.isReserved_hollow, Path.clean_hollow, pathOfName?]

theorem Scope.head_hollow (name : String) : Scope.head (Path.hollow name) = Scope.head name := by
  rw [Scope.head, Path.toList_hollow, Text.takeWhile_hollow (by decide), Scope.head]

namespace Occurrence

/-- The occurrence with nothing inside of the subscripts of its name. -/
def hollow (occurrence : Occurrence) : Occurrence :=
  ⟨occurrence.around, Path.hollow occurrence.name⟩

theorem isFree_hollow (occurrence : Occurrence) : occurrence.hollow.IsFree ↔ occurrence.IsFree := by
  rw [IsFree, hollow, Scope.head_hollow, IsFree]

end Occurrence

/-- The data paths of a template are those of its hollow names, whatever stands inside of their subscripts.
So a path is among them, also one that is written in a subscript, exactly if the hollow name of a free
occurrence stands for it. -/
theorem paths_eq_hollow (nodes : List Node) :
    paths nodes = (((occurrences nodes).map Occurrence.hollow).filter (fun hollow => hollow.IsFree)
        |>.map (·.name)
        |>.filterMap pathOfName?
        |>.eraseDups) ∧
      ∀ path, path ∈ paths nodes ↔ ∃ occurrence ∈ occurrences nodes,
        occurrence.hollow.IsFree ∧ pathOfName? occurrence.hollow.name = some path := by
  have hpath (occurrence : Occurrence) :
      pathOfName? occurrence.hollow.name = pathOfName? occurrence.name :=
    pathOfName?_hollow occurrence.name
  constructor
  · rw [paths_eq_filterMap, List.filter_map, List.map_map, List.filterMap_map, List.filterMap_map]
    simp only [Function.comp_def, hpath, Occurrence.isFree_hollow]
  · intro path
    simp only [mem_paths_iff, hpath, Occurrence.isFree_hollow]

/-- A reference as a subscript, on data and on the variable of a loop. -/
def placeSource : String :=
  "\x7b\x7b data.rows[data.idx].name \x7d\x7d" ++
    "\x7b% for row in data.rows %\x7d\x7b\x7b row[data.key] \x7d\x7d\x7b% endfor %\x7d"

def placeNodes : List Node :=
  [.output .none (.mk (.name "data.rows[data.idx].name") [] false),
    .loop .none none "row" (.mk (.name "data.rows") [] false)
      [.output .none (.mk (.name "row[data.key]") [] false)] none .none]

/-- The references would be data paths as names of their own, but are not. -/
theorem paths_placeNodes :
    Template.parse placeSource = .ok placeNodes ∧
      paths (analysed placeNodes) = ["data.rows.name", "data.rows"] ∧
      paths [.output .none (.mk (.name "data.idx") [] false),
        .output .none (.mk (.name "data.key") [] false)] = ["data.idx", "data.key"] :=
  ⟨by cbv, by decide +kernel, by decide +kernel⟩

end Template

end DocModel
