import DocModel.Proofs.Distinct
import DocModel.Proofs.Field.Names
import DocModel.Proofs.Path.NormalForm
import DocModel.Proofs.Trie.Chains

/-!
Clean paths as addresses. The data paths of a template are clean and pairwise different, a trie made of them
holds clean names only, and what a directive declares under a clean path stands under that very path.
-/

namespace DocModel.Field

open Template

section Paths

variable {nodes : List Node}

theorem nodup_paths (nodes : List Node) : (paths nodes).Nodup := nodup_eraseDups _

theorem clean_of_mem_paths {path : String} (hpath : path ∈ paths nodes) :
    Path.clean path = path ∧ path ≠ "" := by
  obtain ⟨_, _, _, hname⟩ := mem_paths_iff.mp hpath
  obtain ⟨_, hne, rfl⟩ := pathOfName?_eq_some_iff.mp hname
  exact ⟨Path.clean_clean _, hne⟩

theorem isCleanSegment_of_mem_chains {maxDepth : Nat} {trie : PathTrie}
    (hbuilt : PathTrie.ofPaths (paths nodes) maxDepth = .ok trie) :
    ∀ chain ∈ PathNode.chains trie.branches, ∀ name ∈ chain, Path.IsCleanSegment name.toList := by
  refine PathTrie.forall_names_of_ofPaths hbuilt fun path hpath name hname => ?_
  obtain ⟨hclean, hne⟩ := clean_of_mem_paths hpath
  exact Path.isCleanSegment_of_mem_segments hclean hne hname

end Paths

section Directives

variable {d : Directive} {path : String}

theorem exists_compile_of_clean (hclean : Path.clean path = path) (hne : path ≠ "")
    (hfirst : d.firstPositional? = some path) : ∃ field, compile d = .ok field ∧ field.name = path :=
  (exists_compile_name_iff (P := (· = path))).mpr
    ⟨path, hfirst, Path.not_isBlankRun_of_clean hclean hne, hclean⟩

theorem exists_compileOption_of_clean (hclean : Path.clean path = path) {name : String}
    (hfirst : d.firstPositional? = some name) (hname : name ≠ "")
    (htarget : d.named? "for" = some path) :
    ∃ option, compileOption d = .ok option ∧ option.fieldName = path :=
  (exists_compileOption_fieldName_iff (P := (· = path))).mpr
    ⟨name, path, hfirst, hname, htarget, hclean⟩

end Directives

/-- Cleaning yields a normal form, which it leaves alone. The data paths of a template are in it and differ
from each other, so that every name in a trie of them is a clean segment. A field that is declared under a
clean path has this path as its name, and an option with a clean path as its target has it as its field's
name. -/
theorem clean_is_normal_form (path : String) (nodes : List Node) (d : Directive) :
    (Path.clean (Path.clean path) = Path.clean path ∧ Path.IsNormal (Path.clean path)) ∧
      ((paths nodes).Nodup ∧ ∀ found ∈ paths nodes, Path.clean found = found) ∧
      (∀ maxDepth trie, PathTrie.ofPaths (paths nodes) maxDepth = .ok trie →
        ∀ chain ∈ PathNode.chains trie.branches, ∀ name ∈ chain, Path.IsCleanSegment name.toList) ∧
      (d.firstPositional? = some (Path.clean path) → Path.clean path ≠ "" →
        ∃ field, compile d = .ok field ∧ field.name = Path.clean path) ∧
      (∀ name, d.firstPositional? = some name → name ≠ "" →
        d.named? "for" = some (Path.clean path) →
          ∃ option, compileOption d = .ok option ∧ option.fieldName = Path.clean path) := by
  have hclean := Path.clean_clean path
  refine ⟨⟨hclean, Path.isNormal_clean path⟩, ⟨nodup_paths nodes, fun found hfound => ?_⟩, ?_, ?_, ?_⟩
  · exact (clean_of_mem_paths hfound).1
  · intro maxDepth trie hbuilt
    exact isCleanSegment_of_mem_chains hbuilt
  · intro hfirst hne
    exact exists_compile_of_clean hclean hne hfirst
  · intro name hfirst hname htarget
    exact exists_compileOption_of_clean hclean hfirst hname htarget

/-- A template that reads two places of one list. -/
def rowsNodes : List Node :=
  [.output .none (.mk (.name "rows[0].total") [] false),
    .output .none (.mk (.name "rows.1.total") [] false)]

def rowsTrie : PathTrie := ⟨[⟨"rows", [⟨"total", []⟩]⟩]⟩

/-- An option that is named like its target. -/
def totalOption : Directive := ⟨"option", [.positional "rows.total", .named "for" "rows.total"]⟩

theorem clean_is_normal_form_rows :
    Path.clean " rows [0]. total" = "rows.total" ∧ paths rowsNodes = ["rows.total"] ∧
      PathTrie.ofPaths (paths rowsNodes) 2 = .ok rowsTrie ∧
      (∀ chain ∈ PathNode.chains rowsTrie.branches, ∀ name ∈ chain,
        Path.IsCleanSegment name.toList) ∧
      (∃ field, compile totalOption = .ok field ∧ field.name = "rows.total") ∧
      ∃ option, compileOption totalOption = .ok option ∧ option.fieldName = "rows.total" := by
  have hclean : Path.clean " rows [0]. total" = "rows.total" := by decide +kernel
  have hpaths : paths rowsNodes = ["rows.total"] := by decide +kernel
  have hbuilt : PathTrie.ofPaths (paths rowsNodes) 2 = .ok rowsTrie := by
    rw [hpaths]
    rfl
  have hfirst : totalOption.firstPositional? = some (Path.clean " rows [0]. total") := by
    rw [hclean]
    decide +kernel
  have htarget : totalOption.named? "for" = some (Path.clean " rows [0]. total") := by
    rw [hclean]
    decide +kernel
  obtain ⟨_, _, htrie, hfield, hoption⟩ :=
    clean_is_normal_form " rows [0]. total" rowsNodes totalOption
  rw [hclean] at hfirst htarget hfield hoption
  exact ⟨hclean, hpaths, hbuilt, htrie 2 rowsTrie hbuilt, hfield hfirst (by decide),
    hoption "rows.total" hfirst (by decide) htarget⟩

end DocModel.Field
