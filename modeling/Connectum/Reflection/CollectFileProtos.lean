import Connectum.JsString
import Connectum.PostOrder
import Mathlib.Data.Fin.VecNotation

/-! The files that the reflection service describes. -/
namespace Connectum.Reflection
open JsString

/-- `DescFile` objects by reference, as far as the collection reads them. -/
structure DescFiles (File Proto : Type*) where
  name : File → JsString
  dependencies : File → List File
  proto : File → Proto

structure Collected (Proto : Type*) where
  visited : Finset JsString
  result : List Proto

namespace DescFiles
variable {File Proto : Type*} (d : DescFiles File Proto)

/-- The fuel is the depth of the calls; without any the call has no result. -/
def visit : ℕ → File → Collected Proto → Option (Collected Proto)
  | 0, _, _ => none
  | fuel + 1, file, s =>
    if d.name file ∈ s.visited then some s
    else
      ((d.dependencies file).foldlM (fun s dep => visit fuel dep s)
        { s with visited := insert (d.name file) s.visited }).map fun s =>
          { s with result := s.result ++ [d.proto file] }

def collectFileProtos (fuel : ℕ) (files : List File) : Option (List Proto) :=
  (files.foldlM (fun s file => d.visit fuel file s) ⟨∅, []⟩).map Collected.result

/-- The files with their names for keys. -/
def graph : KeyedGraph File JsString := ⟨d.name, d.dependencies⟩

/-- The state of the search, with the descriptor of each file. -/
def collected (s : KeyedGraph.State File JsString) : Collected Proto :=
  ⟨s.visited, s.output.map d.proto⟩

variable {d} {files : List File} {fuel : ℕ} {s : KeyedGraph.State File JsString}

@[simp] theorem graph_key : d.graph.key = d.name := rfl

@[simp] theorem graph_next : d.graph.next = d.dependencies := rfl

@[simp] theorem visited_collected : (d.collected s).visited = s.visited := rfl

theorem collected_finish (file : File) :
    { d.collected s with result := (d.collected s).result ++ [d.proto file] } =
      d.collected { s with output := s.output ++ [file] } := by
  simp [collected]

theorem foldlM_visit_collected
    (hvisit : ∀ file s, d.visit fuel file (d.collected s) =
      (d.graph.visit fuel file s).map d.collected) :
    files.foldlM (fun s file => d.visit fuel file s) (d.collected s) =
      (files.foldlM (fun s file => d.graph.visit fuel file s) s).map d.collected := by
  induction files generalizing s with
  | nil => rfl
  | cons file files ih =>
    rw [List.foldlM_cons, List.foldlM_cons, hvisit]
    cases d.graph.visit fuel file s with
    | none => rfl
    | some t => exact ih

/-- The collection is the search, seen through the descriptors. -/
theorem visit_collected (file : File) :
    d.visit fuel file (d.collected s) = (d.graph.visit fuel file s).map d.collected := by
  induction fuel generalizing file s with
  | zero => rfl
  | succ fuel ih =>
    unfold visit KeyedGraph.visit
    rw [visited_collected, graph_key, graph_next]
    split
    next => rfl
    next =>
      have hloop : (d.dependencies file).foldlM (fun s dep => d.visit fuel dep s)
          (d.collected { s with visited := insert (d.name file) s.visited }) =
          ((d.dependencies file).foldlM (fun s dep => d.graph.visit fuel dep s)
            { s with visited := insert (d.name file) s.visited }).map d.collected :=
        foldlM_visit_collected fun file s => ih file
      refine (congrArg (Option.map _) hloop).trans ?_
      rw [Option.map_map, Option.map_map]
      exact congrFun (congrArg Option.map (funext fun t => collected_finish file)) _

theorem collectFileProtos_eq :
    d.collectFileProtos fuel files = (d.graph.search fuel files).map (List.map d.proto) := by
  unfold collectFileProtos KeyedGraph.search
  rw [show (⟨∅, []⟩ : Collected Proto) = d.collected ⟨∅, []⟩ from rfl,
    foldlM_visit_collected fun file s => visit_collected file, Option.map_map, Option.map_map]
  rfl

/-- The call returns, and the descriptors are those of the files that the list leads to: each name
once, and each file after all that it depends on. -/
theorem collectFileProtos_linearizes (hfinite : { file | d.graph.Reached files file }.Finite)
    (hacyclic : d.graph.Acyclic files) (hconsistent : d.graph.Consistent files) :
    ∃ bound order, d.graph.Linearizes files order ∧
      ∀ fuel, bound ≤ fuel → d.collectFileProtos fuel files = some (order.map d.proto) := by
  obtain ⟨bound, order, hsearch⟩ := KeyedGraph.exists_search hfinite
  refine ⟨bound, order, ?_, fun fuel hfuel => ?_⟩
  · exact KeyedGraph.linearizes_of_search hacyclic hconsistent (hsearch bound (Nat.le_refl bound))
  · rw [collectFileProtos_eq, hsearch fuel hfuel]
    rfl

end DescFiles

/-- Two files that share a dependency, and one that depends on both. -/
def diamond : DescFiles (Fin 4) (Fin 4) where
  name := ![js "common", js "money", js "user", js "order"]
  dependencies := ![[], [0], [0], [1, 2]]
  proto := id

example : diamond.collectFileProtos 5 [3, 2, 3] = some [0, 1, 2, 3] := by decide

theorem collectFileProtos_linearizes_diamond :
    ∃ bound order, diamond.graph.Linearizes [3, 2, 3] order ∧
      ∀ fuel, bound ≤ fuel → diamond.collectFileProtos fuel [3, 2, 3] = some (order.map id) := by
  let rank (name : JsString) := [js "common", js "money", js "user", js "order"].idxOf name
  have hrank : ∀ file, ∀ dep ∈ diamond.dependencies file,
      rank (diamond.name dep) < rank (diamond.name file) := by decide
  have hnames : Function.Injective diamond.name := by decide
  exact DescFiles.collectFileProtos_linearizes (Set.toFinite _)
    (KeyedGraph.acyclic_of_rank rank hrank) (KeyedGraph.consistent_of_injective hnames)

end Connectum.Reflection
