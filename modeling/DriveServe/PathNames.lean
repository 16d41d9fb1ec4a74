import DriveServe.SubtreeView

set_option autoImplicit false

/-! The names a drive resolves a path by: what stands between the slashes, as it is,
the empty segments dropped. What the gate compares as text is ancestry of names. Then
what a path leads to. -/

namespace DriveServe

def pathNames (path : String) : List String := (splitSlash path).filter (· != "")

/-- A name as paths are made of. -/
def Proper (name : String) : Prop := name ≠ "" ∧ '/' ∉ name.toList

theorem proper_of_mem_pathNames {path name : String} (member : name ∈ pathNames path) :
    Proper name := by
  obtain ⟨segment, nonempty⟩ := List.mem_filter.mp member
  obtain ⟨letters, present, rfl⟩ := List.mem_map.mp segment
  constructor
  · simpa using nonempty
  · rw [String.toList_ofList]
    exact Segments.sep_notMem_of_mem_splitOn present

theorem pathNames_append (front back : String) :
    pathNames (front ++ "/" ++ back) = pathNames front ++ pathNames back := by
  have letters : (front ++ "/" ++ back).toList = front.toList ++ '/' :: back.toList := by
    simp [String.toList_append]
  simp only [pathNames, splitSlash, letters, List.splitOn_append_cons_self, List.map_append,
    List.filter_append]

theorem pathNames_proper {name : String} (proper : Proper name) : pathNames name = [name] := by
  simp [pathNames, splitSlash, List.splitOn_eq_singleton proper.2, proper.1]

theorem pathNames_root : pathNames "/" = [] := by decide

theorem pathNames_childPath (parent name : String) :
    pathNames (childPath parent name) = pathNames parent ++ pathNames name := by
  unfold childPath
  split
  · rename_i root
    have slash : "/" ++ name = "" ++ "/" ++ name := by rw [String.empty_append]
    rw [slash, pathNames_append, root]
    rfl
  · exact pathNames_append parent name

/-- What lies at or under a scope as text lies there by names. -/
theorem pathNames_initial {scope path : String} (inside : Under scope path) :
    pathNames scope <+: pathNames path := by
  rcases inside with root | same | deeper
  · rw [root, pathNames_root]
    exact List.nil_prefix
  · exact same ▸ List.prefix_rfl
  · have longer : scope.toList ++ ['/'] <+: path.toList := by
      have starts := (startsWith_iff ..).mp deeper
      rwa [String.toList_append] at starts
    have segments := (@Segments.splitOn_prefix_iff _ _ '/' scope.toList path.toList).mpr
      (Or.inr longer)
    exact (segments.map String.ofList).filter _

/-- What the gate lets pass lies at or under the scope by names. -/
theorem pathNames_of_enforcePrefix {scope path : String}
    (passed : enforcePrefix scope path = .ok ()) :
    pathNames (normPath scope) <+: pathNames (normPath path) :=
  pathNames_initial ((enforcePrefix_under_iff scope path).mp passed)

section

variable {δ σ ε : Type}

structure NodeView where
  nodeId : String
  kind : Option NodeKind
  content : Option FileContent
  info : Option NodeMeta
  deriving DecidableEq, Repr

/-- What a path leads to. -/
def nodeAt (core : SyncedDrive δ σ ε) (drive : δ) (path : String) : Option NodeView :=
  (core.resolve drive path).map fun nodeId =>
    { nodeId, kind := core.edgeKind drive nodeId, content := core.contentOf drive nodeId,
      info := core.metaOf drive nodeId }

end

end DriveServe
