import RouteScaffold.Proofs.Segments

/-!
# Module specifiers

A module names another by the way to it from its own directory: `..` goes up, a name goes down (`Path.resolve`). A
specifier leads to the path with the segments that are left (`resolve_eq_of_segments`), a path being given by its
segments.
-/

namespace RouteScaffold.Path

/-! ## 1. Segments give the path -/

theorem segments_slash (a b : String) : segments (a ++ "/" ++ b) = segments a ++ segments b := by
  have hslash : ("/").toList = ['/'] := rfl
  rw [segments, String.toList_append, String.toList_append, hslash, List.append_assoc, List.singleton_append,
    pieces_slash, List.map_append]
  rfl

/-- **A path is its segments with a `/` between any two.** -/
theorem intercalate_segments (path : String) : "/".intercalate (segments path) = path := by
  rw [← String.toList_inj, String.toList_intercalate, segments, List.map_map]
  have hid : String.toList ∘ String.ofList = id := by
    funext chars
    exact String.toList_ofList
  rw [hid, List.map_id]
  exact intercalate_pieces path.toList

/-! ## 2. Resolution -/

/-- The directory that a segment leads to. -/
def enter (directory : List String) (segment : String) : List String :=
  if segment = ".." then directory.dropLast
  else if segment = "." then directory
  else directory ++ [segment]

/-- Where a module specifier leads from the directory of a file. -/
def resolve (file specifier : String) : String :=
  "/".intercalate ((segments specifier).foldl enter (segments file).dropLast)

theorem enter_name {name : String} (h : name ≠ ".." ∧ name ≠ ".") (directory : List String) :
    enter directory name = directory ++ [name] := by
  rw [enter, if_neg h.1, if_neg h.2]

/-- Names lead down one after the other. -/
theorem foldl_enter_names {names : List String} (h : ∀ name ∈ names, name ≠ ".." ∧ name ≠ ".")
    (directory : List String) : names.foldl enter directory = directory ++ names := by
  induction names generalizing directory with
  | nil => exact (List.append_nil directory).symm
  | cons name rest ih =>
      rw [List.forall_mem_cons] at h
      rw [List.foldl_cons, enter_name h.1, ih h.2, List.append_assoc, List.singleton_append]

/-- **A specifier leads to the path with the segments that it leaves.** -/
theorem resolve_eq_of_segments {file specifier path : String}
    (h : (segments specifier).foldl enter (segments file).dropLast = segments path) :
    resolve file specifier = path := by
  rw [resolve, h, intercalate_segments]

end RouteScaffold.Path
