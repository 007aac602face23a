import RouteScaffold.Proofs.Files.Inside
import RouteScaffold.Proofs.Files.Repeated
import RouteScaffold.Proofs.Files.Sound

/-!
# Entries of a directory

The path to an entry of a directory is that of the directory with a name behind it. It leads there unless it is no path
or too long (`Disk.inTheWay?`), whatever else there is.

* `Disk.follow_eq_directory_iff`: when pieces lead to a directory;
* `Disk.find_join`: what is found by the path to an entry;
* `Disk.remove_join`: a file of a directory is removed unless something is in the way of its path.
-/

namespace RouteScaffold

/-! ## 1. Names of entries -/

theorem Path.IsEntry.plain {name : String} (h : Path.IsEntry name) : Path.Plain name := by
  intro segment hs
  rw [Path.segments, Path.pieces_single h.slash, List.map_singleton, String.ofList_toList,
    List.mem_singleton] at hs
  rw [hs]
  exact ⟨h.step, h.up⟩

namespace Disk

theorem target_entry {name : String} (h : Path.IsEntry name) (here : Place) (directory : String) :
    target here (Path.join directory name) = target here directory ++ [name] := by
  rw [target_plain h.plain, Path.segments, Path.pieces_single h.slash, List.map_singleton, String.ofList_toList]

variable {d : Disk}

theorem Sound.isEntry (h : d.Sound) {place : Place} {name : String} (hs : (d.entry? (place ++ [name])).isSome) :
    Path.IsEntry name := by
  have hne : place ++ [name] ≠ [] := List.append_ne_nil_of_right_ne_nil _ (List.cons_ne_nil _ _)
  exact h.named _ ((isSome_entry?_iff hne).mp hs) name (List.mem_append_right _ List.mem_cons_self)

/-- The entries of a directory have different names. -/
theorem Sound.nodup_children (h : d.Sound) (place : Place) : ((d.children place).map Prod.fst).Nodup := by
  have hnames : (d.children place).map Prod.fst = (d.entries.map Prod.fst).filterMap (childName? place) := by
    rw [children, List.map_filterMap, List.filterMap_map]
    refine List.filterMap_congr fun entry _ => ?_
    dsimp only [Function.comp]
    cases childName? place entry.1 with
    | none => rfl
    | some name => rfl
  rw [hnames]
  refine h.distinct.filterMap fun x y name hx hy => ?_
  rw [eq_append_of_childName? hx, eq_append_of_childName? hy]

/-! ## 2. Paths to entries -/

/-- **Pieces lead to a directory** exactly if all that they enter are directories, and none of them is too long. -/
theorem follow_eq_directory_iff {place q : Place} {pieces : List String} :
    d.follow place pieces = .ok (.directory q) ↔ q = placeFrom place pieces ∧
      (∀ x ∈ entered place pieces, d.entry? x = some .directory) ∧
      ∀ piece ∈ pieces.filter Path.isStep, piece.utf8ByteSize ≤ 255 := by
  induction pieces generalizing place with
  | nil =>
      rw [follow, placeFrom, entered, List.filter_nil, Except.ok.injEq, Found.directory.injEq]
      exact ⟨fun h => ⟨h.symm, List.forall_mem_nil _, List.forall_mem_nil _⟩, fun h => h.1.symm⟩
  | cons piece rest ih =>
      rw [follow, placeFrom, entered]
      by_cases hskip : piece = "." ∨ piece = ""
      · rw [if_pos hskip, if_pos hskip, if_pos hskip, List.filter_cons_of_neg (Path.not_isStep_iff.mpr hskip)]
        exact ih
      rw [if_neg hskip, if_neg hskip, if_neg hskip, List.filter_cons_of_pos (Path.isStep_iff.mpr hskip),
        List.forall_mem_cons]
      by_cases hup : piece = ".."
      · have hshort : piece.utf8ByteSize ≤ 255 := by
          rw [hup]
          decide
        rw [if_pos hup, if_pos hup, if_pos hup, ih, and_iff_right hshort]
      rw [if_neg hup, if_neg hup, if_neg hup, List.forall_mem_cons]
      by_cases hlong : 255 < piece.utf8ByteSize
      · rw [if_pos hlong]
        exact iff_of_false (fun h => by cases h) fun h => absurd h.2.2.1 (Nat.not_le_of_lt hlong)
      rw [if_neg hlong, and_iff_right (Nat.le_of_not_lt hlong)]
      dsimp only
      cases hentry : d.entry? (place ++ [piece]) with
      | none =>
          refine iff_of_false (fun h => ?_) fun h => by cases h.2.1.1
          cases rest with
          | nil => cases h
          | cons => cases h
      | some entry =>
          cases entry with
          | file content =>
              refine iff_of_false (fun h => ?_) fun h => by cases h.2.1.1
              cases rest with
              | nil => cases h
              | cons => cases h
          | directory =>
              rw [and_iff_right rfl]
              exact ih

/-- From a directory that pieces lead to more pieces lead on. -/
theorem follow_append {place q : Place} {pieces : List String} (h : d.follow place pieces = .ok (.directory q))
    (more : List String) : d.follow place (pieces ++ more) = d.follow q more := by
  rw [follow_eq_ok_iff] at h
  generalize hfound : Found.directory q = found at h
  induction h with
  | done place =>
      cases hfound
      rfl
  | stay hstay _ ih => rw [List.cons_append, follow, if_pos hstay, ih hfound]
  | up _ ih => rw [List.cons_append, follow, if_neg (by decide), if_pos rfl, ih hfound]
  | enter hp hentry _ ih => rw [List.cons_append, follow_enters d _ hp, hentry, ← ih hfound]
  | file => cases hfound
  | absent => cases hfound

section Entry

variable {directory name : String} (hn : Path.IsEntry name)

include hn

theorem piecesOf_join (directory : String) : ∃ front, piecesOf (Path.join directory name) = front ++ [name] ∧
    front.filter Path.isStep = Path.steps directory := by
  obtain ⟨front, hdirectory, hjoin⟩ := Path.pieces_join hn.plain.isAbsolute directory
  refine ⟨front.map String.ofList, ?_, ?_⟩
  · have hname : name ≠ "" := fun he => Path.isStep_iff.mp hn.step (.inr he)
    rw [piecesOf, hjoin, Path.pieces_single hn.slash, List.map_append, List.map_singleton, String.ofList_toList,
      List.reverse_append, List.reverse_singleton, List.singleton_append,
      List.dropWhile_cons_of_neg (by simpa using hname), List.reverse_cons, List.reverse_reverse]
  · rcases hdirectory with hdirectory | hdirectory
    · rw [Path.steps, Path.segments, hdirectory]
    · rw [Path.steps, Path.segments, hdirectory, List.map_append, List.filter_append]
      exact (List.append_nil _).symm

theorem endsWith_join (directory : String) : (Path.join directory name).endsWith "/" = false := by
  have hname : name.toList ≠ [] := fun he => Path.isStep_iff.mp hn.step (.inr (String.toList_eq_nil_iff.mp he))
  have hsuffix : name.toList <:+ (Path.join directory name).toList := by
    rcases Path.toList_join hn.plain.isAbsolute directory with ⟨-, hjoin⟩ | ⟨front, -, -, hjoin⟩
    · rw [hjoin]
    · rw [hjoin]
      exact ⟨front ++ ['/'], by rw [List.append_assoc, List.singleton_append]⟩
  rw [Bool.eq_false_iff]
  intro hslash
  rw [String.endsWith_eq_endsWith_toSlice, String.Slice.endsWith_string_iff, String.copy_toSlice] at hslash
  have hshorter : ['/'] <:+ name.toList :=
    List.suffix_of_suffix_length_le hslash hsuffix (List.length_pos_of_ne_nil hname)
  exact hn.slash (hshorter.subset List.mem_cons_self)

end Entry

/-- What is in the way of the path to an entry of a directory, whatever the entry is. -/
def inTheWay? (directory name : String) : Option SystemError :=
  if (Path.join directory name).toList.contains (Char.ofNat 0) then some .zeroInPath
  else if 4095 < (Path.join directory name).utf8ByteSize then some .nameTooLong
  else if 255 < name.utf8ByteSize then some .nameTooLong
  else none

/-- Why a file of a directory is not removed, if it is not: something is in the way of its path, or it is not
    permitted. -/
def guarded? (d : Disk) (directory name : String) : Option SystemError :=
  match inTheWay? directory name with
  | some e => some e
  | none => if d.refuses .change (target d.here directory ++ [name]) then some .denied else none

/-- Why a file is not removed, if it is not. -/
def refusal? (d : Disk) (path : String) : Option SystemError :=
  match d.remove path with
  | .error e => some e
  | .ok _ => none

section Directory

variable {directory name : String} (hd : d.isDirectory directory = true)

include hd

theorem follow_of_isDirectory :
    d.follow (origin d.here directory) (piecesOf directory) = .ok (.directory (target d.here directory)) := by
  obtain ⟨slash, hfind⟩ := isDirectory_iff.mp hd
  exact follow_eq_ok_iff.mpr (find_eq_ok_iff.mp hfind).2.1

variable (hn : Path.IsEntry name)

include hn

theorem follow_join : d.follow (origin d.here (Path.join directory name)) (piecesOf (Path.join directory name)) =
    if 255 < name.utf8ByteSize then .error .nameTooLong
    else .ok (d.foundAt (target d.here directory ++ [name])) := by
  obtain ⟨front, hpieces, hfront⟩ := piecesOf_join hn directory
  have hfollow : d.follow (origin d.here directory) front = .ok (.directory (target d.here directory)) := by
    have hdirectory := follow_eq_directory_iff.mp (follow_of_isDirectory hd)
    rw [← placeFrom_filter, ← entered_filter, filter_piecesOf] at hdirectory
    rw [follow_eq_directory_iff, ← placeFrom_filter, ← entered_filter, hfront]
    exact hdirectory
  rw [hpieces, origin_join hn.plain.isAbsolute, follow_append hfollow, follow, if_neg (Path.isStep_iff.mp hn.step),
    if_neg hn.up]
  split
  · rfl
  · dsimp only
    rw [foundAt]
    cases d.entry? (target d.here directory ++ [name]) with
    | none => rfl
    | some entry =>
        cases entry with
        | directory => rfl
        | file content => rfl

/-- **Whether the path to an entry is followed** depends on nothing that the directory holds. -/
theorem find_join : d.find (Path.join directory name) =
    match inTheWay? directory name with
    | some e => .error e
    | none => .ok ⟨d.foundAt (target d.here directory ++ [name]), false⟩ := by
  have hempty : (Path.join directory name).isEmpty = false := by
    rw [Bool.eq_false_iff, Ne, String.isEmpty_iff]
    exact Path.join_ne_empty hn.plain.isAbsolute (.inr fun he => Path.isStep_iff.mp hn.step (.inr he))
  unfold find inTheWay?
  rw [hempty, if_neg Bool.false_ne_true]
  split
  · rfl
  split
  · rfl
  dsimp only
  rw [← origin, follow_join hd hn, endsWith_join hn]
  split
  · rfl
  · rfl

variable {content : ByteArray} (hf : d.entry? (target d.here directory ++ [name]) = some (.file content))

include hf

/-- **A file of a directory is removed** unless something is in the way of its path, or it is not permitted. -/
theorem remove_join : d.remove (Path.join directory name) =
    match d.guarded? directory name with
    | some e => .error e
    | none => .ok (d.erase (target d.here directory ++ [name])) := by
  rw [remove, find_join hd hn, guarded?]
  cases inTheWay? directory name with
  | some e => rfl
  | none =>
      rw [foundAt_file hf]
      dsimp only [bind, Except.bind]
      rw [if_neg Bool.false_ne_true, permit]
      cases d.refuses .change (target d.here directory ++ [name]) with
      | true => rfl
      | false => rfl

theorem refusal?_join : d.refusal? (Path.join directory name) = d.guarded? directory name := by
  rw [refusal?, remove_join hd hn hf]
  cases d.guarded? directory name with
  | some e => rfl
  | none => rfl

end Directory

end Disk

end RouteScaffold
