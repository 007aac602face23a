import Mathlib.Data.List.Nodup
import Mathlib.Data.List.TakeWhile
import RouteScaffold.Files.SystemError
import RouteScaffold.Proofs.Outcomes
import RouteScaffold.ToolRun

/-!
# Folders

A folder is a directory as an operating system lists it: its entries stand in any order, their names are bytes that need
not be a text, and they are files, directories or something else. To remove files by their names the entries are read
one after the other, the names of the files are sorted (`Folder.files`), and those files are removed one after the other
whose names are texts that satisfy a predicate (`Folder.removeEach`). The operating system may refuse each of these
steps (`Refusals`).

* `RemovedUpTo`: what it means that some of a list are removed in order, up to the first that is refused;
* `Folder.files_eq_ok_iff`: when the files are told, and which;
* `Folder.removedUpTo_removeWhere`: which files are removed then, and that nothing else is.
-/

namespace RouteScaffold

/-! ## 1. One after the other -/

/-- Of what is wanted all that stands ahead of the first that is refused is removed: what comes of it, and what is gone.
-/
inductive RemovedUpTo {ν : Type} (refused? : ν → Option SystemError) (wanted : List ν) :
    Except (ν × SystemError) (List ν) → List ν → Prop where
  | all (h : ∀ name ∈ wanted, refused? name = none) : RemovedUpTo refused? wanted (.ok wanted) wanted
  | ahead {gone after : List ν} {name : ν} {e : SystemError} (hwanted : wanted = gone ++ name :: after)
      (h : ∀ other ∈ gone, refused? other = none) (hrefused : refused? name = some e) :
      RemovedUpTo refused? wanted (.error (name, e)) gone

namespace RemovedUpTo

variable {ν μ : Type} {refused? : ν → Option SystemError} {wanted gone gone' : List ν}
  {result result' : Except (ν × SystemError) (List ν)}

/-- One more that is not refused is removed ahead of the others. -/
theorem cons (h : RemovedUpTo refused? wanted result gone) {name : ν} (hname : refused? name = none) :
    RemovedUpTo refused? (name :: wanted) (result.map (name :: ·)) (name :: gone) := by
  cases h with
  | all h => exact .all (List.forall_mem_cons.mpr ⟨hname, h⟩)
  | ahead hwanted h hrefused =>
      exact .ahead (by rw [hwanted, List.cons_append]) (List.forall_mem_cons.mpr ⟨hname, h⟩) hrefused

/-- What is refused at once leaves all that is wanted. -/
theorem refused {name : ν} {e : SystemError} (hrefused : refused? name = some e) (wanted : List ν) :
    RemovedUpTo refused? (name :: wanted) (.error (name, e)) [] :=
  .ahead rfl (List.forall_mem_nil _) hrefused

/-- Only what is refused of the names that are wanted counts. -/
theorem congr (h : RemovedUpTo refused? wanted result gone) {refused'? : ν → Option SystemError}
    (hr : ∀ name ∈ wanted, refused'? name = refused? name) : RemovedUpTo refused'? wanted result gone := by
  cases h with
  | all h => exact .all fun name hn => (hr name hn).trans (h name hn)
  | ahead hwanted h hrefused =>
      rw [hwanted, List.forall_mem_append, List.forall_mem_cons] at hr
      exact .ahead hwanted (fun other ho => (hr.1 other ho).trans (h other ho)) (hr.2.1.trans hrefused)

/-- It stays so under other names. -/
theorem map (h : RemovedUpTo refused? wanted result gone) {refused'? : μ → Option SystemError} {f : ν → μ}
    (hf : ∀ name ∈ wanted, refused'? (f name) = refused? name) :
    RemovedUpTo refused'? (wanted.map f) ((result.map (List.map f)).mapError (Prod.map f id)) (gone.map f) := by
  cases h with
  | all h =>
      refine .all (List.forall_mem_map.mpr fun name hn => ?_)
      rw [hf name hn, h name hn]
  | @ahead gone after name e hwanted h hrefused =>
      rw [hwanted, List.forall_mem_append, List.forall_mem_cons] at hf
      have hsplit : wanted.map f = gone.map f ++ f name :: after.map f := by
        rw [hwanted, List.map_append, List.map_cons]
      refine .ahead hsplit (List.forall_mem_map.mpr fun other ho => ?_) ?_
      · rw [hf.1 other ho, h other ho]
      · rw [hf.2.1, hrefused]
        rfl

/-- A name is not refused. -/
def free (refused? : ν → Option SystemError) (name : ν) : Bool := (refused? name).isNone

theorem free_iff {name : ν} : free refused? name = true ↔ refused? name = none := Option.isNone_iff_eq_none

/-- What is gone is what stands ahead of the first that is refused. -/
theorem eq_takeWhile (h : RemovedUpTo refused? wanted result gone) : gone = wanted.takeWhile (free refused?) ∧
    match wanted.dropWhile (free refused?) with
    | [] => result = .ok wanted
    | name :: _ => ∃ e, refused? name = some e ∧ result = .error (name, e) := by
  cases h with
  | all h =>
      have hfree : ∀ name ∈ wanted, free refused? name = true := fun name hn => free_iff.mpr (h name hn)
      rw [List.takeWhile_eq_self_iff.mpr hfree, List.dropWhile_eq_nil_iff.mpr hfree]
      exact ⟨rfl, rfl⟩
  | @ahead _ _ name e hwanted h hrefused =>
      have hfree : ∀ other ∈ gone, free refused? other = true := fun other ho => free_iff.mpr (h other ho)
      have hstop : ¬ free refused? name = true := by
        rw [free_iff, hrefused]
        exact Option.some_ne_none e
      rw [hwanted, List.takeWhile_append_of_pos hfree, List.takeWhile_cons_of_neg hstop, List.append_nil,
        List.dropWhile_append_of_pos hfree, List.dropWhile_cons_of_neg hstop]
      exact ⟨rfl, e, hrefused, rfl⟩

/-- Nothing is gone but what is wanted. -/
theorem subset (h : RemovedUpTo refused? wanted result gone) : gone ⊆ wanted := by
  cases h with
  | all => exact List.Subset.refl _
  | ahead hwanted =>
      rw [hwanted]
      exact List.subset_append_left _ _

/-- **What comes of it is determined**, and what is gone. -/
theorem unique (h : RemovedUpTo refused? wanted result gone) (h' : RemovedUpTo refused? wanted result' gone') :
    result = result' ∧ gone = gone' := by
  obtain ⟨hgone, hresult⟩ := h.eq_takeWhile
  obtain ⟨hgone', hresult'⟩ := h'.eq_takeWhile
  refine ⟨?_, hgone.trans hgone'.symm⟩
  cases hrest : wanted.dropWhile (free refused?) with
  | nil =>
      rw [hrest] at hresult hresult'
      exact hresult.trans hresult'.symm
  | cons name rest =>
      rw [hrest] at hresult hresult'
      obtain ⟨e, he, rfl⟩ := hresult
      obtain ⟨e', he', rfl⟩ := hresult'
      rw [Option.some_inj.mp (he.symm.trans he')]

end RemovedUpTo

/-- What is sorted and differs stands strictly in order. -/
theorem pairwise_mergeSort {ν : Type} [LE ν] [LT ν] [DecidableLE ν] [Std.IsLinearOrder ν] [Std.LawfulOrderLT ν]
    {names : List ν} (h : names.Nodup) : (names.mergeSort (· ≤ ·)).Pairwise (· < ·) := by
  have hsorted : (names.mergeSort (· ≤ ·)).Pairwise fun a b => decide (a ≤ b) = true := by
    refine List.pairwise_mergeSort (fun a b c hab hbc => ?_) (fun a b => ?_) names
    · exact decide_eq_true (Std.le_trans (of_decide_eq_true hab) (of_decide_eq_true hbc))
    · simpa using Std.le_total
  have hdiffer : (names.mergeSort (· ≤ ·)).Pairwise (· ≠ ·) := (List.mergeSort_perm names _).nodup_iff.mpr h
  exact (hsorted.and hdiffer).imp fun ⟨hle, hne⟩ => Std.lt_of_le_of_ne (of_decide_eq_true hle) hne

/-! ## 2. Folders -/

/-- A name as an operating system keeps it: bytes, which need not be a text. -/
abbrev RawName := List UInt8

/-- What an entry of a folder is. -/
inductive Kind where
  | file
  | directory
  /-- A link, a socket and the like. -/
  | other
  deriving DecidableEq, Repr

/-- An entry of a folder, with what it holds: the content of a file, or all that is below a directory. -/
structure Item (α : Type) where
  name : RawName
  kind : Kind
  held : α
  deriving DecidableEq

/-- The entries of a directory in the order in which an operating system tells them. -/
abbrev Folder (α : Type) := List (Item α)

/-- What an operating system refuses while files of a folder are removed, and why. -/
structure Refusals where
  /-- To open the folder. -/
  opening? : Option SystemError
  /-- To read on behind so many entries. -/
  reading? : Nat → Option SystemError
  /-- To tell what an entry is. -/
  inspecting? : RawName → Option SystemError
  /-- To remove a file. -/
  removing? : RawName → Option SystemError

/-- What was refused: what was being done with an entry, or with the folder itself, and why. -/
structure Refusal where
  action : String
  name : Option RawName
  cause : SystemError
  deriving DecidableEq, Repr

/-- What was refused where a file was not removed. -/
def Refusal.ofRemoval : RawName × SystemError → Refusal
  | (name, cause) => ⟨"remove", some name, cause⟩

/-- Goes on unless it is refused. -/
def permit (action : String) (name : Option RawName) : Option SystemError → Except Refusal Unit
  | none => .ok ()
  | some cause => .error ⟨action, name, cause⟩

theorem permit_eq_ok {action : String} {name : Option RawName} {refused? : Option SystemError} {u : Unit} :
    permit action name refused? = .ok u ↔ refused? = none := by
  cases refused? with
  | none => simp [permit]
  | some cause => simp [permit]

namespace Folder

variable {α : Type}

/-- The names of the files among the entries that are left when `n` have been read. -/
def readFiles (r : Refusals) : Nat → Folder α → Except Refusal (List RawName)
  | n, [] => do
    permit "list" none (r.reading? n)
    pure []
  | n, item :: rest => do
    permit "list" none (r.reading? n)
    permit "inspect" (some item.name) (r.inspecting? item.name)
    let names ← readFiles r (n + 1) rest
    pure (if item.kind = .file then item.name :: names else names)

/-- The names of the files, sorted. -/
def files (r : Refusals) (f : Folder α) : Except Refusal (List RawName) := do
  permit "list" none r.opening?
  let names ← readFiles r 0 f
  pure (names.mergeSort (· ≤ ·))

/-- The folder without the entries of some names. -/
def without (f : Folder α) (names : List RawName) : Folder α := f.filter fun item => item.name ∉ names

/-- Removes files one after the other whose names are texts that satisfy `p`; gives their names. -/
def removeEach (r : Refusals) (p : String → Bool) : List RawName → Folder α → Except Refusal (List RawName) × Folder α
  | [], f => (.ok [], f)
  | name :: rest, f =>
    match ToolRun.text? name with
    | none => removeEach r p rest f
    | some text =>
      if p text then
        match r.removing? name with
        | some cause => (.error (.ofRemoval (name, cause)), f)
        | none =>
          let (result, f) := removeEach r p rest (f.without [name])
          (result.map (name :: ·), f)
      else removeEach r p rest f

/-- Removes the files whose names are texts that satisfy `p`; gives their names. -/
def removeWhere (r : Refusals) (p : String → Bool) (f : Folder α) : Except Refusal (List RawName) × Folder α :=
  match files r f with
  | .error refusal => (.error refusal, f)
  | .ok names => removeEach r p names f

/-! ## 3. Reading -/

theorem without_nil (f : Folder α) : f.without [] = f := List.filter_eq_self.mpr fun _ _ => by simp

theorem without_cons (f : Folder α) (name : RawName) (names : List RawName) :
    (f.without [name]).without names = f.without (name :: names) := by
  rw [without, without, without, List.filter_filter]
  refine List.filter_congr fun item _ => ?_
  simp [Bool.and_comm]

/-- The operating system lists the folder. -/
structure Listed (r : Refusals) (f : Folder α) : Prop where
  opened : r.opening? = none
  read : ∀ n ≤ f.length, r.reading? n = none
  inspected : ∀ item ∈ f, r.inspecting? item.name = none

/-- The names of the files, in the order of the entries. -/
def fileNames (f : Folder α) : List RawName := (f.filter fun item => item.kind = .file).map Item.name

theorem readFiles_eq_ok_iff {r : Refusals} {n : Nat} {f : Folder α} {names : List RawName} :
    readFiles r n f = .ok names ↔ (∀ m ≤ f.length, r.reading? (n + m) = none) ∧
      (∀ item ∈ f, r.inspecting? item.name = none) ∧ names = f.fileNames := by
  induction f generalizing n names with
  | nil =>
      rw [readFiles, bind_eq_ok]
      constructor
      · rintro ⟨⟨⟩, hread, hnames⟩
        cases hnames
        refine ⟨fun m hm => ?_, List.forall_mem_nil _, rfl⟩
        obtain rfl := Nat.le_zero.mp hm
        exact permit_eq_ok.mp hread
      · rintro ⟨hread, -, rfl⟩
        exact ⟨(), permit_eq_ok.mpr (hread 0 (Nat.le_refl 0)), rfl⟩
  | cons item rest ih =>
      simp only [readFiles, bind_eq_ok, permit_eq_ok, ih, List.forall_mem_cons]
      constructor
      · rintro ⟨⟨⟩, hread, ⟨⟩, hinspected, names', ⟨hreads, hall, rfl⟩, hnames⟩
        cases hnames
        refine ⟨fun m hm => ?_, ⟨hinspected, hall⟩, ?_⟩
        · cases m with
          | zero => exact hread
          | succ m =>
              rw [Nat.add_comm m 1, ← Nat.add_assoc]
              exact hreads m (Nat.le_of_succ_le_succ hm)
        · by_cases hfile : item.kind = .file
          · simp [fileNames, hfile]
          · simp [fileNames, hfile]
      · rintro ⟨hreads, ⟨hinspected, hall⟩, rfl⟩
        refine ⟨(), hreads 0 (Nat.zero_le _), (), hinspected, fileNames rest, ⟨fun m hm => ?_, hall, rfl⟩, ?_⟩
        · rw [Nat.add_assoc, Nat.add_comm 1 m]
          exact hreads (m + 1) (Nat.succ_le_succ hm)
        · by_cases hfile : item.kind = .file
          · simp [fileNames, hfile, pure, Except.pure]
          · simp [fileNames, hfile, pure, Except.pure]

/-- **The files of a folder are told exactly if it is listed**, and sorted. -/
theorem files_eq_ok_iff {r : Refusals} {f : Folder α} {names : List RawName} :
    files r f = .ok names ↔ Listed r f ∧ names = f.fileNames.mergeSort (· ≤ ·) := by
  simp only [files, bind_eq_ok, permit_eq_ok, readFiles_eq_ok_iff, Nat.zero_add]
  constructor
  · rintro ⟨⟨⟩, hopened, _, ⟨hread, hinspected, rfl⟩, hnames⟩
    cases hnames
    exact ⟨⟨hopened, hread, hinspected⟩, rfl⟩
  · rintro ⟨h, rfl⟩
    exact ⟨(), h.opened, f.fileNames, ⟨h.read, h.inspected, rfl⟩, rfl⟩

/-! ## 4. Removing -/

/-- The name is a text that satisfies `p`. -/
def Names (p : String → Bool) (name : RawName) : Prop := ∃ text, ToolRun.text? name = some text ∧ p text = true

instance (p : String → Bool) (name : RawName) : Decidable (Names p name) :=
  decidable_of_iff ((ToolRun.text? name).any p = true) (by
    rw [Option.any_eq_true, Names])

/-- Of names in any order those are removed that are texts with `p`, up to the first that is refused. -/
theorem removedUpTo_removeEach (r : Refusals) (p : String → Bool) (names : List RawName) (f : Folder α) :
    ∃ result gone, RemovedUpTo r.removing? (names.filter fun name => Names p name) result gone ∧
      removeEach r p names f = (result.mapError .ofRemoval, f.without gone) := by
  induction names generalizing f with
  | nil => exact ⟨.ok [], [], .all (List.forall_mem_nil _), by rw [removeEach, without_nil]; rfl⟩
  | cons name rest ih =>
      rw [removeEach]
      cases htext : ToolRun.text? name with
      | none =>
          have hnot : ¬ Names p name := by
            rintro ⟨text, hsome, -⟩
            rw [htext] at hsome
            cases hsome
          rw [List.filter_cons_of_neg (by simpa using hnot)]
          exact ih f
      | some text =>
          dsimp only
          by_cases hp : p text = true
          · have hnames : Names p name := ⟨text, htext, hp⟩
            rw [if_pos hp, List.filter_cons_of_pos (by simpa using hnames)]
            cases hrefused : r.removing? name with
            | some cause =>
                exact ⟨.error (name, cause), [], .refused hrefused _, by rw [without_nil]; rfl⟩
            | none =>
                obtain ⟨result, gone, hremoved, heach⟩ := ih (f.without [name])
                refine ⟨_, _, hremoved.cons hrefused, ?_⟩
                dsimp only
                rw [heach, without_cons]
                cases result with
                | ok => rfl
                | error => rfl
          · have hnot : ¬ Names p name := by
              rintro ⟨text', hsome, hp'⟩
              rw [htext] at hsome
              cases hsome
              exact hp hp'
            rw [if_neg hp, List.filter_cons_of_neg (by simpa using hnot)]
            exact ih f

/-- **Of a folder that is listed those files are removed whose names are texts with `p`**, in the order of their names
    and up to the first that is refused; nothing else is. -/
theorem removedUpTo_removeWhere {r : Refusals} {f : Folder α} (hf : (f.map Item.name).Nodup) (hr : Listed r f)
    (p : String → Bool) : ∃ wanted result gone, wanted.Pairwise (· < ·) ∧
      (∀ name, name ∈ wanted ↔ Names p name ∧ ∃ item ∈ f, item.name = name ∧ item.kind = .file) ∧
      RemovedUpTo r.removing? wanted result gone ∧
      f.removeWhere r p = (result.mapError .ofRemoval, f.without gone) := by
  have hfiles := files_eq_ok_iff.mpr ⟨hr, rfl⟩
  obtain ⟨result, gone, hremoved, heach⟩ := removedUpTo_removeEach r p (f.fileNames.mergeSort (· ≤ ·)) f
  have hnodup : f.fileNames.Nodup := hf.sublist (List.filter_sublist.map _)
  refine ⟨_, result, gone, (pairwise_mergeSort hnodup).filter _, fun name => ?_, hremoved, ?_⟩
  · simp only [List.mem_filter, List.mem_mergeSort, fileNames, List.mem_map, decide_eq_true_eq]
    grind
  · rw [removeWhere, hfiles]
    exact heach

/-- Of a folder that is not listed nothing is removed. -/
theorem removeWhere_of_not_listed {r : Refusals} {f : Folder α} (hr : ¬ Listed r f) (p : String → Bool) :
    ∃ refusal, f.removeWhere r p = (.error refusal, f) := by
  cases hfiles : files r f with
  | ok names => exact absurd (files_eq_ok_iff.mp hfiles).1 hr
  | error refusal =>
      rw [removeWhere, hfiles]
      exact ⟨refusal, rfl⟩

end Folder

end RouteScaffold
