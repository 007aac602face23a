import Mathlib.Data.List.DropRight
import RouteScaffold.Files.Disk
import RouteScaffold.Proofs.Outcomes
import RouteScaffold.Proofs.Parents

/-!
# Where paths lead

A path leads to the same place on every disk on which it leads anywhere: to the one that its steps spell
(`Disk.target`), through places on the way (`Disk.way`).

* `Path.steps_parent?`: the steps of the parent of a path are the first of the path, so that the way to the parent is
  part of the way to the path;
* `Disk.Follows`: when pieces are followed to their end, and to what end;
* `Disk.Leads`: what is known of the end of a path that was followed;
* `Disk.makeDirectory_eq_ok`, `Disk.write_eq_ok_iff`, `Disk.remove_eq_ok`: what an operation that succeeds has found at
  its path and changes there;
* `Disk.entry?_put`: what an entry at a place changes.
-/

namespace RouteScaffold

namespace Path

/-! ## 1. Steps -/

/-- Does a piece of a path lead on? -/
def isStep (piece : String) : Bool := !decide (piece = "." ∨ piece = "")

theorem isStep_iff {piece : String} : isStep piece = true ↔ ¬(piece = "." ∨ piece = "") := by
  rw [isStep, Bool.not_eq_true', decide_eq_false_iff_not]

theorem not_isStep_iff {piece : String} : ¬isStep piece = true ↔ piece = "." ∨ piece = "" := by
  rw [isStep_iff, not_not]

/-- A piece of a path that names an entry to go to: it leads on, not upwards, and a name can be that long. -/
structure Enters (piece : String) : Prop where
  step : ¬(piece = "." ∨ piece = "")
  up : piece ≠ ".."
  short : piece.utf8ByteSize ≤ 255

/-- A text that the operating system takes for a path. -/
structure Valid (path : String) : Prop where
  zero : ¬path.toList.contains (Char.ofNat 0) = true
  nonempty : ¬path.isEmpty = true
  short : ¬4095 < path.utf8ByteSize

/-- The pieces of a path that lead on. -/
def steps (path : String) : List String := (segments path).filter isStep

/-! ## 2. Steps of a parent -/

theorem steps_intercalate {path : String} {parts : List (List Char)} (hp : path.toList = ['/'].intercalate parts)
    (h : ∀ piece ∈ parts, '/' ∉ piece) : steps path = (parts.map String.ofList).filter isStep := by
  rw [steps, segments, hp]
  cases parts with
  | nil => decide
  | cons first more => rw [pieces_intercalate (List.cons_ne_nil _ _) h]

theorem lead_body (path : String) : (body path).1 = "/" ∨ (body path).1 = "." ∨ (body path).1 = "" := by
  unfold body
  split
  · exact .inr (.inr rfl)
  split
  · exact .inl rfl
  split
  · exact .inr (.inl rfl)
  · exact .inr (.inr rfl)

theorem slash_not_mem_body (path : String) : ∀ piece ∈ (body path).2, '/' ∉ piece := by
  have h := slash_not_mem_pieces (s := path.toList)
  unfold body
  cases hp : pieces path.toList with
  | nil => exact fun piece hm => by cases hm
  | cons first rest =>
      rw [hp, List.forall_mem_cons] at h
      dsimp only
      split
      · exact h.2
      split
      · exact h.2
      · exact List.forall_mem_cons.mpr h

/-- The steps of a path are those of the pieces that it is put together from. -/
theorem steps_ofBody {lead : String} {parts : List (List Char)} (hl : lead = "/" ∨ lead = "." ∨ lead = "")
    (h : ∀ piece ∈ parts, '/' ∉ piece) : steps (ofBody lead parts) = (parts.map String.ofList).filter isStep := by
  rcases hl with rfl | rfl | rfl
  · have hroot : (ofBody "/" parts).toList = [] ++ '/' :: ['/'].intercalate parts := ofBody_root parts
    have htail : steps (String.ofList (['/'].intercalate parts)) = (parts.map String.ofList).filter isStep :=
      steps_intercalate String.toList_ofList h
    rw [steps, segments, String.toList_ofList] at htail
    rw [steps, segments, hroot, pieces_slash, List.map_append, List.filter_append, htail]
    rfl
  · rw [steps_intercalate (ofBody_dot parts) (List.forall_mem_cons.mpr ⟨by decide, h⟩), List.map_cons,
      List.filter_cons_of_neg (by decide)]
  · exact steps_intercalate (ofBody_plain parts) h

theorem intercalate_prefix (parts back : List (List Char)) :
    ['/'].intercalate parts <+: ['/'].intercalate (parts ++ back) := by
  induction parts with
  | nil => exact List.nil_prefix
  | cons first more ih =>
      cases more with
      | nil =>
          rw [List.intercalate_singleton, List.singleton_append]
          cases back with
          | nil => exact ⟨[], by rw [List.append_nil, List.intercalate_singleton]⟩
          | cons next back =>
              rw [List.intercalate_cons_of_ne_nil (List.cons_ne_nil next back), List.append_assoc]
              exact List.prefix_append _ _
      | cons next more =>
          rw [List.intercalate_cons_of_ne_nil (List.cons_ne_nil next more),
            List.cons_append,
            List.intercalate_cons_of_ne_nil (List.append_ne_nil_of_left_ne_nil (List.cons_ne_nil next more) _)]
          exact (List.prefix_append_right_inj _).mpr ih

theorem ofBody_prefix {lead : String} (hl : lead = "/" ∨ lead = "." ∨ lead = "") (parts back : List (List Char)) :
    (ofBody lead parts).toList <+: (ofBody lead (parts ++ back)).toList := by
  rcases hl with rfl | rfl | rfl
  · rw [ofBody_root, ofBody_root]
    exact List.cons_prefix_cons.mpr ⟨rfl, intercalate_prefix parts back⟩
  · rw [ofBody_dot, ofBody_dot]
    exact intercalate_prefix (['.'] :: parts) back
  · rw [ofBody_plain, ofBody_plain]
    exact intercalate_prefix parts back

/-- The parent of a path is empty, or put together from the first pieces of the path. -/
theorem parent?_prefix {path parent : String} (h : parent? path = some parent) :
    parent = "" ∨ ∃ parts back, (body path).2 = parts ++ back ∧ parent = ofBody (body path).1 parts := by
  have htrim : ∀ parts : List (List Char), trimPieces parts <+: parts := fun parts => List.rdropWhile_prefix _ parts
  unfold parent? at h
  dsimp only at h
  split at h
  · split at h
    · exact .inl (Option.some_inj.mp h).symm
    · cases h
  · obtain ⟨back, hback⟩ := (htrim _).trans ((List.dropLast_prefix _).trans (htrim (body path).2))
    exact .inr ⟨_, back, hback.symm, (Option.some_inj.mp h).symm⟩

/-- **The steps of the parent of a path are the first steps of the path**, from where this begins too. -/
theorem steps_parent? {path parent : String} (h : parent? path = some parent) :
    parent = "" ∨ isAbsolute parent = isAbsolute path ∧ ∃ more, steps path = steps parent ++ more := by
  rcases parent?_prefix h with rfl | ⟨parts, back, hbody, rfl⟩
  · exact .inl rfl
  · have hlead := lead_body path
    have hslash := slash_not_mem_body path
    have hpath := ofBody_body path
    rw [hbody] at hslash hpath
    rw [List.forall_mem_append] at hslash
    by_cases hempty : (ofBody (body path).1 parts).toList = []
    · exact .inl (String.toList_eq_nil_iff.mp hempty)
    · refine .inr ⟨?_, (back.map String.ofList).filter isStep, ?_⟩
      · obtain ⟨rest, hrest⟩ := ofBody_prefix hlead parts back
        rw [hpath] at hrest
        rw [isAbsolute, isAbsolute, ← hrest, List.head?_append_of_ne_nil _ hempty]
      · rw [steps_ofBody hlead hslash.1, ← List.filter_append, ← List.map_append,
          ← steps_ofBody hlead (List.forall_mem_append.mpr hslash), hpath]

end Path

namespace Disk

/-! ## 3. Where steps lead -/

/-- The place to which pieces lead from a place. -/
def placeFrom : Place → List String → Place
  | place, [] => place
  | place, piece :: rest =>
    if piece = "." ∨ piece = "" then placeFrom place rest
    else if piece = ".." then placeFrom place.dropLast rest
    else placeFrom (place ++ [piece]) rest

/-- The places that pieces enter from a place, in order. -/
def entered : Place → List String → List Place
  | _, [] => []
  | place, piece :: rest =>
    if piece = "." ∨ piece = "" then entered place rest
    else if piece = ".." then entered place.dropLast rest
    else (place ++ [piece]) :: entered (place ++ [piece]) rest

/-- Where a path begins. -/
def origin (here : Place) (path : String) : Place := if Path.isAbsolute path then [] else here

/-- The place to which a path leads. -/
def target (here : Place) (path : String) : Place := placeFrom (origin here path) (Path.steps path)

/-- The places on the way of a path. -/
def way (here : Place) (path : String) : List Place := entered (origin here path) (Path.steps path)

theorem placeFrom_filter (place : Place) (pieces : List String) :
    placeFrom place (pieces.filter Path.isStep) = placeFrom place pieces := by
  induction pieces generalizing place with
  | nil => rfl
  | cons piece rest ih =>
      by_cases h : piece = "." ∨ piece = ""
      · rw [List.filter_cons_of_neg (Path.not_isStep_iff.mpr h), ih, placeFrom, if_pos h]
      · rw [List.filter_cons_of_pos (Path.isStep_iff.mpr h), placeFrom, placeFrom, if_neg h, if_neg h, ih, ih]

theorem entered_filter (place : Place) (pieces : List String) :
    entered place (pieces.filter Path.isStep) = entered place pieces := by
  induction pieces generalizing place with
  | nil => rfl
  | cons piece rest ih =>
      by_cases h : piece = "." ∨ piece = ""
      · rw [List.filter_cons_of_neg (Path.not_isStep_iff.mpr h), ih, entered, if_pos h]
      · rw [List.filter_cons_of_pos (Path.isStep_iff.mpr h), entered, entered, if_neg h, if_neg h, ih, ih]

theorem placeFrom_append (place : Place) (pieces more : List String) :
    placeFrom place (pieces ++ more) = placeFrom (placeFrom place pieces) more := by
  induction pieces generalizing place with
  | nil => rfl
  | cons piece rest ih =>
      rw [List.cons_append, placeFrom, placeFrom]
      split
      · exact ih _
      · split
        · exact ih _
        · exact ih _

theorem entered_append (place : Place) (pieces more : List String) :
    entered place (pieces ++ more) = entered place pieces ++ entered (placeFrom place pieces) more := by
  induction pieces generalizing place with
  | nil => rfl
  | cons piece rest ih =>
      rw [List.cons_append, entered, entered, placeFrom]
      split
      · exact ih _
      · split
        · exact ih _
        · rw [ih, List.cons_append]

/-- Names that lead on, none of them upwards, are entered one below the other. -/
theorem placeFrom_names {names : List String} (h : ∀ name ∈ names, Path.isStep name = true ∧ name ≠ "..")
    (place : Place) : placeFrom place names = place ++ names := by
  induction names generalizing place with
  | nil => rw [placeFrom, List.append_nil]
  | cons name rest ih =>
      rw [List.forall_mem_cons] at h
      rw [placeFrom, if_neg (Path.isStep_iff.mp h.1.1), if_neg h.1.2, ih h.2, List.append_assoc, List.singleton_append]

/-- **The way to the parent of a path is part of the way to the path.** -/
theorem way_parent? {path parent : String} (h : Path.parent? path = some parent) (here : Place) :
    way here parent ⊆ way here path := by
  rcases Path.steps_parent? h with rfl | ⟨habsolute, more, hsteps⟩
  · exact List.nil_subset _
  · rw [way, way, origin, habsolute, ← origin, hsteps, entered_append]
    exact List.subset_append_left _ _

/-! ## 4. The end of a path -/

/-- Pieces lead from a directory to what is at their end. -/
inductive Follows (d : Disk) : Place → List String → Found → Prop
  | done (place : Place) : Follows d place [] (.directory place)
  | stay {place : Place} {piece : String} {rest : List String} {found : Found} (hstay : piece = "." ∨ piece = "")
      (more : Follows d place rest found) : Follows d place (piece :: rest) found
  | up {place : Place} {rest : List String} {found : Found} (more : Follows d place.dropLast rest found) :
      Follows d place (".." :: rest) found
  | enter {place : Place} {piece : String} {rest : List String} {found : Found} (hp : Path.Enters piece)
      (hentry : d.entry? (place ++ [piece]) = some .directory) (more : Follows d (place ++ [piece]) rest found) :
      Follows d place (piece :: rest) found
  | file {place : Place} {piece : String} {content : ByteArray} (hp : Path.Enters piece)
      (hentry : d.entry? (place ++ [piece]) = some (.file content)) :
      Follows d place [piece] (.file (place ++ [piece]) content)
  | absent {place : Place} {piece : String} (hp : Path.Enters piece) (hentry : d.entry? (place ++ [piece]) = none) :
      Follows d place [piece] (.absent (place ++ [piece]))

theorem follow_enters (d : Disk) (place : Place) {piece : String} (hp : Path.Enters piece) (rest : List String) :
    d.follow place (piece :: rest) = match d.entry? (place ++ [piece]) with
      | some .directory => d.follow (place ++ [piece]) rest
      | some (.file content) =>
        if rest.isEmpty then .ok (.file (place ++ [piece]) content) else .error .notDirectory
      | none => if rest.isEmpty then .ok (.absent (place ++ [piece])) else .error .notFound := by
  rw [follow, if_neg hp.step, if_neg hp.up]
  exact if_neg (Nat.not_lt.mpr hp.short)

theorem follows_of_follow {d : Disk} {place : Place} {pieces : List String} {found : Found}
    (h : d.follow place pieces = .ok found) : d.Follows place pieces found := by
  induction pieces generalizing place with
  | nil =>
      cases h
      exact .done place
  | cons piece rest ih =>
      by_cases hstay : piece = "." ∨ piece = ""
      · rw [follow, if_pos hstay] at h
        exact .stay hstay (ih h)
      by_cases hup : piece = ".."
      · rw [follow, if_neg hstay, if_pos hup] at h
        rw [hup]
        exact .up (ih h)
      by_cases hlong : 255 < piece.utf8ByteSize
      · rw [follow, if_neg hstay, if_neg hup, if_pos hlong] at h
        cases h
      have hp : Path.Enters piece := ⟨hstay, hup, Nat.not_lt.mp hlong⟩
      rw [follow_enters d place hp] at h
      cases hentry : d.entry? (place ++ [piece]) with
      | none =>
          rw [hentry] at h
          cases rest with
          | nil =>
              cases h
              exact .absent hp hentry
          | cons => cases h
      | some entry =>
          rw [hentry] at h
          cases entry with
          | directory => exact .enter hp hentry (ih h)
          | file content =>
              cases rest with
              | nil =>
                  cases h
                  exact .file hp hentry
              | cons => cases h

/-- **Pieces are followed to what they lead to**, and fail where they lead nowhere. -/
theorem follow_eq_ok_iff {d : Disk} {place : Place} {pieces : List String} {found : Found} :
    d.follow place pieces = .ok found ↔ d.Follows place pieces found := by
  refine ⟨follows_of_follow, fun h => ?_⟩
  induction h with
  | done place => rfl
  | stay hstay more ih => rw [follow, if_pos hstay, ih]
  | up more ih => rw [follow, if_neg (by decide), if_pos rfl, ih]
  | enter hp hentry more ih => rw [follow_enters _ _ hp, hentry, ← ih]
  | file hp hentry =>
      rw [follow_enters _ _ hp, hentry]
      rfl
  | absent hp hentry =>
      rw [follow_enters _ _ hp, hentry]
      rfl

/-- What is known of what stands at the end of pieces that were followed. -/
def Leads (d : Disk) (place : Place) (pieces : List String) : Found → Prop
  | .directory q => q = placeFrom place pieces ∧ ∀ x ∈ entered place pieces, d.entry? x = some .directory
  | .file q content => q = placeFrom place pieces ∧ q ≠ [] ∧ d.entry? q = some (.file content)
  | .absent q => q = placeFrom place pieces ∧ q ≠ [] ∧ d.entry? q = none ∧ q ∈ entered place pieces ∧
    ∀ x ∈ entered place pieces, x = q ∨ d.entry? x = some .directory

theorem Follows.leads {d : Disk} {place : Place} {pieces : List String} {found : Found}
    (h : d.Follows place pieces found) : d.Leads place pieces found := by
  have hne : ∀ (place : Place) (piece : String), place ++ [piece] ≠ [] := fun _ _ =>
    List.append_ne_nil_of_right_ne_nil _ (List.cons_ne_nil _ _)
  induction h with
  | done place => exact ⟨rfl, List.forall_mem_nil _⟩
  | stay hstay more ih =>
      unfold Leads at ih ⊢
      rwa [placeFrom, entered, if_pos hstay, if_pos hstay]
  | up more ih => exact ih
  | @enter place piece rest found hp hentry more ih =>
      unfold Leads at ih ⊢
      rw [placeFrom, entered, if_neg hp.step, if_neg hp.step, if_neg hp.up, if_neg hp.up]
      cases found with
      | directory q => exact ⟨ih.1, List.forall_mem_cons.mpr ⟨hentry, ih.2⟩⟩
      | file q content => exact ih
      | absent q =>
          obtain ⟨hq, hq', hnone, hmem, hothers⟩ := ih
          exact ⟨hq, hq', hnone, List.mem_cons_of_mem _ hmem, List.forall_mem_cons.mpr ⟨.inr hentry, hothers⟩⟩
  | @file place piece content hp hentry =>
      unfold Leads
      rw [placeFrom, if_neg hp.step, if_neg hp.up]
      exact ⟨rfl, hne place piece, hentry⟩
  | @absent place piece hp hentry =>
      unfold Leads
      rw [placeFrom, entered, if_neg hp.step, if_neg hp.step, if_neg hp.up, if_neg hp.up]
      exact ⟨rfl, hne place piece, hentry, List.mem_cons_self, fun x hx => .inl (List.mem_singleton.mp hx)⟩

/-- The pieces that are followed are the steps of a path, but for pieces that do not lead on. -/
theorem filter_piecesOf (path : String) :
    (piecesOf path).filter Path.isStep = Path.steps path := by
  rw [Path.steps, piecesOf, ← Path.segments]
  induction Path.segments path using List.reverseRecOn with
  | nil => rfl
  | append_singleton pieces piece ih =>
      rw [List.reverse_append, List.reverse_singleton, List.singleton_append]
      by_cases h : piece = ""
      · rw [List.dropWhile_cons_of_pos (by simpa using h), ih, List.filter_append,
          List.filter_cons_of_neg (Path.not_isStep_iff.mpr (.inr h)), List.filter_nil, List.append_nil]
      · rw [List.dropWhile_cons_of_neg (by simpa using h), List.reverse_cons, List.reverse_reverse]

/-- **A path is found where its pieces lead**, if it is one. -/
theorem find_eq_ok_iff {d : Disk} {path : String} {e : Ending} : d.find path = .ok e ↔
    Path.Valid path ∧ d.Follows (origin d.here path) (piecesOf path) e.found ∧ e.slash = path.endsWith "/" := by
  unfold find
  constructor
  · intro h
    split at h
    · cases h
    split at h
    · cases h
    split at h
    · cases h
    obtain ⟨found, hfollow, h⟩ := bind_eq_ok.mp h
    cases h
    exact ⟨⟨‹_›, ‹_›, ‹_›⟩, follow_eq_ok_iff.mp hfollow, rfl⟩
  · obtain ⟨found, slash⟩ := e
    rintro ⟨hvalid, hfollows, rfl⟩
    rw [if_neg hvalid.zero, if_neg hvalid.nonempty, if_neg hvalid.short]
    exact bind_eq_ok.mpr ⟨found, follow_eq_ok_iff.mpr hfollows, rfl⟩

/-- **What is known of the end of a path.** -/
theorem leads_find {d : Disk} {path : String} {e : Ending} (h : d.find path = .ok e) :
    d.Leads (origin d.here path) (Path.steps path) e.found := by
  have hleads := (find_eq_ok_iff.mp h).2.1.leads
  unfold Leads at hleads ⊢
  rwa [← placeFrom_filter, ← entered_filter, filter_piecesOf] at hleads

/-- **A directory is where its path leads.** -/
theorem isDirectory_iff {d : Disk} {path : String} :
    d.isDirectory path = true ↔ ∃ slash, d.find path = .ok ⟨.directory (target d.here path), slash⟩ := by
  constructor
  · intro h
    unfold isDirectory at h
    split at h
    · rename_i place slash hfind
      refine ⟨slash, ?_⟩
      rw [target, ← (leads_find hfind).1, hfind]
    · cases h
  · intro ⟨slash, hfind⟩
    rw [isDirectory, hfind]

/-! ## 5. Operations that succeed -/

/-- What stands at a place. -/
def foundAt (d : Disk) (place : Place) : Found :=
  match d.entry? place with
  | some .directory => .directory place
  | some (.file content) => .file place content
  | none => .absent place

theorem foundAt_file {d : Disk} {place : Place} {content : ByteArray} (h : d.entry? place = some (.file content)) :
    d.foundAt place = .file place content := by
  rw [foundAt, h]

theorem foundAt_none {d : Disk} {place : Place} (h : d.entry? place = none) : d.foundAt place = .absent place := by
  rw [foundAt, h]

section Operations

variable {d d' : Disk} {path : String}

theorem permit_bind_eq_ok {α : Type} {access : Access} {place : Place} {more : Unit → Except SystemError α}
    {value : α} :
    (d.permit access place >>= more) = .ok value ↔ d.refuses access place = false ∧ more () = .ok value := by
  rw [permit]
  cases d.refuses access place with
  | true => exact ⟨nofun, nofun⟩
  | false => exact ⟨fun h => ⟨rfl, h⟩, fun h => h.2⟩

/-- **A directory is made at its path**, where nothing is. -/
theorem makeDirectory_eq_ok (h : d.makeDirectory path = .ok d') :
    (∃ slash, d.find path = .ok ⟨.absent (target d.here path), slash⟩) ∧
      d' = d.put (target d.here path) .directory := by
  obtain ⟨⟨found, slash⟩, hfind, h⟩ := bind_eq_ok.mp h
  cases found with
  | directory place => cases h
  | file place content => cases h
  | absent place =>
      obtain ⟨-, ⟨⟩⟩ := permit_bind_eq_ok.mp h
      obtain ⟨rfl, -⟩ := leads_find hfind
      exact ⟨⟨slash, hfind⟩, rfl⟩

/-- **A file is written at its path**, where no directory is and it is not refused. -/
theorem write_eq_ok_iff {content : ByteArray} : d.write path content = .ok d' ↔
    d.find path = .ok ⟨d.foundAt (target d.here path), false⟩ ∧ d.entry? (target d.here path) ≠ some .directory ∧
      d.refuses .change (target d.here path) = false ∧ d' = d.put (target d.here path) (.file content) := by
  constructor
  · intro h
    obtain ⟨⟨found, slash⟩, hfind, h⟩ := bind_eq_ok.mp h
    have hleads := leads_find hfind
    cases found with
    | directory place => cases h
    | file place old =>
        obtain ⟨rfl, -, hentry⟩ := hleads
        cases slash with
        | true => cases h
        | false =>
            obtain ⟨hpermitted, ⟨⟩⟩ := permit_bind_eq_ok.mp h
            rw [target, foundAt_file hentry, hentry]
            exact ⟨hfind, fun he => (by cases he), hpermitted, rfl⟩
    | absent place =>
        obtain ⟨rfl, -, hentry, -⟩ := hleads
        cases slash with
        | true => cases h
        | false =>
            obtain ⟨hpermitted, ⟨⟩⟩ := permit_bind_eq_ok.mp h
            rw [target, foundAt_none hentry, hentry]
            exact ⟨hfind, fun he => (by cases he), hpermitted, rfl⟩
  · rintro ⟨hfind, hfree, hpermitted, rfl⟩
    cases hentry : d.entry? (target d.here path) with
    | none =>
        rw [foundAt_none hentry] at hfind
        exact bind_eq_ok.mpr ⟨_, hfind, permit_bind_eq_ok.mpr ⟨hpermitted, rfl⟩⟩
    | some entry =>
        cases entry with
        | directory => exact absurd hentry hfree
        | file old =>
            rw [foundAt_file hentry] at hfind
            exact bind_eq_ok.mpr ⟨_, hfind, permit_bind_eq_ok.mpr ⟨hpermitted, rfl⟩⟩

/-- **A file is removed at its path.** -/
theorem remove_eq_ok (h : d.remove path = .ok d') :
    (∃ content, d.find path = .ok ⟨.file (target d.here path) content, false⟩) ∧ d' = d.erase (target d.here path) := by
  obtain ⟨⟨found, slash⟩, hfind, h⟩ := bind_eq_ok.mp h
  cases found with
  | directory place =>
      obtain ⟨-, ⟨⟩⟩ := permit_bind_eq_ok.mp h
  | file place content =>
      obtain ⟨rfl, -⟩ := leads_find hfind
      cases slash with
      | true => cases h
      | false =>
          obtain ⟨-, ⟨⟩⟩ := permit_bind_eq_ok.mp h
          exact ⟨⟨content, hfind⟩, rfl⟩
  | absent place => cases h

end Operations

/-! ## 6. Entries -/

theorem lookup_setAt (place : Place) (entry : Entry) (entries : List (Place × Entry)) (other : Place) :
    (put.setAt place entry entries).lookup other = if other = place then some entry else entries.lookup other := by
  have hcons : ∀ (p : Place) (e : Entry) (rest : List (Place × Entry)),
      ((p, e) :: rest).lookup other = if other = p then some e else rest.lookup other := by
    intro p e rest
    rw [List.lookup_cons]
    by_cases h : other = p
    · rw [if_pos h, beq_iff_eq.mpr h]
    · rw [if_neg h, beq_false_of_ne h]
  induction entries with
  | nil => exact hcons place entry []
  | cons head rest ih =>
      obtain ⟨p, e⟩ := head
      rw [put.setAt]
      by_cases hp : p = place
      · rw [if_pos hp, hp, hcons, hcons]
        split
        · rfl
        · rfl
      · rw [if_neg hp, hcons, hcons, ih]
        by_cases ho : other = p
        · rw [if_pos ho, if_pos ho, if_neg fun h => hp (ho.symm.trans h)]
        · rw [if_neg ho, if_neg ho]

/-- **An entry at a place changes nothing at others.** -/
theorem entry?_put (d : Disk) {place : Place} (h : place ≠ []) (entry : Entry) (other : Place) :
    entry? (d.put place entry) other = if other = place then some entry else d.entry? other := by
  unfold entry? put
  rw [lookup_setAt]
  by_cases ho : other = place
  · rw [if_pos ho, if_pos ho, ho, if_neg (by simpa using h)]
  · rw [if_neg ho, if_neg ho]

/-! ## 7. Disks with the same entries -/

section Same

variable {d d' : Disk}

theorem follow_congr (he : ∀ place, d.entry? place = d'.entry? place) (place : Place) (pieces : List String) :
    d.follow place pieces = d'.follow place pieces := by
  induction pieces generalizing place with
  | nil => rfl
  | cons piece rest ih =>
      rw [follow, follow]
      split
      · exact ih place
      split
      · exact ih _
      split
      · rfl
      dsimp only
      rw [he]
      cases d'.entry? (place ++ [piece]) with
      | none => rfl
      | some entry =>
          cases entry with
          | directory => exact ih _
          | file content => rfl

theorem permit_congr (hs : d.toStandpoint = d'.toStandpoint) : d.permit = d'.permit := by
  funext access place
  rw [permit, permit, hs]

/-- **Where the entries are the same, so are the files at the ends of paths.** -/
theorem read_congr (hs : d.toStandpoint = d'.toStandpoint) (he : ∀ place, d.entry? place = d'.entry? place)
    (path : String) : d.read path = d'.read path := by
  have hfind : d.find path = d'.find path := by
    rw [find, find, hs]
    simp only [follow_congr he]
  rw [read, read, hfind, permit_congr hs]

end Same

end Disk

end RouteScaffold
