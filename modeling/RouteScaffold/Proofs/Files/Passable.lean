import RouteScaffold.Proofs.Files.Cleared
import RouteScaffold.Proofs.Files.Tracked

/-!
# Paths that nothing stands in the way of

What an operation needs to succeed: a path that an operating system takes (`Path.Proper`), and no file on the way to its
end.

* `Path.Proper.parent?`: the parent of such a path is one, a step shorter;
* `Disk.find_proper`: it is followed to its end, or a directory on the way is not there;
* `Filing.ensureDirectory_proper`, `Filing.write_proper`, `Filing.ensureTracked_proper`: what is made there is made;
* `Filing.removeWhere_proper`: what is removed there is removed.
-/

namespace RouteScaffold

namespace Path

/-! ## 1. Proper paths -/

/-- Pieces that lead to a name, if they lead on at all. -/
def Ends (pieces : List String) : Prop :=
  pieces.filter isStep = [] ∨ ∃ front name, pieces = front ++ [name] ∧ isStep name = true

/-- A path that an operating system takes: neither the path nor a name of it is too long, none leads upwards, and it
    ends in a name. -/
structure Proper (path : String) : Prop where
  zero : Char.ofNat 0 ∉ path.toList
  short : path.utf8ByteSize ≤ 4095
  names : ∀ step ∈ steps path, step.utf8ByteSize ≤ 255 ∧ step ≠ ".."
  ends : Ends (segments path)

theorem ends_iff {pieces : List String} :
    Ends pieces ↔ pieces.filter isStep = [] ∨ isStep (pieces.getLast?.getD "") = true := by
  constructor
  · rintro (h | ⟨front, name, rfl, hname⟩)
    · exact .inl h
    · rw [List.getLast?_concat]
      exact .inr hname
  · refine Or.imp_right fun h => ?_
    rcases List.eq_nil_or_concat' pieces with rfl | ⟨front, name, rfl⟩
    · exact absurd h (by decide)
    · rw [List.getLast?_concat] at h
      exact ⟨front, name, rfl, h⟩

instance (pieces : List String) : Decidable (Ends pieces) := decidable_of_iff _ ends_iff.symm

instance (path : String) : Decidable (Proper path) :=
  decidable_of_iff (Char.ofNat 0 ∉ path.toList ∧ path.utf8ByteSize ≤ 4095 ∧
    (∀ step ∈ steps path, step.utf8ByteSize ≤ 255 ∧ step ≠ "..") ∧ Ends (segments path))
    ⟨fun ⟨zero, short, names, ends⟩ => ⟨zero, short, names, ends⟩, fun h => ⟨h.zero, h.short, h.names, h.ends⟩⟩

theorem Ends.tail {piece : String} {rest : List String} (h : Ends (piece :: rest)) : Ends rest := by
  rcases h with h | ⟨front, name, h, hname⟩
  · refine .inl (List.filter_eq_nil_iff.mpr fun other ho => ?_)
    exact List.filter_eq_nil_iff.mp h other (List.mem_cons_of_mem _ ho)
  · cases front with
    | nil =>
        rw [(List.cons.inj h).2]
        exact .inl rfl
    | cons first front => exact .inr ⟨front, name, (List.cons.inj h).2, hname⟩

theorem Ends.step {piece : String} {rest : List String} (h : Ends (piece :: rest)) (hne : rest ≠ [])
    (hs : isStep piece = true) : rest.filter isStep ≠ [] := by
  rcases h with h | ⟨front, name, h, hname⟩
  · rw [List.filter_cons_of_pos hs] at h
    cases h
  · cases front with
    | nil => exact absurd (List.cons.inj h).2 hne
    | cons first front =>
        have hrest : rest = front ++ [name] := (List.cons.inj h).2
        rw [hrest, List.filter_append, List.filter_cons_of_pos hname]
        exact List.append_ne_nil_of_right_ne_nil _ (List.cons_ne_nil _ _)

/-- The parent of a path is a beginning of it. -/
theorem toList_parent? {path parent : String} (h : parent? path = some parent) : parent.toList <+: path.toList := by
  rcases parent?_prefix h with rfl | ⟨parts, back, hbody, rfl⟩
  · exact List.nil_prefix
  · have hprefix := ofBody_prefix (lead_body path) parts back
    rwa [← hbody, ofBody_body] at hprefix

theorem utf8ByteSize_mono {front path : String} (h : front.toList <+: path.toList) :
    front.utf8ByteSize ≤ path.utf8ByteSize := by
  obtain ⟨back, hback⟩ := h
  have hpath : path = front ++ String.ofList back := by
    rw [← String.toList_inj, String.toList_append, String.toList_ofList, hback]
  rw [hpath, String.utf8ByteSize_append]
  exact Nat.le_add_right _ _

theorem lead_of_isAbsolute {path : String} (h : isAbsolute path = true) : (body path).1 = "/" := by
  unfold body
  cases hp : pieces path.toList with
  | nil => exact absurd hp (pieces_ne_nil _)
  | cons first rest =>
      dsimp only
      rw [if_pos h]

/-- What ends in a name has it behind its front. -/
theorem exists_body {path name : String} {front : List String} (h : segments path = front ++ [name])
    (hname : isStep name = true) : ∃ parts piece, (body path).2 = parts ++ [piece] ∧ String.ofList piece = name := by
  have hlast : ∀ {parts : List (List Char)}, parts ≠ [] → parts.map String.ofList <:+ segments path →
      ∃ back piece, parts = back ++ [piece] ∧ String.ofList piece = name := by
    intro parts hne hsuffix
    obtain ⟨back, piece, rfl⟩ := (List.eq_nil_or_concat' parts).resolve_left hne
    refine ⟨back, piece, rfl, ?_⟩
    obtain ⟨ahead, hahead⟩ := hsuffix
    rw [h, List.map_append, ← List.append_assoc] at hahead
    exact (List.cons.inj (List.append_inj' hahead rfl).2).1
  unfold body
  cases hp : pieces path.toList with
  | nil => exact absurd hp (pieces_ne_nil _)
  | cons first rest =>
      have hsegments : segments path = String.ofList first :: rest.map String.ofList := by
        rw [segments, hp, List.map_cons]
      -- A front that stands alone is no name.
      have hrest : ¬isStep (String.ofList first) = true → rest ≠ [] := by
        rintro hfirst rfl
        rw [hsegments] at h
        have hone : front ++ [name] = [] ++ [String.ofList first] := h.symm
        rw [(List.cons.inj (List.append_inj' hone rfl).2).1] at hname
        exact hfirst hname
      have hsuffix : rest.map String.ofList <:+ segments path := ⟨[String.ofList first], hsegments.symm⟩
      dsimp only
      split
      · rename_i habsolute
        refine hlast (hrest ?_) hsuffix
        obtain ⟨t, ht⟩ := List.head?_eq_some_iff.mp (beq_iff_eq.mp habsolute)
        rw [ht, pieces, if_pos rfl] at hp
        rw [← (List.cons.inj hp).1]
        decide
      split
      · rename_i hdot
        refine hlast (hrest ?_) hsuffix
        rw [hdot]
        decide
      · exact hlast (List.cons_ne_nil _ _) ⟨[], by rw [List.nil_append, hsegments, List.map_cons]⟩

/-- Pieces that are trimmed off do not lead on. -/
theorem component?_isNone_iff {piece : List Char} :
    (component? piece).isNone = true ↔ ¬isStep (String.ofList piece) = true := by
  have hdot : String.ofList piece = "." ↔ piece = ['.'] := by
    rw [← String.toList_inj, String.toList_ofList]
    rfl
  have hempty : String.ofList piece = "" ↔ piece = [] := by
    rw [← String.toList_inj, String.toList_ofList]
    rfl
  rw [not_isStep_iff, hdot, hempty, component?]
  by_cases hnone : piece = [] ∨ piece = ['.']
  · rw [if_pos hnone]
    exact ⟨fun _ => hnone.symm, fun _ => rfl⟩
  · rw [if_neg hnone]
    refine ⟨fun h => ?_, fun h => absurd h.symm hnone⟩
    split at h
    · cases h
    · cases h

theorem filter_trimPieces (parts : List (List Char)) :
    ((trimPieces parts).map String.ofList).filter isStep = (parts.map String.ofList).filter isStep := by
  rw [trimPieces]
  induction parts using List.reverseRecOn with
  | nil => rfl
  | append_singleton parts piece ih =>
      rw [List.reverse_append, List.reverse_singleton, List.singleton_append]
      by_cases h : (component? piece).isNone = true
      · rw [List.dropWhile_cons, if_pos h, ih, List.map_append, List.filter_append, List.map_singleton,
          List.filter_cons_of_neg (component?_isNone_iff.mp h), List.filter_nil, List.append_nil]
      · rw [List.dropWhile_cons, if_neg h, List.reverse_cons, List.reverse_reverse]

/-- What is trimmed ends in a name, if it leads on. -/
theorem ends_trimPieces {lead : String} (hl : lead = "/" ∨ lead = "." ∨ lead = "") {parts : List (List Char)}
    (h : ∀ piece ∈ parts, '/' ∉ piece) : Ends (segments (ofBody lead (trimPieces parts))) := by
  have hkept : ∀ piece ∈ trimPieces parts, '/' ∉ piece := fun piece hp =>
    h piece ((List.rdropWhile_prefix _ parts).subset hp)
  by_cases hnone : trimPieces parts = []
  · refine .inl ?_
    have hsteps := steps_ofBody hl hkept
    rwa [hnone] at hsteps ⊢
  · obtain ⟨back, piece, hback⟩ := (List.eq_nil_or_concat' _).resolve_left hnone
    have hstep : isStep (String.ofList piece) = true := by
      have hlast : ¬(component? ((trimPieces parts).getLast hnone)).isNone = true :=
        List.rdropWhile_last_not _ parts hnone
      simp only [hback, List.getLast_append_singleton] at hlast
      exact not_not.mp (component?_isNone_iff.not.mp hlast)
    have hsegments : ∀ {path : String} (front : List (List Char)), (∀ piece ∈ front, '/' ∉ piece) →
        path.toList = ['/'].intercalate (front ++ trimPieces parts) →
        segments path = (front ++ back).map String.ofList ++ [String.ofList piece] := by
      intro path front hfront hpath
      rw [segments, hpath, pieces_intercalate (List.append_ne_nil_of_right_ne_nil _ hnone)
        (List.forall_mem_append.mpr ⟨hfront, hkept⟩), hback, ← List.append_assoc, List.map_append]
      rfl
    refine .inr ?_
    rcases hl with rfl | rfl | rfl
    · refine ⟨_, _, hsegments [[]] (by simp) ?_, hstep⟩
      rw [ofBody_root, List.singleton_append, List.intercalate_cons_of_ne_nil hnone]
      rfl
    · exact ⟨_, _, hsegments [['.']] (by decide) (ofBody_dot _), hstep⟩
    · exact ⟨_, _, hsegments [] (by simp) (ofBody_plain _), hstep⟩

/-- **The parent of a path that ends in a name is a step shorter**, and ends in a name as well if it leads on. -/
theorem parent?_of_ends {path : String} (h : Ends (segments path)) (hne : steps path ≠ []) : ∃ parent,
    parent? path = some parent ∧ Ends (segments parent) ∧ isAbsolute parent = isAbsolute path ∧
      ∃ name, steps path = steps parent ++ [name] := by
  obtain ⟨front, name, hsegments, hname⟩ := h.resolve_left hne
  obtain ⟨parts, piece, hbody, rfl⟩ := exists_body hsegments hname
  have hlead := lead_body path
  have hslash := slash_not_mem_body path
  rw [hbody, List.forall_mem_append, List.forall_mem_singleton] at hslash
  have hpath : body path = ((body path).1, parts ++ [piece]) := Prod.ext rfl hbody
  have htrim : trimPieces (parts ++ [piece]) = parts ++ [piece] := by
    rw [trimPieces, List.reverse_append, List.reverse_singleton, List.singleton_append,
      List.dropWhile_cons, if_neg fun hnone => component?_isNone_iff.mp hnone hname, List.reverse_cons,
      List.reverse_reverse]
  have hparent : parent? path = some (ofBody (body path).1 (trimPieces parts)) := by
    rw [parent?_eq hpath (by rw [htrim]; exact List.append_ne_nil_of_right_ne_nil _ (List.cons_ne_nil _ _)), htrim,
      List.dropLast_concat]
  refine ⟨_, hparent, ends_trimPieces hlead hslash.1, ?_, String.ofList piece, ?_⟩
  · rw [Bool.eq_iff_iff]
    constructor
    · intro habsolute
      obtain ⟨t, ht⟩ := List.head?_eq_some_iff.mp (beq_iff_eq.mp habsolute)
      obtain ⟨back, hback⟩ := toList_parent? hparent
      rw [isAbsolute, ← hback, ht]
      rfl
    · intro habsolute
      rw [lead_of_isAbsolute habsolute, isAbsolute, ofBody_root]
      rfl
  · have hkept : ∀ piece ∈ trimPieces parts, '/' ∉ piece := fun piece hp =>
      hslash.1 piece ((List.rdropWhile_prefix _ parts).subset hp)
    have hall := steps_ofBody hlead (List.forall_mem_append.mpr ⟨hslash.1, List.forall_mem_singleton.mpr hslash.2⟩)
    rw [← hbody, ofBody_body, hbody, List.map_append, List.filter_append, List.map_singleton,
      List.filter_cons_of_pos hname, List.filter_nil] at hall
    rw [hall, steps_ofBody hlead hkept, filter_trimPieces]

section Parent

variable {path : String} (h : Proper path) (hne : steps path ≠ [])

include h hne

/-- A path that leads on ends in a name. -/
theorem Proper.exists_name : ∃ front name, segments path = front ++ [name] ∧ isStep name = true :=
  h.ends.resolve_left hne

theorem Proper.ne_empty : path ≠ "" := by
  rintro rfl
  exact hne rfl

theorem Proper.endsWith_slash : path.endsWith "/" = false := by
  obtain ⟨front, name, hsegments, hname⟩ := h.exists_name hne
  rw [Bool.eq_false_iff]
  intro hslash
  rw [String.endsWith_eq_endsWith_toSlice, String.Slice.endsWith_string_iff, String.copy_toSlice] at hslash
  obtain ⟨text, htext⟩ := hslash
  have hpieces : segments path = (pieces text).map String.ofList ++ [""] := by
    have htoList : path.toList = text ++ '/' :: [] := htext.symm
    rw [segments, htoList, pieces_slash, List.map_append]
    rfl
  rw [hpieces] at hsegments
  rw [← (List.cons.inj (List.append_inj' hsegments rfl).2).1] at hname
  exact absurd hname (by decide)

/-- **The parent of a path that leads on is a step shorter**, and proper as well. -/
theorem Proper.parent? : ∃ parent, Path.parent? path = some parent ∧ Proper parent ∧
    isAbsolute parent = isAbsolute path ∧ ∃ name, steps path = steps parent ++ [name] := by
  obtain ⟨parent, hparent, hends, habsolute, name, hsteps⟩ := parent?_of_ends h.ends hne
  have hahead := toList_parent? hparent
  refine ⟨parent, hparent, ⟨fun hz => h.zero (hahead.subset hz), ?_, fun step hs => h.names step ?_, hends⟩,
    habsolute, name, hsteps⟩
  · exact (utf8ByteSize_mono hahead).trans h.short
  · rw [hsteps]
    exact List.mem_append_left _ hs

end Parent

end Path

namespace Disk

/-! ## 2. Following -/

theorem placeFrom_steps {pieces : List String} (h : ∀ piece ∈ pieces, Path.isStep piece = true → piece ≠ "..")
    (place : Place) : placeFrom place pieces = place ++ pieces.filter Path.isStep := by
  rw [← placeFrom_filter, placeFrom_names]
  intro name hm
  obtain ⟨hm, hname⟩ := List.mem_filter.mp hm
  exact ⟨hname, h name hm hname⟩

section Follow

variable {d : Disk} {pieces : List String}
  (hn : ∀ piece ∈ pieces, Path.isStep piece = true → piece.utf8ByteSize ≤ 255 ∧ piece ≠ "..") (he : Path.Ends pieces)

include hn he

/-- **Pieces are followed to their end**, unless a directory on the way is not there; if no file is on the way. -/
theorem follow_proper {place : Place}
    (hway : ∀ x ∈ entered place pieces, x = placeFrom place pieces ∨ ∀ content, d.entry? x ≠ some (.file content)) :
    (∃ found, d.follow place pieces = .ok found ∧ ∀ q content, found = .file q content → q ∈ entered place pieces) ∨
      d.follow place pieces = .error .notFound ∧
        ∃ x ∈ entered place pieces, x ≠ placeFrom place pieces ∧ d.entry? x = none := by
  induction pieces generalizing place with
  | nil => exact .inl ⟨_, rfl, fun q content hfound => by cases hfound⟩
  | cons piece rest ih =>
      rw [List.forall_mem_cons] at hn
      rw [entered, placeFrom] at hway ⊢
      rw [follow]
      by_cases hskip : piece = "." ∨ piece = ""
      · simp only [if_pos hskip] at hway ⊢
        exact ih hn.2 he.tail hway
      have hstep := Path.isStep_iff.mpr hskip
      obtain ⟨hsize, hup⟩ := hn.1 hstep
      simp only [if_neg hskip, if_neg hup, if_neg (Nat.not_lt.mpr hsize)] at hway ⊢
      -- Only what stands at the end is not on the way.
      have hlast : rest ≠ [] → place ++ [piece] ≠ placeFrom (place ++ [piece]) rest := by
        intro hne hsame
        rw [placeFrom_steps fun piece hm hs => (hn.2 piece hm hs).2] at hsame
        exact he.step hne hstep (List.append_cancel_left ((List.append_nil _).trans hsame)).symm
      rw [List.forall_mem_cons] at hway
      cases hentry : d.entry? (place ++ [piece]) with
      | none =>
          cases rest with
          | nil => exact .inl ⟨_, rfl, fun q content hfound => by cases hfound⟩
          | cons next more =>
              exact .inr ⟨rfl, _, List.mem_cons_self, hlast (List.cons_ne_nil _ _), hentry⟩
      | some entry =>
          cases entry with
          | file content =>
              cases rest with
              | nil =>
                  refine .inl ⟨_, rfl, fun q content' hfound => ?_⟩
                  cases hfound
                  exact List.mem_cons_self
              | cons next more =>
                  exact absurd hentry ((hway.1.resolve_left (hlast (List.cons_ne_nil _ _))) content)
          | directory =>
              rcases ih hn.2 he.tail hway.2 with ⟨found, hfollow, hfile⟩ | ⟨herror, x, hx, hmissing⟩
              · exact .inl ⟨found, hfollow, fun q content hfound => List.mem_cons_of_mem _ (hfile q content hfound)⟩
              · exact .inr ⟨herror, x, List.mem_cons_of_mem _ hx, hmissing⟩

end Follow

section Find

variable {d : Disk} {path : String} (h : Path.Proper path)

include h

theorem ends_piecesOf : Path.Ends (piecesOf path) := by
  rcases h.ends with hnone | ⟨front, name, hsegments, hname⟩
  · exact .inl ((filter_piecesOf path).trans hnone)
  · refine .inr ⟨front, name, ?_, hname⟩
    have hempty : name ≠ "" := fun he => Path.isStep_iff.mp hname (.inr he)
    rw [piecesOf, ← Path.segments, hsegments, List.reverse_append, List.reverse_singleton, List.singleton_append,
      List.dropWhile_cons_of_neg (by simpa using hempty), List.reverse_cons, List.reverse_reverse]

/-- **A path is followed to its end**, unless a directory on the way is not there; if no file is on the way. -/
theorem find_proper (hne : path ≠ "")
    (hway : ∀ x ∈ way d.here path, x = target d.here path ∨ ∀ content, d.entry? x ≠ some (.file content)) :
    (∃ found, d.find path = .ok ⟨found, path.endsWith "/"⟩ ∧
      ∀ q content, found = .file q content → q ∈ way d.here path) ∨
    d.find path = .error .notFound ∧ ∃ x ∈ way d.here path, x ≠ target d.here path ∧ d.entry? x = none := by
  have hzero : ¬path.toList.contains (Char.ofNat 0) = true := fun hm => h.zero (List.contains_iff_mem.mp hm)
  have hempty : ¬path.isEmpty = true := fun hm => hne (String.isEmpty_iff.mp hm)
  have hnames : ∀ piece ∈ piecesOf path, Path.isStep piece = true → piece.utf8ByteSize ≤ 255 ∧ piece ≠ ".." := by
    intro piece hm hs
    refine h.names piece ?_
    rw [← filter_piecesOf]
    exact List.mem_filter.mpr ⟨hm, hs⟩
  unfold way target at hway ⊢
  rw [← filter_piecesOf, entered_filter, placeFrom_filter] at hway ⊢
  rw [find, if_neg hzero, if_neg hempty, if_neg (Nat.not_lt.mpr h.short)]
  rcases follow_proper hnames (ends_piecesOf h) hway with ⟨found, hfollow, hfile⟩ | ⟨hfollow, hmissing⟩
  · exact .inl ⟨found, bind_eq_ok.mpr ⟨found, hfollow, rfl⟩, hfile⟩
  · refine .inr ⟨?_, hmissing⟩
    have hstart : d.follow (if Path.isAbsolute path then [] else d.here) (piecesOf path) = .error .notFound := hfollow
    dsimp only
    rw [hstart]
    rfl

/-- The way to a name is the way to its parent, and the name. -/
theorem way_proper (hne : Path.steps path ≠ []) : ∃ parent, Path.parent? path = some parent ∧ Path.Proper parent ∧
    (Path.steps parent).length < (Path.steps path).length ∧
    ∀ here, way here path = way here parent ++ [target here path] := by
  obtain ⟨parent, hparent, hproper, habsolute, name, hsteps⟩ := h.parent? hne
  have hmem : name ∈ Path.steps path := by
    rw [hsteps]
    exact List.mem_append_right _ List.mem_cons_self
  have hstep := Path.isStep_iff.mp (List.mem_filter.mp hmem).2
  refine ⟨parent, hparent, hproper, ?_, fun here => ?_⟩
  · rw [hsteps, List.length_append]
    exact Nat.lt_succ_self _
  · have horigin : origin here parent = origin here path := by rw [origin, origin, habsolute]
    rw [way, way, target, hsteps, entered_append, placeFrom_append, horigin, entered, placeFrom, if_neg hstep,
      if_neg hstep, if_neg (h.names name hmem).2, if_neg (h.names name hmem).2]
    rfl

/-- **Where the directories on the way are there a path is followed to its end**, which is no directory. -/
theorem find_reached (hne : Path.steps path ≠ [])
    (hway : ∀ x ∈ way d.here path, x = target d.here path ∨ d.entry? x = some .directory)
    (ht : d.entry? (target d.here path) ≠ some .directory) : ∃ found, d.find path = .ok ⟨found, false⟩ ∧
      ∀ q, found ≠ .directory q := by
  have hfree : ∀ x ∈ way d.here path, x = target d.here path ∨ ∀ content, d.entry? x ≠ some (.file content) := by
    refine fun x hx => (hway x hx).imp_right fun he content hc => ?_
    rw [he] at hc
    cases hc
  rcases find_proper h (h.ne_empty hne) hfree with ⟨found, hfind, -⟩ | ⟨-, x, hx, hxt, hnone⟩
  · rw [h.endsWith_slash hne] at hfind
    refine ⟨found, hfind, ?_⟩
    rintro q rfl
    obtain ⟨_, -, -, -, hall⟩ := way_proper h hne
    have hmem : target d.here path ∈ way d.here path := by
      rw [hall]
      exact List.mem_append_right _ List.mem_cons_self
    exact ht ((leads_find hfind).2 _ hmem)
  · rw [(hway x hx).resolve_left hxt] at hnone
    cases hnone

end Find

/-- A directory is there, or nothing is and one may be made. -/
def Passes (d : Disk) (x : Place) : Prop :=
  d.entry? x = some .directory ∨ d.entry? x = none ∧ d.refuses .change x = false

theorem Passes.not_file {d : Disk} {x : Place} (h : d.Passes x) (content : ByteArray) :
    d.entry? x ≠ some (.file content) := by
  rcases h with h | ⟨h, -⟩
  · rw [h]
    exact fun he => (by cases he)
  · rw [h]
    exact fun he => (by cases he)

theorem Passes.permitted {d : Disk} {x : Place} (h : d.Passes x) (hx : d.entry? x = none) :
    d.refuses .change x = false := by
  rcases h with h | ⟨-, h⟩
  · cases h.symm.trans hx
  · exact h

end Disk

open Disk

namespace Filing

/-! ## 3. Directories -/

/-- **Where nothing is in the way a directory is made**, unless it is there, or one on the way is not. -/
theorem makeDirectory_proper {d : Disk} {path : String} (h : Path.Proper path) (hne : path ≠ "")
    (hway : ∀ x ∈ way d.here path, d.Passes x) :
    (∃ d', d.makeDirectory path = .ok d') ∨
    (d.makeDirectory path = .error .exists_ ∧ d.isDirectory path = true) ∨
    d.makeDirectory path = .error .notFound ∧ ∃ x ∈ way d.here path, x ≠ target d.here path ∧ d.entry? x = none := by
  rcases find_proper h hne fun x hx => .inr (hway x hx).not_file with ⟨found, hfind, hmem⟩ | ⟨hfind, hmissing⟩
  · cases found with
    | directory q =>
        refine .inr (.inl ⟨?_, by rw [isDirectory, hfind]⟩)
        rw [makeDirectory, hfind]
        rfl
    | file q content => exact absurd (leads_find hfind).2.2 ((hway q (hmem q content rfl)).not_file content)
    | absent q =>
        obtain ⟨rfl, -, hnone, hmem, -⟩ := leads_find hfind
        exact .inl ⟨_, bind_eq_ok.mpr ⟨_, hfind, permit_bind_eq_ok.mpr ⟨(hway _ hmem).permitted hnone, rfl⟩⟩⟩
  · refine .inr (.inr ⟨?_, hmissing⟩)
    rw [makeDirectory, hfind]
    rfl

/-- **The directories on the way to the end of a path are made**, if nothing is in the way. -/
theorem makeAll_proper {fuel : Nat} {path : String} {d : Disk} (h : Path.Proper path)
    (hf : (Path.steps path).length < fuel) (hway : ∀ x ∈ way d.here path, d.Passes x) :
    (makeAll fuel path d).1 = .ok () := by
  induction fuel generalizing path with
  | zero => exact absurd hf (Nat.not_lt_zero _)
  | succ fuel ih =>
      rw [makeAll]
      by_cases hempty : path.isEmpty = true
      · rw [if_pos hempty]
      rw [if_neg hempty]
      have hne : path ≠ "" := fun he => hempty (String.isEmpty_iff.mpr he)
      rcases makeDirectory_proper h hne hway with ⟨d', hmake⟩ | ⟨hmake, hthere⟩ | ⟨hmake, x, hx, -, -⟩
      · rw [hmake]
      · rw [hmake]
        dsimp only
        rw [if_neg (by decide), if_pos hthere]
      · have hsteps : Path.steps path ≠ [] := by
          intro hnil
          rw [way, hnil] at hx
          cases hx
        have hmissing : SystemError.notFound.isNotFound = true := rfl
        obtain ⟨parent, hparent, hproper, hlength, hall⟩ := way_proper h hsteps
        have hparents := ih hproper (by omega) fun x hx => hway x (by rw [hall]; exact List.mem_append_left _ hx)
        rw [hmake]
        dsimp only
        rw [if_pos hmissing, hparent]
        dsimp only
        rcases hrun : makeAll fuel parent d with ⟨e | ⟨⟩, d₁⟩
        · rw [hrun] at hparents
          cases hparents
        -- Now all on the way is there.
        have hmakes := makes_makeAll hrun
        have hway₁ : ∀ x ∈ way d₁.here path, d₁.Passes x := by
          intro x hx
          by_cases hx' : x ∈ way d.here parent
          · exact .inl (hmakes.made x hx')
          · rw [Disk.Passes, hmakes.others x hx', hmakes.stand]
            exact hway x (by rwa [hmakes.here] at hx)
        dsimp only
        rcases makeDirectory_proper h hne hway₁ with ⟨d', hmake⟩ | ⟨hmake, hthere⟩ | ⟨-, x, hx, hxt, hnone⟩
        · rw [hmake]
        · rw [hmake]
          dsimp only
          rw [if_pos hthere]
        · rw [hmakes.here, hall] at hx
          rw [hmakes.here] at hxt
          rcases List.mem_append.mp hx with hx | hx
          · rw [hmakes.made x hx] at hnone
            cases hnone
          · exact absurd (List.mem_singleton.mp hx) hxt

theorem length_steps_le (path : String) : (Path.steps path).length ≤ path.length := by
  have hpieces : ∀ chars : List Char, ((Path.pieces chars).filter (· ≠ [])).length ≤ chars.length := by
    intro chars
    induction chars with
    | nil => exact Nat.le_refl _
    | cons c rest ih =>
        rw [Path.pieces]
        split
        · rw [List.filter_cons_of_neg (by decide)]
          exact Nat.le_succ_of_le ih
        · cases hr : Path.pieces rest with
          | nil => exact absurd hr (Path.pieces_ne_nil rest)
          | cons piece more =>
              rw [hr] at ih
              rw [List.filter_cons_of_pos (by simp), List.length_cons, List.length_cons]
              refine Nat.succ_le_succ (Nat.le_trans ?_ ih)
              exact (List.Sublist.filter _ (List.sublist_cons_self piece more)).length_le
  rw [← String.length_toList]
  refine Nat.le_trans ?_ (hpieces path.toList)
  rw [Path.steps, Path.segments, List.filter_map, List.length_map]
  refine (List.monotone_filter_right _ fun piece hp => ?_).length_le
  simp only [decide_eq_true_eq]
  rintro rfl
  exact absurd hp (by decide)

/-- **A directory is made with those on the way to it**, if nothing is in the way. -/
theorem ensureDirectory_proper {path : String} {d : Disk} (h : Path.Proper path)
    (hway : ∀ x ∈ way d.here path, d.Passes x) :
    ∃ d', (ensureDirectory path).run d = (.ok (), d') := by
  have hall := makeAll_proper h (Nat.lt_succ_of_le (length_steps_le path)) hway
  refine ⟨(makeAll (path.length + 1) path d).2, ?_⟩
  rw [run_ensureDirectory, hall]
  rfl

/-! ## 4. Files -/

/-- **A file is written where the directories on the way are there**, and none stands at its place, which may be
    changed. -/
theorem write_proper {path : String} {d : Disk} (h : Path.Proper path) (hne : Path.steps path ≠ [])
    (hway : ∀ x ∈ way d.here path, x = target d.here path ∨ d.entry? x = some .directory)
    (ht : d.entry? (target d.here path) ≠ some .directory) (hp : d.refuses .change (target d.here path) = false)
    (content : ByteArray) : ∃ d', (write path content).run d = (.ok (), d') := by
  have hwrite : ∃ d', d.write path content = .ok d' := by
    obtain ⟨found, hfind, hnot⟩ := find_reached h hne hway ht
    have hleads := leads_find hfind
    cases found with
    | directory q => exact absurd rfl (hnot q)
    | file q old =>
        obtain ⟨rfl, -⟩ := hleads
        exact ⟨_, bind_eq_ok.mpr ⟨_, hfind, permit_bind_eq_ok.mpr ⟨hp, rfl⟩⟩⟩
    | absent q =>
        obtain ⟨rfl, -⟩ := hleads
        exact ⟨_, bind_eq_ok.mpr ⟨_, hfind, permit_bind_eq_ok.mpr ⟨hp, rfl⟩⟩⟩
  obtain ⟨d', hwrite⟩ := hwrite
  refine ⟨d', ?_⟩
  have hrun := run_change "write" path (·.write path content) d
  rw [hwrite] at hrun
  exact hrun

/-- **A tracked directory is made**, if nothing is in the way to it and it may be listed and changed. -/
theorem ensureTracked_proper {path : String} {d : Disk} (h : Path.Proper path) (hne : Path.steps path ≠ [])
    (hk : Path.Proper (Path.join path keeper)) (hway : ∀ x ∈ way d.here path, d.Passes x)
    (hlook : d.refuses .look (target d.here path) = false)
    (hchange : d.refuses .change (target d.here path ++ [keeper]) = false) :
    ∃ kept d', (ensureTracked path).run d = (.ok kept, d') := by
  obtain ⟨d₁, hmake⟩ := ensureDirectory_proper h hway
  have hmakes := makes_ensureDirectory hmake
  have hlistable : d₁.Listable path :=
    ⟨(isDirectory_of_ensureDirectory hmake).resolve_left (h.ne_empty hne), by rw [hmakes.stand]; exact hlook⟩
  rw [ensureTracked_eq, run_bind_of_ok hmake, run_ask_bind_of_ok (list_eq_ok_iff.mpr ⟨hlistable, rfl⟩)]
  by_cases hempty : (d₁.children (target d₁.here path)).isEmpty = true
  · rw [if_pos hempty]
    have hsteps : Path.steps keeper = [keeper] := by decide
    have hwayKeeper : way d₁.here (Path.join path keeper) =
      way d.here path ++ [target d₁.here (Path.join path keeper)] := by
      rw [way_join (by decide), hsteps, target_keeper, hmakes.here]
      rfl
    obtain ⟨d₂, htouch⟩ := write_proper (d := d₁) hk (by rw [Path.steps_join (by decide), hsteps]; simp)
      (by
        rw [hwayKeeper]
        intro x hx
        exact (List.mem_append.mp hx).symm.imp List.mem_singleton.mp (hmakes.made x))
      (by
        rw [target_keeper, children_eq_nil_iff.mp (List.isEmpty_iff.mp hempty) keeper]
        exact fun he => (by cases he))
      (by
        rw [target_keeper, hmakes.stand]
        exact hchange)
      .empty
    rw [touch, run_bind_of_ok htouch]
    exact ⟨true, d₂, rfl⟩
  · rw [if_neg hempty]
    exact ⟨false, d₁, rfl⟩

/-- **Files right in a directory are removed**, if their paths are taken and they may be changed. -/
theorem removeWhere_proper {directory : String} {p : String → Bool} {d : Disk} (hs : d.Sound)
    (hd : d.Listable directory) (hchange : ∀ name, d.refuses .change (target d.here directory ++ [name]) = false)
    (hp : ∀ name content, d.entry? (target d.here directory ++ [name]) = some (.file content) →
      Path.Proper (Path.join directory name)) : ∃ paths d', (removeWhere directory p).run d = (.ok paths, d') := by
  refine removeWhere_of_found hs hd fun name content _ hfile => ?_
  have hentry : Path.IsEntry name := hs.isEntry (by rw [hfile]; rfl)
  have hproper := hp name content hfile
  have htarget := target_entry hentry d.here directory
  have hne : Path.steps (Path.join directory name) ≠ [] := by
    rw [Path.steps_join hentry.plain.isAbsolute, hentry.plain.steps, Path.segments]
    exact List.append_ne_nil_of_right_ne_nil _ fun hnil => Path.pieces_ne_nil _ (List.map_eq_nil_iff.mp hnil)
  -- The directory is there, with all on the way to it.
  have hway : ∀ x ∈ way d.here (Path.join directory name), x = target d.here (Path.join directory name) ∨
      d.entry? x = some .directory := by
    intro x hx
    rw [way_join hentry.plain.isAbsolute, List.mem_append] at hx
    rcases hx with hx | hx
    · exact .inr ((makes_of_isDirectory hd.directory).made x hx)
    · rw [hentry.plain.steps, Path.segments, Path.pieces_single hentry.slash, List.map_singleton, String.ofList_toList,
        entered, if_neg (Path.isStep_iff.mp hentry.step), if_neg hentry.up, entered, List.mem_singleton] at hx
      exact .inl (hx.trans htarget.symm)
  have hthere : d.entry? (target d.here (Path.join directory name)) = some (.file content) := by rw [htarget, hfile]
  obtain ⟨found, hfind, hnot⟩ := find_reached hproper hne hway (by rw [hthere]; exact fun he => (by cases he))
  cases found with
  | directory q => exact absurd rfl (hnot q)
  | file q old =>
      obtain ⟨rfl, -⟩ := leads_find hfind
      exact ⟨_, old, hfind, (congrArg _ htarget).trans (hchange name)⟩
  | absent q =>
      obtain ⟨rfl, -, hnone, -⟩ := leads_find hfind
      cases hthere.symm.trans hnone

end Filing

end RouteScaffold
