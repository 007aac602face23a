import RouteScaffold.Proofs.Segments

/-!
# Joined paths

A relative path joined to a base adds its pieces to those of the base (`Path.pieces_join`), whatever stands at the end
of the base. So a path that stays below its base does so in every spelling:

* `Path.below?_eq_some_iff`: a path is below a base exactly if it is relative and goes up nowhere;
* `Path.solid_of_below`: then its names are visited behind the components of the base.
-/

namespace RouteScaffold.Path

/-! ## 1. Pieces -/

/-- What stands in front of a relative path that is joined to a base: nothing, or the base up to a `/`. -/
theorem toList_join {path : String} (h : isAbsolute path = false) (base : String) :
    (base = "" ∧ join base path = path) ∨
      ∃ front, (base.toList = front ∨ base.toList = front ++ ['/']) ∧ base ≠ "" ∧
        (join base path).toList = front ++ '/' :: path.toList := by
  rw [join, h]
  simp only [Bool.false_eq_true, if_false]
  by_cases hempty : base.isEmpty = true
  · rw [hempty, Bool.true_or, if_pos rfl, String.isEmpty_iff.mp hempty, String.empty_append]
    exact .inl ⟨rfl, rfl⟩
  have hne : base ≠ "" := fun he => hempty (String.isEmpty_iff.mpr he)
  rw [Bool.eq_false_iff.mpr hempty, Bool.false_or]
  by_cases hslash : base.endsWith "/" = true
  · have hsuffix : ['/'] <:+ base.toList := by
      rw [String.endsWith_eq_endsWith_toSlice, String.Slice.endsWith_string_iff, String.copy_toSlice] at hslash
      exact hslash
    obtain ⟨front, hfront⟩ := hsuffix
    refine .inr ⟨front, .inr hfront.symm, hne, ?_⟩
    rw [if_pos hslash, String.toList_append, ← hfront, List.append_assoc, List.singleton_append]
  · refine .inr ⟨base.toList, .inl rfl, hne, ?_⟩
    rw [if_neg hslash, String.toList_append, String.toList_append, List.append_assoc]
    rfl

/-- **A relative path joined to a base adds its pieces**; the piece behind a `/` at the end of the base is empty. -/
theorem pieces_join {path : String} (h : isAbsolute path = false) (base : String) : ∃ front,
    (pieces base.toList = front ∨ pieces base.toList = front ++ [[]]) ∧
      pieces (join base path).toList = front ++ pieces path.toList := by
  rcases toList_join h base with ⟨rfl, hjoin⟩ | ⟨front, hbase, -, hjoin⟩
  · exact ⟨[], .inr rfl, by rw [hjoin, List.nil_append]⟩
  · rw [hjoin, pieces_slash]
    refine ⟨pieces front, ?_, rfl⟩
    rcases hbase with hbase | hbase
    · exact .inl (by rw [hbase])
    · exact .inr (by rw [hbase, pieces_slash]; rfl)

theorem join_ne_empty {base path : String} (h : isAbsolute path = false) (hne : base ≠ "" ∨ path ≠ "") :
    join base path ≠ "" := by
  rcases toList_join h base with ⟨rfl, hjoin⟩ | ⟨front, -, -, hjoin⟩
  · rw [hjoin]
    exact hne.resolve_left fun hbase => hbase rfl
  · intro he
    rw [he] at hjoin
    exact List.append_ne_nil_of_right_ne_nil _ (List.cons_ne_nil _ _) hjoin.symm

theorem isAbsolute_join {path : String} (h : isAbsolute path = false) (base : String) :
    isAbsolute (join base path) = isAbsolute base := by
  rcases toList_join h base with ⟨rfl, hjoin⟩ | ⟨front, hbase, hne, hjoin⟩
  · rw [hjoin, h]
    rfl
  · have hbase' : base.toList ≠ [] := fun he => hne (String.toList_eq_nil_iff.mp he)
    rw [isAbsolute, isAbsolute, hjoin]
    cases front with
    | nil =>
        rcases hbase with hbase | hbase
        · exact absurd hbase hbase'
        · rw [hbase]
          rfl
    | cons c rest =>
        rcases hbase with hbase | hbase
        · rw [hbase]
          rfl
        · rw [hbase]
          rfl

/-! ## 2. Components -/

/-- The components of a path but for those that stay where they are. -/
def solid (path : String) : List Component := (components path).filter (· ≠ .current)

/-- Is the component a name? -/
def Component.isName : Component → Bool
  | .normal _ => true
  | _ => false

theorem component?_ne {piece : List Char} {c : Component} (h : component? piece = some c) :
    c = .parent ∨ c.isName = true := by
  unfold component? at h
  split at h
  · cases h
  split at h
  · exact .inl (Option.some_inj.mp h).symm
  · rw [← Option.some_inj.mp h]
    exact .inr rfl

/-- The components that pieces add are steps up and names. -/
theorem mem_filterMap_component? {parts : List (List Char)} {c : Component} (h : c ∈ parts.filterMap component?) :
    c = .parent ∨ c.isName = true := by
  obtain ⟨piece, -, hc⟩ := List.mem_filterMap.mp h
  exact component?_ne hc

theorem solid_eq (path : String) : solid path =
    (if isAbsolute path then [.root] else []) ++ (pieces path.toList).filterMap component? := by
  have hparts : ((pieces path.toList).filterMap component?).filter (· ≠ .current) =
      (pieces path.toList).filterMap component? := by
    refine List.filter_eq_self.mpr fun c hc => ?_
    rcases mem_filterMap_component? hc with rfl | hname
    · rfl
    · refine decide_eq_true fun he => ?_
      rw [he] at hname
      cases hname
  unfold solid components
  dsimp only
  rw [List.filter_append, hparts]
  congr 1
  split
  · rfl
  split
  · rfl
  · rfl

/-- The components of a joined path are those of the base and those that the pieces of the path add. -/
theorem solid_join {path : String} (h : isAbsolute path = false) (base : String) :
    solid (join base path) = solid base ++ solid path := by
  obtain ⟨front, hbase, hjoin⟩ := pieces_join h base
  have hpieces : (pieces base.toList).filterMap component? = front.filterMap component? := by
    rcases hbase with hbase | hbase
    · rw [hbase]
    · rw [hbase, List.filterMap_append]
      exact List.append_nil _
  rw [solid_eq, solid_eq, solid_eq, isAbsolute_join h, hjoin, List.filterMap_append, hpieces, h, List.append_assoc]
  rfl

/-! ## 3. Paths below a base -/

/-- **A path is below a base exactly if it is relative and has no step up.** -/
theorem below?_eq_some_iff {base path joined : String} : below? base path = some joined ↔
    (isAbsolute path = false ∧ .parent ∉ components path) ∧ joined = join base path := by
  unfold below?
  cases hp : (isAbsolute path || (components path).contains .parent) with
  | true =>
      rw [if_pos rfl]
      refine ⟨fun h => (by cases h), fun ⟨⟨habsolute, hparent⟩, _⟩ => ?_⟩
      rw [habsolute, Bool.false_or, List.contains_iff_mem] at hp
      exact absurd hp hparent
  | false =>
      rw [Bool.or_eq_false_iff] at hp
      rw [if_neg Bool.false_ne_true, Option.some_inj, eq_comm]
      refine ⟨fun h => ⟨⟨hp.1, fun hm => ?_⟩, h⟩, fun h => h.2⟩
      rw [List.contains_iff_mem.mpr hm] at hp
      cases hp.2

/-- Without root and steps up a path has names only, but for a `.` at its front. -/
theorem solid_of_relative {path : String} (h : isAbsolute path = false) (hp : .parent ∉ components path) :
    solid path = (components path).filter Component.isName := by
  refine List.filter_congr fun c hc => ?_
  have hsolid : c ≠ .current → c ∈ solid path := fun hne => List.mem_filter.mpr ⟨hc, decide_eq_true hne⟩
  by_cases hcurrent : c = .current
  · rw [hcurrent]
    rfl
  · rw [decide_eq_true hcurrent]
    rw [solid_eq, h] at hsolid
    rcases mem_filterMap_component? (hsolid hcurrent) with rfl | hname
    · exact absurd hc hp
    · exact hname.symm

/-- **Below a base a path visits its names behind the components of the base.** -/
theorem solid_of_below {base path joined : String} (h : below? base path = some joined) :
    solid joined = solid base ++ (components path).filter Component.isName := by
  obtain ⟨⟨habsolute, hparent⟩, rfl⟩ := below?_eq_some_iff.mp h
  rw [solid_join habsolute, solid_of_relative habsolute hparent]

end RouteScaffold.Path
