import RouteScaffold.Path

/-!
# Segments of a path

The texts between the `/` of a path (`Path.segments`). A name joined to a directory adds one segment
(`segments_join`), so that paths that are put together from names are told apart by their segments.
-/

namespace RouteScaffold.Path

/-- The texts between the `/` of a path. -/
def segments (path : String) : List String := (pieces path.toList).map String.ofList

/-! ## 1. Pieces -/

theorem pieces_ne_nil (s : List Char) : pieces s ≠ [] := by
  cases s with
  | nil => simp [pieces]
  | cons c rest =>
      rw [pieces]
      by_cases h : c = '/'
      · rw [if_pos h]
        exact List.cons_ne_nil _ _
      · rw [if_neg h]
        split
        · exact List.cons_ne_nil _ _
        · exact List.cons_ne_nil _ _

/-- **A `/` parts the pieces of a text.** -/
theorem pieces_slash (a b : List Char) : pieces (a ++ '/' :: b) = pieces a ++ pieces b := by
  induction a with
  | nil =>
      rw [List.nil_append]
      exact if_pos rfl
  | cons c rest ih =>
      rw [List.cons_append, pieces, pieces, ih]
      by_cases h : c = '/'
      · rw [if_pos h, if_pos h, List.cons_append]
      · rw [if_neg h, if_neg h]
        cases hr : pieces rest with
        | nil => exact absurd hr (pieces_ne_nil rest)
        | cons piece more => rfl

theorem pieces_single {s : List Char} (h : '/' ∉ s) : pieces s = [s] := by
  induction s with
  | nil => rfl
  | cons c rest ih =>
      rw [List.mem_cons, not_or] at h
      rw [pieces, if_neg (Ne.symm h.1), ih h.2]

/-- The characters of pieces with a `/` between any two. -/
theorem intercalate_pieces (s : List Char) : ['/'].intercalate (pieces s) = s := by
  induction s with
  | nil => rfl
  | cons c rest ih =>
      rw [pieces]
      by_cases h : c = '/'
      · rw [if_pos h, List.intercalate_cons_of_ne_nil (pieces_ne_nil rest), ih, h]
        rfl
      · rw [if_neg h]
        cases hr : pieces rest with
        | nil => exact absurd hr (pieces_ne_nil rest)
        | cons piece more =>
            rw [hr] at ih
            cases more with
            | nil =>
                rw [List.intercalate_singleton] at ih ⊢
                rw [ih]
            | cons next more =>
                rw [List.intercalate_cons_of_ne_nil (List.cons_ne_nil next more)] at ih ⊢
                rw [List.cons_append, List.cons_append, ih]

/-- No piece holds a `/`. -/
theorem slash_not_mem_pieces {s : List Char} : ∀ piece ∈ pieces s, '/' ∉ piece := by
  induction s with
  | nil =>
      intro piece hp
      rw [List.mem_singleton.mp hp]
      exact List.not_mem_nil
  | cons c rest ih =>
      intro piece hp
      rw [pieces] at hp
      by_cases h : c = '/'
      · rw [if_pos h] at hp
        rcases List.mem_cons.mp hp with rfl | hp
        · exact List.not_mem_nil
        · exact ih piece hp
      · rw [if_neg h] at hp
        cases hr : pieces rest with
        | nil => exact absurd hr (pieces_ne_nil rest)
        | cons first more =>
            rw [hr] at hp ih
            rw [List.forall_mem_cons] at ih
            rcases List.mem_cons.mp hp with rfl | hp
            · rw [List.mem_cons, not_or]
              exact ⟨Ne.symm h, ih.1⟩
            · exact ih.2 piece hp

/-- **What is put together from pieces has these pieces.** -/
theorem pieces_intercalate {parts : List (List Char)} (hne : parts ≠ []) (h : ∀ piece ∈ parts, '/' ∉ piece) :
    pieces (['/'].intercalate parts) = parts := by
  induction parts with
  | nil => exact absurd rfl hne
  | cons first more ih =>
      rw [List.forall_mem_cons] at h
      cases more with
      | nil => rw [List.intercalate_singleton, pieces_single h.1]
      | cons next more =>
          rw [List.intercalate_cons_of_ne_nil (List.cons_ne_nil next more), List.append_assoc, List.singleton_append,
            pieces_slash, pieces_single h.1, ih (List.cons_ne_nil next more) h.2, List.singleton_append]

/-- **What is put together from texts without a `/` has these segments.** -/
theorem segments_intercalate {parts : List String} (hne : parts ≠ []) (h : ∀ part ∈ parts, '/' ∉ part.toList) :
    segments ("/".intercalate parts) = parts := by
  have hslash : ("/").toList = ['/'] := rfl
  have hpieces : pieces (['/'].intercalate (parts.map String.toList)) = parts.map String.toList :=
    pieces_intercalate (fun hn => hne (List.map_eq_nil_iff.mp hn)) (List.forall_mem_map.mpr h)
  rw [segments, String.toList_intercalate, hslash, hpieces, List.map_map]
  exact List.map_id'' (fun _ => String.ofList_toList) _

theorem segments_inj {a b : String} (h : segments a = segments b) : a = b := by
  have hpieces := (List.map_inj_right fun _ _ => String.ofList_inj.mp).mp h
  rw [← String.toList_inj, ← intercalate_pieces a.toList, hpieces, intercalate_pieces]

/-! ## 2. Joining -/

/-- A name that can stand between two `/`. -/
structure IsName (name : String) : Prop where
  ne_nil : name.toList ≠ []
  slash : '/' ∉ name.toList

/-- A path that a name can be put behind with a `/`. -/
def IsBase (path : String) : Prop := ∃ front c, path.toList = front ++ [c] ∧ c ≠ '/'

theorem IsName.append {name back : String} (h : IsName name) (hb : '/' ∉ back.toList) : IsName (name ++ back) := by
  constructor
  · rw [String.toList_append]
    exact fun he => h.ne_nil (List.append_eq_nil_iff.mp he).1
  · rw [String.toList_append, List.mem_append, not_or]
    exact ⟨h.slash, hb⟩

theorem IsName.isBase {name : String} (h : IsName name) : IsBase name := by
  refine ⟨name.toList.dropLast, name.toList.getLast h.ne_nil, (List.dropLast_concat_getLast h.ne_nil).symm, ?_⟩
  intro hc
  exact h.slash (hc ▸ List.getLast_mem h.ne_nil)

theorem segments_name {name : String} (h : IsName name) : segments name = [name] := by
  rw [segments, pieces_single h.slash, List.map_singleton, String.ofList_toList]

/-- A name is joined with a `/`. -/
theorem join_name {base name : String} (hb : IsBase base) (h : IsName name) : join base name = base ++ "/" ++ name := by
  obtain ⟨front, c, hlist, hc⟩ := hb
  have habs : isAbsolute name = false := by
    unfold isAbsolute
    cases hn : name.toList with
    | nil => rfl
    | cons d rest =>
        have hd : d ≠ '/' := fun e => h.slash (by rw [hn, e]; exact List.mem_cons_self)
        simpa using hd
  have hempty : base.isEmpty = false := by
    rw [Bool.eq_false_iff]
    intro he
    rw [String.isEmpty_iff.mp he] at hlist
    exact List.append_ne_nil_of_right_ne_nil front (List.cons_ne_nil c []) hlist.symm
  have hend : base.endsWith "/" = false := by
    rw [Bool.eq_false_iff]
    intro he
    have hsuffix : ['/'] <:+ front ++ [c] := by
      rw [String.endsWith_eq_endsWith_toSlice, String.Slice.endsWith_string_iff, String.copy_toSlice, hlist] at he
      exact he
    obtain ⟨before, hbefore⟩ := hsuffix
    exact hc (List.cons.inj (List.append_inj_right' hbefore rfl)).1.symm
  rw [join, habs, hempty, hend]
  rfl

theorem isBase_join {base name : String} (hb : IsBase base) (h : IsName name) : IsBase (join base name) := by
  obtain ⟨front, c, hlist, hc⟩ := h.isBase
  rw [join_name hb h]
  refine ⟨(base ++ "/").toList ++ front, c, ?_, hc⟩
  rw [String.toList_append, hlist, List.append_assoc]

/-- **A name joined to a directory adds its segment.** -/
theorem segments_join {base name : String} (hb : IsBase base) (h : IsName name) :
    segments (join base name) = segments base ++ [name] := by
  have hslash : ("/").toList = ['/'] := rfl
  rw [join_name hb h, segments, String.toList_append, String.toList_append, hslash, List.append_assoc,
    List.singleton_append, pieces_slash, List.map_append, pieces_single h.slash, List.map_singleton,
    String.ofList_toList]
  rfl

end RouteScaffold.Path
