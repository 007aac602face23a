import RouteScaffold.Proofs.Segments

/-!
# Parents of paths

A path is what its front and its pieces are put together to (`ofBody_body`), so that the parent of a name in a directory
is the directory, spelled as in the path (`parent?_names`), whatever stands in front.
-/

namespace RouteScaffold.Path

/-! ## 1. Pieces put together again -/

theorem toList_intercalate_pieces (parts : List (List Char)) :
    ("/".intercalate (parts.map String.ofList)).toList = ['/'].intercalate parts := by
  have htexts : (parts.map String.ofList).map String.toList = parts := by
    rw [List.map_map]
    exact List.map_id'' (fun _ => String.toList_ofList) parts
  rw [String.toList_intercalate, htexts]
  rfl

theorem ofBody_root (parts : List (List Char)) :
    (ofBody "/" parts).toList = '/' :: ['/'].intercalate parts := by
  rw [ofBody, if_neg fun h => absurd h.1 (by decide), String.toList_append, toList_intercalate_pieces]
  rfl

theorem ofBody_dot (parts : List (List Char)) :
    (ofBody "." parts).toList = ['/'].intercalate (['.'] :: parts) := by
  cases parts with
  | nil => rfl
  | cons next more =>
      rw [ofBody, if_pos ⟨rfl, List.cons_ne_nil _ _⟩, String.toList_append, toList_intercalate_pieces]
      rfl

theorem ofBody_plain (parts : List (List Char)) : (ofBody "" parts).toList = ['/'].intercalate parts := by
  rw [ofBody, if_neg fun h => absurd h.1 (by decide), String.toList_append, toList_intercalate_pieces]
  rfl

/-- **A path is what its front and its pieces are put together to.** -/
theorem ofBody_body (path : String) : ofBody (body path).1 (body path).2 = path := by
  have htext := intercalate_pieces path.toList
  rw [← String.toList_inj]
  unfold body
  cases hp : pieces path.toList with
  | nil => exact absurd hp (pieces_ne_nil _)
  | cons first rest =>
      rw [hp] at htext
      by_cases habs : isAbsolute path = true
      · obtain ⟨t, ht⟩ := List.head?_eq_some_iff.mp (beq_iff_eq.mp habs)
        rw [ht, pieces, if_pos rfl] at hp
        cases hp
        simp only [if_pos habs]
        rw [ofBody_root, intercalate_pieces, ht]
      · by_cases hdot : first = ['.']
        · simp only [if_neg habs, if_pos hdot]
          rw [ofBody_dot, ← htext, hdot]
        · simp only [if_neg habs, if_neg hdot]
          rw [ofBody_plain, htext]

/-! ## 2. Names behind a front -/

/-- What comes behind a `/` are pieces of their own. -/
theorem body_slash (front : String) : ∃ lead parts, ∀ back : String,
    body (front ++ "/" ++ back) = (lead, parts ++ pieces back.toList) := by
  have hlist : ∀ back : String, (front ++ "/" ++ back).toList = front.toList ++ '/' :: back.toList := by
    intro back
    rw [String.toList_append, String.toList_append, List.append_assoc]
    rfl
  have habs : ∀ back : String, isAbsolute (front ++ "/" ++ back) = (front.toList.head?.getD '/' == '/') := by
    intro back
    rw [isAbsolute, hlist]
    cases front.toList with
    | nil => rfl
    | cons c rest => simp
  cases hp : pieces front.toList with
  | nil => exact absurd hp (pieces_ne_nil _)
  | cons first rest =>
      have hbody : ∀ back : String, body (front ++ "/" ++ back) =
          if front.toList.head?.getD '/' == '/' then ("/", rest ++ pieces back.toList)
          else if first = ['.'] then (".", rest ++ pieces back.toList)
          else ("", first :: rest ++ pieces back.toList) := by
        intro back
        rw [body, hlist, pieces_slash, hp, habs, List.cons_append]
      by_cases h : (front.toList.head?.getD '/' == '/') = true
      · exact ⟨"/", rest, fun back => (hbody back).trans (if_pos h)⟩
      · by_cases hdot : first = ['.']
        · exact ⟨".", rest, fun back => (hbody back).trans ((if_neg h).trans (if_pos hdot))⟩
        · exact ⟨"", first :: rest, fun back => (hbody back).trans ((if_neg h).trans (if_neg hdot))⟩

/-- A name other than `.` is a step of its own. -/
theorem trimPieces_name (parts : List (List Char)) {name : String} (h : IsName name) (hd : name ≠ ".") :
    trimPieces (parts ++ [name.toList]) = parts ++ [name.toList] := by
  have hdot : name.toList ≠ ['.'] := fun e => hd (String.toList_inj.mp (e.trans rfl))
  have hstep : ¬ (component? name.toList).isNone = true := by
    rw [component?, if_neg fun e => e.elim h.ne_nil hdot]
    split
    · exact Bool.false_ne_true
    · exact Bool.false_ne_true
  rw [trimPieces, List.reverse_append, List.reverse_singleton, List.singleton_append, List.dropWhile_cons,
    if_neg hstep, List.reverse_cons, List.reverse_reverse]

theorem parent?_eq {path lead : String} {parts : List (List Char)} (h : body path = (lead, parts))
    (hne : trimPieces parts ≠ []) : parent? path = some (ofBody lead (trimPieces (trimPieces parts).dropLast)) := by
  simp only [parent?, h]

/-- **The parent of a name in a directory is the directory**, spelled as in the path. -/
theorem parent?_names (front : String) {directory name : String} (hd : IsName directory) (hd' : directory ≠ ".")
    (hn : IsName name) (hn' : name ≠ ".") :
    parent? (front ++ "/" ++ (directory ++ "/" ++ name)) = some (front ++ "/" ++ directory) := by
  obtain ⟨lead, parts, hbody⟩ := body_slash front
  have hslash : (directory ++ "/" ++ name).toList = directory.toList ++ '/' :: name.toList := by
    rw [String.toList_append, String.toList_append, List.append_assoc]
    rfl
  have hpieces :
      parts ++ pieces (directory ++ "/" ++ name).toList = (parts ++ [directory.toList]) ++ [name.toList] := by
    rw [hslash, pieces_slash, pieces_single hd.slash, pieces_single hn.slash, List.append_assoc]
  have htrim := trimPieces_name (parts ++ [directory.toList]) hn hn'
  have hparent := ofBody_body (front ++ "/" ++ directory)
  rw [hbody, pieces_single hd.slash] at hparent
  have hpath := hbody (directory ++ "/" ++ name)
  rw [hpieces] at hpath
  rw [parent?_eq hpath (by rw [htrim]; exact List.append_ne_nil_of_right_ne_nil _ (List.cons_ne_nil _ _)), htrim,
    List.dropLast_concat, trimPieces_name _ hd hd', hparent]

/-! ## 3. Joined names -/

/-- The path has a beginning, and this is not the root. -/
def IsRelative (path : String) : Prop := ∃ c rest, path.toList = c :: rest ∧ c ≠ '/'

theorem IsName.isRelative {name : String} (h : IsName name) : IsRelative name := by
  cases hl : name.toList with
  | nil => exact absurd hl h.ne_nil
  | cons c rest => exact ⟨c, rest, hl, fun e => h.slash (by rw [hl, e]; exact List.mem_cons_self)⟩

theorem IsRelative.append {path : String} (h : IsRelative path) (back : String) : IsRelative (path ++ back) := by
  obtain ⟨c, rest, hl, hc⟩ := h
  exact ⟨c, rest ++ back.toList, by rw [String.toList_append, hl]; rfl, hc⟩

theorem isRelative_join {base name : String} (hb : IsBase base) (hr : IsRelative base) (h : IsName name) :
    IsRelative (join base name) := by
  rw [join_name hb h]
  exact (hr.append "/").append name

theorem IsRelative.not_absolute {path : String} (h : IsRelative path) : isAbsolute path = false := by
  obtain ⟨c, rest, hl, hc⟩ := h
  rw [isAbsolute, hl]
  simpa using hc

/-- What comes behind a relative path stays behind it when this is joined to a root. -/
theorem join_append {path : String} (h : IsRelative path) (root back : String) :
    join root (path ++ back) = join root path ++ back := by
  rw [join, join, h.not_absolute, (h.append back).not_absolute]
  simp only [Bool.false_eq_true, if_false]
  split
  · rw [String.append_assoc]
  · rw [← String.append_assoc]

/-- **The parent of a name joined to a directory is the directory**, also seen from a root. -/
theorem parent?_join {front directory name : String} (hb : IsBase front) (hr : IsRelative front)
    (hd : IsName directory) (hd' : directory ≠ ".") (hn : IsName name) (hn' : name ≠ ".") (root : String) :
    parent? (join root (join (join front directory) name)) = some (join root (join front directory)) := by
  have hfile : join (join front directory) name = front ++ ("/" ++ (directory ++ ("/" ++ name))) := by
    rw [join_name (isBase_join hb hd) hn, join_name hb hd]
    simp only [String.append_assoc]
  have hdirectory : join front directory = front ++ ("/" ++ directory) := by
    rw [join_name hb hd, String.append_assoc]
  have hparent := parent?_names (join root front) hd hd' hn hn'
  simp only [String.append_assoc] at hparent
  rw [hfile, hdirectory, join_append hr, join_append hr, hparent]

end RouteScaffold.Path
