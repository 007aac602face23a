import Mathlib.Data.String.Basic

/-!
# Lists in one text

A list that is written with a comma and a space between its elements is had back by splitting the text there, if no
element has a comma (`splitOn_intercalate`). Splitting goes through the text by positions of bytes; the lemmas ahead of
the theorem say what it does where the text is `l ++ m ++ r`: it has cut off what `l` holds, and has read `m` of
the part at which it is.
-/

namespace RouteScaffold.Splitting

open String

/-! ## 1. One character -/

section Look

variable (front : List Char) (c : Char) (r : List Char)

theorem get_at : Pos.Raw.get (ofList (front ++ c :: r)) ⟨utf8Len front⟩ = c := get_of_valid front (c :: r)

theorem next_at : Pos.Raw.next (ofList (front ++ c :: r)) ⟨utf8Len front⟩ = ⟨utf8Len (front ++ [c])⟩ := by
  rw [next_of_valid, utf8Len_append, utf8Len_cons, utf8Len_nil, Nat.zero_add]

theorem not_atEnd_at : ¬ Pos.Raw.atEnd (ofList (front ++ c :: r)) ⟨utf8Len front⟩ = true := by
  have hc := c.utf8Size_pos
  rw [atEnd_iff, rawEndPos_ofList, Pos.Raw.mk_le_mk, utf8Len_append, utf8Len_cons]
  omega

end Look

/-! ## 2. One part -/

section Parts

variable (b : Pos.Raw) (parts : List String)

/-- A character that is no comma belongs to the part. -/
theorem splitOnAux_other (front r : List Char) {c : Char} (hc : c ≠ ',') :
    splitOnAux (ofList (front ++ c :: r)) ", " b ⟨utf8Len front⟩ 0 parts =
      splitOnAux (ofList (front ++ c :: r)) ", " b ⟨utf8Len (front ++ [c])⟩ 0 parts := by
  have hget : Pos.Raw.get ", " 0 = ',' := by decide
  have hback : Pos.Raw.unoffsetBy ⟨utf8Len front⟩ 0 = ⟨utf8Len front⟩ := rfl
  rw [splitOnAux, if_neg (not_atEnd_at front c r), get_at, hget, if_neg (by simpa using hc), hback, next_at]

/-- **A text without a comma belongs to the part.** -/
theorem splitOnAux_part (l m r : List Char) {text : List Char} (h : ',' ∉ text) :
    splitOnAux (ofList (l ++ m ++ text ++ r)) ", " b ⟨utf8Len (l ++ m)⟩ 0 parts =
      splitOnAux (ofList (l ++ m ++ text ++ r)) ", " b ⟨utf8Len (l ++ m ++ text)⟩ 0 parts := by
  induction text generalizing m with
  | nil => simp
  | cons c rest ih =>
      have hc : c ≠ ',' := fun e => h (by simp [e])
      have hrest : ',' ∉ rest := fun hm => h (List.mem_cons_of_mem _ hm)
      have hstep := splitOnAux_other b parts (l ++ m) (rest ++ r) hc
      have hmore := ih (m ++ [c]) hrest
      simp only [List.append_assoc, List.cons_append, List.nil_append] at hstep hmore ⊢
      rw [hstep, hmore]

/-- **At a comma and a space the part ends.** -/
theorem splitOnAux_comma (l m r : List Char) :
    splitOnAux (ofList (l ++ m ++ ',' :: ' ' :: r)) ", " ⟨utf8Len l⟩ ⟨utf8Len (l ++ m)⟩ 0 parts =
      splitOnAux (ofList (l ++ m ++ ',' :: ' ' :: r)) ", " ⟨utf8Len (l ++ m ++ [',', ' '])⟩
        ⟨utf8Len (l ++ m ++ [',', ' '])⟩ 0 (ofList m :: parts) := by
  have hget : Pos.Raw.get ", " 0 = ',' := by decide
  have hget' : Pos.Raw.get ", " ⟨1⟩ = ' ' := by decide
  have hnext : Pos.Raw.next ", " 0 = ⟨1⟩ := by decide
  have hnext' : Pos.Raw.next ", " ⟨1⟩ = ⟨2⟩ := by decide
  have hend : ¬ Pos.Raw.atEnd ", " ⟨1⟩ = true := by decide
  have hend' : Pos.Raw.atEnd ", " ⟨2⟩ = true := by decide
  have htext : l ++ m ++ ',' :: ' ' :: r = (l ++ m ++ [',']) ++ ' ' :: r := by simp
  have hcut : Pos.Raw.unoffsetBy ⟨utf8Len (l ++ m ++ [','] ++ [' '])⟩ ⟨2⟩ = ⟨utf8Len l + utf8Len m⟩ := by
    have hcomma : Char.utf8Size ',' = 1 := by decide
    have hspace : Char.utf8Size ' ' = 1 := by decide
    simp only [Pos.Raw.unoffsetBy, utf8Len_append, utf8Len_cons, utf8Len_nil, hcomma, hspace]
    exact congrArg Pos.Raw.mk (by omega)
  -- The comma is read first, and with the space what stands between two elements is complete.
  rw [splitOnAux, if_neg (not_atEnd_at _ _ _), get_at, hget, if_pos (beq_self_eq_true _), hnext, if_neg hend, next_at,
    htext, splitOnAux, if_neg (not_atEnd_at _ _ _), get_at, hget', if_pos (beq_self_eq_true _), hnext', if_pos hend',
    next_at, hcut, ← htext, extract_of_valid l m, List.append_assoc (l ++ m) [','] [' ']]
  rfl

/-- At the end of the text the last part does. -/
theorem splitOnAux_end (l m : List Char) :
    splitOnAux (ofList (l ++ m)) ", " ⟨utf8Len l⟩ ⟨utf8Len (l ++ m)⟩ 0 parts = parts.reverse ++ [ofList m] := by
  have hend : Pos.Raw.atEnd (ofList (l ++ m)) ⟨utf8Len (l ++ m)⟩ = true := by
    rw [atEnd_iff, rawEndPos_ofList, Pos.Raw.mk_le_mk]
  have hextract := extract_of_valid l m []
  rw [List.append_nil] at hextract
  rw [splitOnAux, if_pos hend, utf8Len_append, hextract, List.reverse_cons]

end Parts

/-! ## 3. The list -/

/-- The characters behind the first element of a list. -/
def behind (elements : List String) : List Char := elements.flatMap fun element => ',' :: ' ' :: element.toList

theorem behind_cons (first : String) (rest : List String) :
    behind (first :: rest) = ',' :: ' ' :: (first.toList ++ behind rest) := List.flatMap_cons

theorem toList_intercalate_cons (first : String) (rest : List String) :
    (", ".intercalate (first :: rest)).toList = first.toList ++ behind rest := by
  induction rest generalizing first with
  | nil => simp [behind]
  | cons next rest ih =>
      rw [intercalate_cons_cons, toList_append, toList_append, ih next, behind_cons, List.append_assoc]
      rfl

theorem splitOnAux_elements (l : List Char) (parts : List String) (first : String) (rest : List String)
    (h : ∀ element ∈ first :: rest, ',' ∉ element.toList) :
    splitOnAux (ofList (l ++ (first.toList ++ behind rest))) ", " ⟨utf8Len l⟩ ⟨utf8Len l⟩ 0 parts =
      parts.reverse ++ first :: rest := by
  induction rest generalizing l parts first with
  | nil =>
      have hpart := splitOnAux_part ⟨utf8Len l⟩ parts l [] [] (h first List.mem_cons_self)
      have hend := splitOnAux_end parts l first.toList
      simp only [List.append_nil, ofList_toList] at hpart hend
      rw [behind, List.flatMap_nil, List.append_nil, hpart, hend]
  | cons next rest ih =>
      rw [List.forall_mem_cons] at h
      have hpart := splitOnAux_part ⟨utf8Len l⟩ parts l [] (behind (next :: rest)) h.1
      have hcomma := splitOnAux_comma parts l first.toList (next.toList ++ behind rest)
      have hmore := ih (l ++ first.toList ++ [',', ' ']) (first :: parts) next h.2
      simp only [behind_cons, List.append_nil, List.append_assoc, List.cons_append, List.nil_append, ofList_toList,
        List.reverse_cons] at hpart hcomma hmore ⊢
      rw [hpart, hcomma, hmore]

/-- **A list is had back from its text.** -/
theorem splitOn_intercalate {elements : List String} (hne : elements ≠ [])
    (h : ∀ element ∈ elements, ',' ∉ element.toList) : (", ".intercalate elements).splitOn ", " = elements := by
  obtain ⟨first, rest, rfl⟩ := List.exists_cons_of_ne_nil hne
  have hall := splitOnAux_elements [] [] first rest h
  rw [List.nil_append, ← toList_intercalate_cons, ofList_toList] at hall
  rw [splitOn, if_neg (by decide)]
  exact hall

end RouteScaffold.Splitting
