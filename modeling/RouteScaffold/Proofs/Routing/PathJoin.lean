import Mathlib.Data.List.Chain
import RouteScaffold.Routing.RouteTable

/-!
# Joining paths

`joinPath` keeps a slash that both sides of the seam have once. All that it does is done to the parent, which loses its
last slash where the segment begins with one (`trimmed`), so that a path is read off the texts that are left of its
segments.

* `joinPath_assoc`, `empty_joinPath`, `joinPath_empty`: paths are a monoid, although a segment that is nothing but a
  slash has a seam on both sides;
* `Grouping.path_eq`: so segments give one path, however they are grouped;
* `not_doubled_joinPath`, `foldl_joinPath`: no two slashes come together at a seam, and where no segment ends with one a
  path is its segments side by side.
-/

namespace RouteScaffold

/-! ## 1. What is left of a parent -/

/-- What is left of a parent ahead of a segment. -/
def trimmed (parent segment : List Char) : List Char :=
  if parent.getLast? = some '/' ∧ segment.head? = some '/' then parent.dropLast else parent

theorem toList_joinPath (parent segment : String) : (joinPath parent segment).toList =
    trimmed parent.toList segment.toList ++ segment.toList := by
  unfold joinPath trimmed
  split
  · rw [String.toList_ofList]
  · rw [String.toList_append]

theorem trimmed_nil (parent : List Char) : trimmed parent [] = parent := if_neg fun h => nomatch h.2

theorem nil_trimmed (segment : List Char) : trimmed [] segment = [] := if_neg fun h => nomatch h.1

/-- Only the first character of the segment counts. -/
theorem trimmed_congr {segment other : List Char} (h : segment.head? = other.head?) (parent : List Char) :
    trimmed parent segment = trimmed parent other := by
  rw [trimmed, trimmed, h]

/-- Of two texts side by side the second one is trimmed, unless it is empty. -/
theorem trimmed_append (ahead : List Char) {parent : List Char} (h : parent ≠ []) (segment : List Char) :
    trimmed (ahead ++ parent) segment = ahead ++ trimmed parent segment := by
  unfold trimmed
  rw [List.getLast?_append_of_ne_nil ahead h, List.dropLast_append_of_ne_nil h]
  split <;> rfl

/-- **Joining does not change how a path begins**: if all of it is trimmed away, the segment begins with the same
    slash. -/
theorem head?_trimmed_append {parent : List Char} (h : parent ≠ []) (segment : List Char) :
    (trimmed parent segment ++ segment).head? = parent.head? := by
  unfold trimmed
  split
  · next hslash =>
    obtain ⟨hlast, hfirst⟩ := hslash
    match parent with
    | [c] =>
        cases hlast
        exact hfirst
    | c :: d :: rest => rfl
  · exact List.head?_append_of_ne_nil _ h

/-! ## 2. Paths as a monoid -/

@[simp] theorem empty_joinPath (segment : String) : joinPath "" segment = segment := by
  rw [← String.toList_inj, toList_joinPath]
  exact congrArg (· ++ segment.toList) (nil_trimmed segment.toList)

@[simp] theorem joinPath_empty (parent : String) : joinPath parent "" = parent := by
  rw [← String.toList_inj, toList_joinPath]
  exact (List.append_nil _).trans (trimmed_nil parent.toList)

/-- **Joining is associative.** -/
theorem joinPath_assoc (a b c : String) : joinPath (joinPath a b) c = joinPath a (joinPath b c) := by
  by_cases hb : b.toList = []
  · obtain rfl : b = "" := String.toList_inj.mp hb
    rw [joinPath_empty, empty_joinPath]
  · -- The segment in the middle begins as it did, and what it loses at its end the path up to it loses.
    have hbegin : (joinPath b c).toList.head? = b.toList.head? := by
      rw [toList_joinPath]
      exact head?_trimmed_append hb c.toList
    rw [← String.toList_inj, toList_joinPath, toList_joinPath a b, toList_joinPath a (joinPath b c),
      trimmed_append _ hb, trimmed_congr hbegin, toList_joinPath b c, List.append_assoc]

/-- A way to put segments together, two at a time. -/
inductive Grouping where
  | segment (s : String)
  | join (left right : Grouping)

namespace Grouping

/-- The segments in order. -/
def segments : Grouping → List String
  | .segment s => [s]
  | .join left right => left.segments ++ right.segments

/-- The path that is put together. -/
def path : Grouping → String
  | .segment s => s
  | .join left right => joinPath left.path right.path

/-- What a path is joined to is joined to its segments one after the other. -/
theorem foldl_segments (g : Grouping) (parent : String) :
    g.segments.foldl joinPath parent = joinPath parent g.path := by
  induction g generalizing parent with
  | segment s => rfl
  | join left right ihl ihr => rw [segments, List.foldl_append, ihl, ihr, path, joinPath_assoc]

/-- **Segments give one path, however they are grouped.** -/
theorem path_eq {g : Grouping} {first : String} {more : List String} (h : g.segments = first :: more) :
    g.path = more.foldl joinPath first := by
  have hfold := foldl_segments g ""
  rw [h, List.foldl_cons, empty_joinPath, empty_joinPath] at hfold
  exact hfold.symm

end Grouping

/-! ## 3. Slashes -/

/-- The text has two slashes side by side. -/
def Doubled (text : String) : Prop := ['/', '/'] <:+: text.toList

/-- The text is empty, or begins with a slash and does not end with one. -/
def Rooted (text : String) : Prop :=
  text = "" ∨ text.toList.head? = some '/' ∧ text.toList.getLast? ≠ some '/'

instance (text : String) : Decidable (Doubled text) := inferInstanceAs (Decidable (_ <:+: _))

instance (text : String) : Decidable (Rooted text) := inferInstanceAs (Decidable (_ ∨ _))

/-- No two slashes are side by side if no two neighbours are slashes. -/
theorem not_doubled_iff (text : String) :
    ¬Doubled text ↔ text.toList.IsChain fun c d => ¬(c = '/' ∧ d = '/') := by
  rw [List.isChain_iff_forall_rel_of_append_cons_cons]
  constructor
  · rintro h c d front back htext ⟨rfl, rfl⟩
    exact h ⟨front, back, by rw [htext, List.append_assoc]; rfl⟩
  · rintro h ⟨front, back, htext⟩
    have htext : text.toList = front ++ '/' :: '/' :: back := by
      rw [← htext, List.append_assoc]
      rfl
    exact h htext ⟨rfl, rfl⟩

/-- **No two slashes come together at a seam.** -/
theorem not_doubled_joinPath {parent segment : String} (hp : ¬Doubled parent) (hs : ¬Doubled segment) :
    ¬Doubled (joinPath parent segment) := by
  rw [not_doubled_iff] at hp hs ⊢
  rw [toList_joinPath, List.isChain_append]
  unfold trimmed
  split
  · next hslash =>
    obtain ⟨hlast, -⟩ := hslash
    have hsplit := List.dropLast_append_getLast? _ hlast
    rw [← hsplit, List.isChain_append] at hp
    obtain ⟨hfront, -, hseam⟩ := hp
    refine ⟨hfront, hs, fun c hc d _ hslashes => ?_⟩
    exact hseam c hc '/' rfl ⟨hslashes.1, rfl⟩
  · next hnone =>
    refine ⟨hp, hs, fun c hc d hd hslashes => hnone ?_⟩
    obtain ⟨rfl, rfl⟩ := hslashes
    exact ⟨hc, hd⟩

theorem not_doubled_foldl {parent : String} (hp : ¬Doubled parent) {segments : List String}
    (hs : ∀ s ∈ segments, ¬Doubled s) : ¬Doubled (segments.foldl joinPath parent) := by
  induction segments generalizing parent with
  | nil => exact hp
  | cons s rest ih =>
      rw [List.forall_mem_cons] at hs
      exact ih (not_doubled_joinPath hp hs.1) hs.2

theorem Rooted.not_ends {text : String} (h : Rooted text) : text.toList.getLast? ≠ some '/' := by
  rcases h with rfl | ⟨-, h⟩
  · exact nofun
  · exact h

theorem not_ends_append {front back : String} (hf : front.toList.getLast? ≠ some '/')
    (hb : back.toList.getLast? ≠ some '/') : (front ++ back).toList.getLast? ≠ some '/' := by
  rw [String.toList_append]
  by_cases h : back.toList = []
  · rwa [h, List.append_nil]
  · rwa [List.getLast?_append_of_ne_nil _ h]

/-- **Where nothing ends with a slash, a path is its segments side by side.** -/
theorem foldl_joinPath {parent : String} (hp : parent.toList.getLast? ≠ some '/') {segments : List String}
    (hs : ∀ s ∈ segments, s.toList.getLast? ≠ some '/') :
    segments.foldl joinPath parent = String.join (parent :: segments) := by
  induction segments generalizing parent with
  | nil => rw [List.foldl_nil, String.join_cons, String.join_nil, String.append_empty]
  | cons s rest ih =>
      rw [List.forall_mem_cons] at hs
      have hjoin : joinPath parent s = parent ++ s := if_neg fun h => hp h.1
      rw [List.foldl_cons, hjoin, ih (not_ends_append hp hs.1) hs.2, String.join_cons, String.join_cons,
        String.join_cons, String.append_assoc]

end RouteScaffold
