import Mathlib
import RouteScaffold.Config.Reference
import RouteScaffold.Pattern.Read
import RouteScaffold.Proofs.Outcomes
import RouteScaffold.Proofs.Patterns

/-!
# References in the text of a configuration

`Reference.expand` goes from one reference to the next: it looks for the first one, takes over what is ahead of it and
goes on behind it. What it makes of a text is said here of a scan from left to right instead, which at each place takes
a reference if the text goes on with one, and else one character (`Cut`). The cut depends on the text alone, so that no
value is ever looked at for references.

* `first?_eq_some_iff`: what is found at the front of a text is a reference as it is written;
* `describes_pattern`, `find?_leftmost`: these are the pieces of a text that a pattern describes, and the first one
  found is its leftmost match;
* `exists_cut`, `Cut.unique`: every text is cut in one way;
* `expandChars_eq_ok_iff`, `expandChars_eq_error_iff`: what is made of a text that is cut into parts;
* `expand_scans`: all of this of every text and all variables.
-/

namespace RouteScaffold.Reference

/-! ## 1. How references are written -/

/-- A reference that can be written. -/
structure WellFormed (r : Reference) : Prop where
  named : r.name ≠ []
  name : ∀ c ∈ r.name, c ≠ '}' ∧ c ≠ ':'
  fallback : ∀ value, r.fallback = some value → ∀ c ∈ value, c ≠ '}'

/-- What stands behind the name of a reference. -/
def closing : Option (List Char) → List Char
  | none => ['}']
  | some value => ':' :: '-' :: (value ++ ['}'])

/-- The reference as it is written. -/
def written (r : Reference) : List Char := '$' :: '{' :: (r.name ++ closing r.fallback)

theorem isNamePart_iff (c : Char) : isNamePart c = true ↔ c ≠ '}' ∧ c ≠ ':' := by
  simp [isNamePart]

theorem isFallbackPart_iff (c : Char) : isFallbackPart c = true ↔ c ≠ '}' := by
  simp [isFallbackPart]

/-- Characters up to one that ends them. -/
theorem span_append {p : Char → Bool} {chars : List Char} (h : ∀ c ∈ chars, p c = true) {c : Char} (hc : ¬p c = true)
    (rest : List Char) : (chars ++ c :: rest).takeWhile p = chars ∧ (chars ++ c :: rest).dropWhile p = c :: rest := by
  rw [List.takeWhile_append_of_pos h, List.dropWhile_append_of_pos h, List.takeWhile_cons_of_neg hc,
    List.dropWhile_cons_of_neg hc, List.append_nil]
  exact ⟨rfl, rfl⟩

/-- What does not go on is at its end, or at a character that ends it. -/
theorem eq_of_dropWhile {p : Char → Bool} {text rest : List Char} {c : Char} (h : text.dropWhile p = c :: rest) :
    text = text.takeWhile p ++ c :: rest ∧ ¬p c = true := by
  refine ⟨by rw [← h, List.takeWhile_append_dropWhile], fun hc => ?_⟩
  have hhead := List.head?_dropWhile_not p text
  rw [h, List.head?_cons] at hhead
  exact Bool.false_ne_true (hhead.symm.trans hc)

theorem ending?_eq_some_iff {name text behind : List Char} {r : Reference} :
    ending? name text = some (r, behind) ↔
      r.name = name ∧ (∀ value, r.fallback = some value → ∀ c ∈ value, c ≠ '}') ∧
        text = closing r.fallback ++ behind := by
  constructor
  · intro h
    unfold ending? at h
    split at h
    · cases h
      exact ⟨rfl, nofun, rfl⟩
    · next text =>
      split at h
      · next c rest hdrop =>
        cases h
        obtain ⟨htext, hc⟩ := eq_of_dropWhile hdrop
        rw [isFallbackPart_iff, not_not] at hc
        subst hc
        refine ⟨rfl, ?_, ?_⟩
        · rintro value ⟨⟩ c hm
          exact (isFallbackPart_iff c).mp (List.mem_takeWhile_imp hm)
        · show ':' :: '-' :: text = ':' :: '-' :: (text.takeWhile isFallbackPart ++ ['}'] ++ behind)
          rw [List.append_assoc]
          exact congrArg (':' :: '-' :: ·) htext
      · cases h
    · cases h
  · rintro ⟨rfl, hfallback, rfl⟩
    obtain ⟨name, fallback⟩ := r
    cases fallback with
    | none => rfl
    | some value =>
        have hvalue := fun c hc => (isFallbackPart_iff c).mpr (hfallback value rfl c hc)
        obtain ⟨htake, hdrop⟩ := span_append hvalue (c := '}') (by decide) behind
        show ending? name (':' :: '-' :: (value ++ ['}'] ++ behind)) = _
        rw [List.append_assoc, List.singleton_append, ending?, htake, hdrop]

/-- **What is found at the front of a text is a reference as it is written**, with what stands behind it. -/
theorem first?_eq_some_iff {text behind : List Char} {r : Reference} :
    first? text = some (r, behind) ↔ r.WellFormed ∧ text = r.written ++ behind := by
  constructor
  · intro h
    unfold first? at h
    split at h
    · next text =>
      split at h
      · cases h
      · next hne =>
        obtain ⟨hname, hfallback, hrest⟩ := ending?_eq_some_iff.mp h
        refine ⟨⟨?_, ?_, hfallback⟩, ?_⟩
        · rw [hname]
          simpa using hne
        · rw [hname]
          exact fun c hc => (isNamePart_iff c).mp (List.mem_takeWhile_imp hc)
        · rw [written, hname, List.cons_append, List.cons_append, List.append_assoc, ← hrest,
            List.takeWhile_append_dropWhile]
    · cases h
  · rintro ⟨hw, rfl⟩
    have hname := fun c hc => (isNamePart_iff c).mpr (hw.name c hc)
    -- The name ends at the brace or at the colon.
    obtain ⟨c, more, hclosing, hc⟩ : ∃ c more, closing r.fallback = c :: more ∧ ¬isNamePart c = true := by
      cases r.fallback with
      | none => exact ⟨'}', [], rfl, by decide⟩
      | some value => exact ⟨':', _, rfl, by decide⟩
    obtain ⟨htake, hdrop⟩ := span_append hname hc (more ++ behind)
    have hne : r.name.isEmpty = false := by simpa using hw.named
    show first? ('$' :: '{' :: (r.name ++ closing r.fallback ++ behind)) = _
    rw [List.append_assoc, hclosing, List.cons_append, first?, htake, hdrop, hne, if_neg Bool.false_ne_true]
    refine ending?_eq_some_iff.mpr ⟨rfl, hw.fallback, ?_⟩
    rw [hclosing, List.cons_append]

/-- The text goes on with a reference. -/
def Ahead (text : List Char) : Prop := ∃ (r : Reference) (behind : List Char), r.WellFormed ∧ text = r.written ++ behind

theorem first?_eq_none_iff (text : List Char) : first? text = none ↔ ¬Ahead text := by
  rw [Option.eq_none_iff_forall_ne_some]
  constructor
  · rintro h ⟨r, behind, hw, rfl⟩
    exact h (r, behind) (first?_eq_some_iff.mpr ⟨hw, rfl⟩)
  · rintro h ⟨r, behind⟩ hfirst
    obtain ⟨hw, htext⟩ := first?_eq_some_iff.mp hfirst
    exact h ⟨r, behind, hw, htext⟩

/-! ## 2. The pattern of references -/

section Patterns

open Pattern

/-- The characters of a name. -/
def nameSet : CharSet := .compl (.union (.union .nothing (.range '}' '}')) (.range ':' ':'))

/-- The characters of a fallback. -/
def fallbackSet : CharSet := .compl (.union .nothing (.range '}' '}'))

/-- The part of the pattern that a fallback follows. -/
def fallbackPattern : Pattern :=
  .sequence (.one (.range ':' ':')) <| .sequence (.one (.range '-' '-')) <|
    .sequence (.sequence (.many 0 none (.one fallbackSet)) .empty) .empty

/-- The pattern that references follow. -/
def pattern : Pattern :=
  .sequence (.one (.range '$' '$')) <| .sequence (.one (.range '{' '{')) <|
    .sequence (.sequence (.many 1 none (.one nameSet)) .empty) <|
      .sequence (.many 0 (some 1) fallbackPattern) <| .sequence (.one (.range '}' '}')) .empty

theorem read?_patternText : Pattern.read? patternText = some pattern := by cbv

theorem holds_nameSet (c : Char) : nameSet.holds c = true ↔ c ≠ '}' ∧ c ≠ ':' := by
  show (!((false || (CharSet.range '}' '}').holds c) || (CharSet.range ':' ':').holds c)) = true ↔ _
  rw [Bool.not_eq_true', Bool.or_eq_false_iff, Bool.false_or, ← Bool.not_eq_true, ← Bool.not_eq_true, holds_one,
    holds_one]

theorem holds_fallbackSet (c : Char) : fallbackSet.holds c = true ↔ c ≠ '}' := by
  show (!(false || (CharSet.range '}' '}').holds c)) = true ↔ _
  rw [Bool.not_eq_true', Bool.false_or, ← Bool.not_eq_true, holds_one]

/-- A group is a sequence that ends with nothing. -/
theorem describes_group {p : Pattern} {P : List Char → Prop} (h : p.Describes P) :
    (sequence p .empty).Describes P := by
  refine (describes_sequence h describes_empty).congr fun chars => ?_
  constructor
  · rintro ⟨a, b, ha, rfl, rfl⟩
    rwa [List.append_nil]
  · exact fun hchars => ⟨chars, [], hchars, rfl, (List.append_nil chars).symm⟩

theorem describes_fallbackPattern : fallbackPattern.Describes fun chars =>
    ∃ value : List Char, (∀ c ∈ value, c ≠ '}') ∧ chars = ':' :: '-' :: value := by
  have hvalue := describes_group (describes_group (describes_many_one fallbackSet 0))
  refine (describes_sequence (describes_char ':')
    (describes_sequence (describes_char '-') hvalue)).congr fun chars => ?_
  constructor
  · rintro ⟨_, _, rfl, ⟨_, value, rfl, ⟨-, hall⟩, rfl⟩, rfl⟩
    exact ⟨value, fun c hc => (holds_fallbackSet c).mp (hall c hc), rfl⟩
  · rintro ⟨value, hall, rfl⟩
    exact ⟨_, _, rfl, ⟨_, value, rfl, ⟨Nat.zero_le _, fun c hc => (holds_fallbackSet c).mpr (hall c hc)⟩, rfl⟩, rfl⟩

/-- **References are what the pattern describes.** -/
theorem describes_pattern : pattern.Describes fun chars => ∃ r : Reference, r.WellFormed ∧ chars = r.written := by
  have hname := describes_group (describes_many_one nameSet 1)
  have hclosing := describes_sequence (describes_optional describes_fallbackPattern)
    (describes_group (describes_char '}'))
  refine (describes_sequence (describes_char '$') (describes_sequence (describes_char '{')
    (describes_sequence hname hclosing))).congr fun chars => ?_
  constructor
  · rintro ⟨_, _, rfl, ⟨_, _, rfl, ⟨name, _, ⟨hlength, hall⟩, ⟨back, _, hback, rfl, rfl⟩, rfl⟩, rfl⟩, rfl⟩
    have hnamed : name ≠ [] := List.ne_nil_of_length_pos hlength
    have hchars := fun c hc => (holds_nameSet c).mp (hall c hc)
    rcases hback with rfl | ⟨value, hvalue, rfl⟩
    · exact ⟨⟨name, none⟩, ⟨hnamed, hchars, nofun⟩, rfl⟩
    · refine ⟨⟨name, some value⟩, ⟨hnamed, hchars, ?_⟩, rfl⟩
      rintro _ ⟨⟩
      exact hvalue
  · rintro ⟨⟨name, fallback⟩, hw, rfl⟩
    have hlength : 1 ≤ name.length := List.length_pos_iff.mpr hw.named
    have hchars := fun c hc => (holds_nameSet c).mpr (hw.name c hc)
    cases fallback with
    | none => exact ⟨_, _, rfl, ⟨_, _, rfl, ⟨name, _, ⟨hlength, hchars⟩, ⟨[], _, .inl rfl, rfl, rfl⟩, rfl⟩, rfl⟩, rfl⟩
    | some value =>
        have hback : [':', '-'] ++ value = [] ∨ ∃ value' : List Char, (∀ c ∈ value', c ≠ '}') ∧
            [':', '-'] ++ value = ':' :: '-' :: value' := .inr ⟨value, hw.fallback value rfl, rfl⟩
        exact ⟨_, _, rfl, ⟨_, _, rfl, ⟨name, _, ⟨hlength, hchars⟩, ⟨_, _, hback, rfl, rfl⟩, rfl⟩, rfl⟩, rfl⟩

variable {text ahead behind : List Char} {r : Reference}

theorem mem_ends_pattern {s : Spot} (hs : s ∈ Spot.spots text) (t : Spot) :
    t ∈ pattern.ends [s] ↔ t ∈ Spot.spots text ∧ ∃ r : Reference, r.WellFormed ∧ s.rest = r.written ++ t.rest := by
  rw [describes_pattern.mem_ends hs t]
  refine and_congr_right fun _ => ⟨?_, ?_⟩
  · rintro ⟨_, ⟨r, hw, rfl⟩, hrest⟩
    exact ⟨r, hw, hrest⟩
  · rintro ⟨r, hw, hrest⟩
    exact ⟨_, ⟨r, hw, rfl⟩, hrest⟩

theorem find?_eq_some (h : find? text = some (ahead, r, behind)) :
    r.WellFormed ∧ text = ahead ++ (r.written ++ behind) ∧
      ∀ front rest, text = front ++ rest → Ahead rest → ahead.length ≤ front.length := by
  induction text generalizing ahead with
  | nil => cases h
  | cons c rest ih =>
      rw [find?] at h
      cases hfirst : first? (c :: rest) with
      | some found =>
          rw [hfirst] at h
          cases h
          obtain ⟨hw, htext⟩ := first?_eq_some_iff.mp hfirst
          exact ⟨hw, htext, fun _ _ _ _ => Nat.zero_le _⟩
      | none =>
          rw [hfirst] at h
          obtain ⟨⟨ahead', r', behind'⟩, hfind, heq⟩ := Option.map_eq_some_iff.mp h
          cases heq
          obtain ⟨hw, htext, hleft⟩ := ih hfind
          refine ⟨hw, congrArg (c :: ·) htext, fun front rest' heq hahead => ?_⟩
          cases front with
          | nil => exact absurd (heq ▸ hahead) ((first?_eq_none_iff _).mp hfirst)
          | cons d front => exact Nat.succ_le_succ (hleft front rest' (List.cons.inj heq).2 hahead)

theorem find?_eq_none (h : find? text = none) {front rest : List Char} (htext : text = front ++ rest) :
    ¬Ahead rest := by
  induction text generalizing front with
  | nil =>
      obtain ⟨-, rfl⟩ := List.append_eq_nil_iff.mp htext.symm
      exact (first?_eq_none_iff []).mp rfl
  | cons c more ih =>
      rw [find?] at h
      cases hfirst : first? (c :: more) with
      | some found =>
          rw [hfirst] at h
          cases h
      | none =>
          rw [hfirst] at h
          cases front with
          | nil =>
              rw [List.nil_append] at htext
              exact htext ▸ (first?_eq_none_iff _).mp hfirst
          | cons d front => exact ih (Option.map_eq_none_iff.mp h) (List.cons.inj htext).2

/-- The place at which the reference found begins, and the one at which it ends. -/
theorem spots_of_find? (h : find? text = some (ahead, r, behind)) : ∃ s t, s ∈ Spot.spots text ∧
    s.place = ahead.length ∧ s.rest = r.written ++ behind ∧ t ∈ pattern.ends [s] ∧ t.rest = behind := by
  obtain ⟨hw, htext, -⟩ := find?_eq_some h
  let s : Spot := ⟨ahead.length, ahead.getLast?, r.written ++ behind⟩
  let t : Spot := ⟨(ahead ++ r.written).length, (ahead ++ r.written).getLast?, behind⟩
  have hs : s ∈ Spot.spots text := Spot.mem_spots.mpr ⟨ahead, htext, rfl, rfl⟩
  have ht : t ∈ Spot.spots text :=
    Spot.mem_spots.mpr ⟨ahead ++ r.written, by rw [htext, List.append_assoc], rfl, rfl⟩
  exact ⟨s, t, hs, rfl, rfl, (mem_ends_pattern hs t).mpr ⟨ht, r, hw, rfl⟩, rfl⟩

/-- **What is found is the leftmost match of the pattern.** Where a reference is found, the pattern fits the piece that
    it is written as and no other piece from there on, and it fits nothing that begins further left. Where none is
    found, the pattern fits no piece of the text. -/
theorem find?_leftmost (text : String) : ∃ p, Pattern.read? patternText = some p ∧
    (∀ ahead r behind, find? text.toList = some (ahead, r, behind) →
      ∃ s ∈ Spot.spots text.toList, s.place = ahead.length ∧ s.rest = r.written ++ behind ∧
        (∃ t ∈ p.ends [s], t.rest = behind) ∧ (∀ t ∈ p.ends [s], t.rest = behind) ∧
        ∀ u ∈ Spot.spots text.toList, p.ends [u] ≠ [] → s.place ≤ u.place) ∧
    (find? text.toList = none ↔ p.isIn text = false) := by
  refine ⟨pattern, read?_patternText, fun ahead r behind h => ?_, ?_⟩
  · obtain ⟨hw, htext, hleft⟩ := find?_eq_some h
    obtain ⟨s, t, hs, hplace, hrest, ht, hbehind⟩ := spots_of_find? h
    refine ⟨s, hs, hplace, hrest, ⟨t, ht, hbehind⟩, fun t' ht' => ?_, fun u hu hne => ?_⟩
    · obtain ⟨-, r', hw', hrest'⟩ := (mem_ends_pattern hs t').mp ht'
      have hsame := (first?_eq_some_iff.mpr ⟨hw', hrest'⟩).symm.trans (first?_eq_some_iff.mpr ⟨hw, hrest⟩)
      cases hsame
      rfl
    · obtain ⟨t', ht'⟩ := List.exists_mem_of_ne_nil _ hne
      obtain ⟨-, r', hw', hrest'⟩ := (mem_ends_pattern hu t').mp ht'
      obtain ⟨front, hfront, hfar, -⟩ := Spot.mem_spots.mp hu
      rw [hplace, hfar]
      exact hleft front u.rest hfront ⟨r', _, hw', hrest'⟩
  · rw [isIn_eq_false_iff]
    constructor
    · intro h s hs
      obtain ⟨front, hfront, -⟩ := Spot.mem_spots.mp hs
      refine List.eq_nil_iff_forall_not_mem.mpr fun t ht => ?_
      obtain ⟨-, r, hw, hrest⟩ := (mem_ends_pattern hs t).mp ht
      exact find?_eq_none h hfront ⟨r, _, hw, hrest⟩
    · intro h
      cases hfind : find? text.toList with
      | none => rfl
      | some found =>
          obtain ⟨ahead, r, behind⟩ := found
          obtain ⟨s, t, hs, -, -, ht, -⟩ := spots_of_find? hfind
          exact absurd ht (by rw [h s hs]; exact List.not_mem_nil)

end Patterns

/-! ## 3. Expanding from left to right -/

section Expanding

variable (lookup : String → Option String) {text rest : List Char}

theorem expandChars_of_none (h : find? text = none) : expandChars lookup text = .ok text := by
  unfold expandChars
  split
  · rfl
  · next hfound =>
    rw [h] at hfound
    cases hfound

theorem expandChars_of_some {ahead behind : List Char} {r : Reference} (h : find? text = some (ahead, r, behind)) :
    expandChars lookup text = (do
      let value ← r.value lookup
      let rest ← expandChars lookup behind
      return ahead ++ value ++ rest) := by
  rw [expandChars]
  split
  · next hfound =>
    rw [h] at hfound
    cases hfound
  · next hfound =>
    rw [h] at hfound
    cases hfound
    rfl

/-- **Where no reference is ahead one character is taken over.** -/
theorem expandChars_copied {c : Char} (h : ¬Ahead (c :: rest)) :
    expandChars lookup (c :: rest) = (do
      let rest ← expandChars lookup rest
      return c :: rest) := by
  have hfirst := (first?_eq_none_iff _).mpr h
  have hfind : find? (c :: rest) = (find? rest).map fun found => (c :: found.1, found.2) := by
    rw [find?, hfirst]
  cases hrest : find? rest with
  | none =>
      rw [hrest] at hfind
      rw [expandChars_of_none lookup hfind, expandChars_of_none lookup hrest]
      rfl
  | some found =>
      obtain ⟨ahead, r, behind⟩ := found
      rw [hrest] at hfind
      rw [expandChars_of_some lookup hfind, expandChars_of_some lookup hrest]
      cases r.value lookup with
      | error name => rfl
      | ok value =>
          cases expandChars lookup behind with
          | error name => rfl
          | ok rest => rfl

/-- **Where a reference is ahead its value is taken**, and the text goes on behind it. -/
theorem expandChars_replaced {r : Reference} (hw : r.WellFormed) (rest : List Char) :
    expandChars lookup (r.written ++ rest) = (do
      let value ← r.value lookup
      let rest ← expandChars lookup rest
      return value ++ rest) := by
  have hfirst : first? (r.written ++ rest) = some (r, rest) := first?_eq_some_iff.mpr ⟨hw, rfl⟩
  have hfind : find? (r.written ++ rest) = some ([], r, rest) := by
    rw [written, List.cons_append, find?, ← List.cons_append, ← written, hfirst]
  rw [expandChars_of_some lookup hfind]
  cases r.value lookup with
  | error name => rfl
  | ok value =>
      cases expandChars lookup rest with
      | error name => rfl
      | ok rest => rfl

end Expanding

/-! ## 4. The parts of a text -/

/-- A part of a text. -/
inductive Part where
  | plain (c : Char)
  | reference (r : Reference)
  deriving DecidableEq, Repr

namespace Part

/-- The characters of a part. -/
def chars : Part → List Char
  | plain c => [c]
  | reference r => r.written

/-- What comes to stand for a part: a character for itself, and for a reference the value of the variable, or else its
    fallback. -/
def text? (lookup : String → Option String) : Part → Option (List Char)
  | plain c => some [c]
  | reference r => ((lookup (String.ofList r.name)).map String.toList).or r.fallback

end Part

/-- The text is cut into parts from left to right: into references, and into characters with which none begins. -/
inductive Cut : List Char → List Part → Prop
  | done : Cut [] []
  | copied {c : Char} {rest : List Char} {parts : List Part} (h : ¬Ahead (c :: rest)) (more : Cut rest parts) :
      Cut (c :: rest) (.plain c :: parts)
  | replaced {r : Reference} {rest : List Char} {parts : List Part} (h : r.WellFormed) (more : Cut rest parts) :
      Cut (r.written ++ rest) (.reference r :: parts)

/-- **Every text can be cut into parts**, -/
theorem exists_cut (text : List Char) : ∃ parts, Cut text parts := by
  by_cases hahead : Ahead text
  · obtain ⟨r, rest, hw, rfl⟩ := hahead
    have hlt : rest.length < (r.written ++ rest).length := length_lt_of_first? (first?_eq_some_iff.mpr ⟨hw, rfl⟩)
    obtain ⟨parts, hparts⟩ := exists_cut rest
    exact ⟨_, .replaced hw hparts⟩
  · cases text with
    | nil => exact ⟨[], .done⟩
    | cons c rest =>
        obtain ⟨parts, hparts⟩ := exists_cut rest
        exact ⟨_, .copied hahead hparts⟩
termination_by text.length

namespace Cut

variable {text : List Char} {parts parts' : List Part}

/-- of which it consists, -/
theorem flatMap_chars (h : Cut text parts) : parts.flatMap Part.chars = text := by
  induction h with
  | done => rfl
  | copied _ _ ih => exact congrArg (_ :: ·) ih
  | replaced _ _ ih => exact congrArg (_ ++ ·) ih

/-- and in one way only. -/
theorem unique (h : Cut text parts) (h' : Cut text parts') : parts = parts' := by
  induction h generalizing parts' with
  | done =>
      cases h'
      rfl
  | copied hnone _ ih =>
      generalize htext : _ :: _ = text at h'
      cases h' with
      | done => cases htext
      | copied _ more =>
          cases htext
          rw [ih more]
      | replaced hw _ => exact absurd ⟨_, _, hw, htext⟩ hnone
  | replaced hw _ ih =>
      generalize htext : written _ ++ _ = text at h'
      cases h' with
      | done => cases htext
      | copied hnone _ => exact absurd ⟨_, _, hw, htext.symm⟩ hnone
      | replaced hw' more =>
          have hfirst := first?_eq_some_iff.mpr ⟨hw, htext.symm⟩
          rw [first?_eq_some_iff.mpr ⟨hw', rfl⟩] at hfirst
          cases hfirst
          rw [ih more]

end Cut

/-! ## 5. What is made of the parts -/

section Values

variable {lookup : String → Option String}

theorem value_eq_ok_iff {r : Reference} {value : List Char} :
    r.value lookup = .ok value ↔ (Part.reference r).text? lookup = some value := by
  obtain ⟨name, fallback⟩ := r
  unfold Reference.value Part.text?
  cases hvalue : lookup (String.ofList name) <;> cases fallback <;> simp [hvalue]

theorem value_eq_error_iff {r : Reference} {name : String} :
    r.value lookup = .error name ↔ (Part.reference r).text? lookup = none ∧ String.ofList r.name = name := by
  obtain ⟨name', fallback⟩ := r
  unfold Reference.value Part.text?
  cases hvalue : lookup (String.ofList name') <;> cases fallback <;> simp [hvalue]

variable {text : List Char} {parts : List Part}

/-- **A text becomes what its parts become, if they all become something.** -/
theorem expandChars_eq_ok_iff (h : Cut text parts) (result : List Char) :
    expandChars lookup text = .ok result ↔
      ∃ texts : List (List Char), List.Forall₂ (fun part text => part.text? lookup = some text) parts texts ∧
        texts.flatten = result := by
  induction h generalizing result with
  | done =>
      rw [expandChars_of_none lookup rfl, Except.ok.injEq]
      constructor
      · rintro rfl
        exact ⟨[], .nil, rfl⟩
      · rintro ⟨texts, hall, rfl⟩
        cases hall
        rfl
  | copied hnone _ ih =>
      rw [expandChars_copied lookup hnone, bind_eq_ok]
      constructor
      · rintro ⟨rest, hrest, ⟨⟩⟩
        obtain ⟨texts, hall, rfl⟩ := (ih rest).mp hrest
        exact ⟨_ :: texts, .cons rfl hall, rfl⟩
      · rintro ⟨_, ⟨⟩ | ⟨⟨⟩, hall⟩, rfl⟩
        exact ⟨_, (ih _).mpr ⟨_, hall, rfl⟩, rfl⟩
  | replaced hw _ ih =>
      rw [expandChars_replaced lookup hw, bind_eq_ok]
      constructor
      · rintro ⟨value, hvalue, hresult⟩
        obtain ⟨rest, hrest, ⟨⟩⟩ := bind_eq_ok.mp hresult
        obtain ⟨texts, hall, rfl⟩ := (ih rest).mp hrest
        exact ⟨value :: texts, .cons (value_eq_ok_iff.mp hvalue) hall, rfl⟩
      · rintro ⟨_, ⟨⟩ | ⟨hvalue, hall⟩, rfl⟩
        exact ⟨_, value_eq_ok_iff.mpr hvalue, bind_eq_ok.mpr ⟨_, (ih _).mpr ⟨_, hall, rfl⟩, rfl⟩⟩

/-- **If not, the first that becomes nothing names the variable that is missing.** -/
theorem expandChars_eq_error_iff (h : Cut text parts) (name : String) :
    expandChars lookup text = .error name ↔
      ∃ r, parts.find? (fun part => (part.text? lookup).isNone) = some (.reference r) ∧
        String.ofList r.name = name := by
  induction h with
  | done =>
      rw [expandChars_of_none lookup rfl]
      exact ⟨nofun, nofun⟩
  | copied hnone _ ih =>
      rw [expandChars_copied lookup hnone, bind_eq_error, ih, List.find?_cons_of_neg Bool.false_ne_true]
      exact or_iff_left nofun
  | @replaced r rest parts hw _ ih =>
      rw [expandChars_replaced lookup hw, bind_eq_error, value_eq_error_iff]
      cases htext : (Part.reference r).text? lookup with
      | none =>
          have hvalue : ∀ value, r.value lookup ≠ .ok value := fun value hvalue =>
            nomatch htext.symm.trans (value_eq_ok_iff.mp hvalue)
          rw [List.find?_cons_of_pos (by rw [htext]; rfl)]
          constructor
          · rintro (⟨-, hname⟩ | ⟨value, hok, -⟩)
            · exact ⟨r, rfl, hname⟩
            · exact absurd hok (hvalue value)
          · rintro ⟨_, ⟨⟩, hname⟩
            exact .inl ⟨rfl, hname⟩
      | some value =>
          have hvalue := value_eq_ok_iff.mpr htext
          rw [List.find?_cons_of_neg (by rw [htext]; exact Bool.false_ne_true), ← ih]
          constructor
          · rintro (⟨⟨⟩, -⟩ | ⟨_, -, hrest⟩)
            rcases bind_eq_error.mp hrest with hrest | ⟨_, -, ⟨⟩⟩
            exact hrest
          · exact fun hrest => .inr ⟨value, hvalue, bind_eq_error.mpr (.inl hrest)⟩

end Values

/-- **Expanding scans a text from left to right.** The pattern of references describes, from every place of a text on,
    the references as they are written. Every text is cut in exactly one way into such references and into the
    characters with which none begins, and it becomes what its parts become: a character stays, a reference becomes the
    value of its variable or else its fallback. This fails where a reference has neither, and names the first one. -/
theorem expand_scans :
    (∃ p, Pattern.read? patternText = some p ∧ ∀ text, ∀ s ∈ Spot.spots text, ∀ t,
      t ∈ p.ends [s] ↔ t ∈ Spot.spots text ∧ ∃ r : Reference, r.WellFormed ∧ s.rest = r.written ++ t.rest) ∧
    ∀ (lookup : String → Option String) (text : String), ∃ parts,
      Cut text.toList parts ∧ (∀ parts', Cut text.toList parts' → parts' = parts) ∧
      parts.flatMap Part.chars = text.toList ∧
      (∀ result, expand lookup text = .ok result ↔ ∃ texts : List (List Char),
        List.Forall₂ (fun part text => part.text? lookup = some text) parts texts ∧ texts.flatten = result.toList) ∧
      (∀ name, expand lookup text = .error name ↔ ∃ r,
        parts.find? (fun part => (part.text? lookup).isNone) = some (.reference r) ∧ String.ofList r.name = name) := by
  constructor
  · exact ⟨pattern, read?_patternText, fun text s hs t => mem_ends_pattern hs t⟩
  · intro lookup text
    obtain ⟨parts, hcut⟩ := exists_cut text.toList
    refine ⟨parts, hcut, fun _ hcut' => hcut'.unique hcut, hcut.flatMap_chars, fun result => ?_, fun name => ?_⟩
    · rw [← expandChars_eq_ok_iff hcut]
      cases hexpand : expandChars lookup text.toList with
      | error name => simp [expand, hexpand]
      | ok chars => simp [expand, hexpand, ← String.toList_inj]
    · rw [← expandChars_eq_error_iff hcut]
      cases hexpand : expandChars lookup text.toList with
      | error name => simp [expand, hexpand]
      | ok chars => simp [expand, hexpand]

-- A brace that opens may stand in a name, a name may not be missing, and a value is not searched for references.
example : expand (fun name => if name = "A$\x7bB" then some "$\x7bC\x7d" else none)
    "$\x7b\x7d$\x7bA$\x7bB\x7d\x7d$\x7bD:-x\x7d" = .ok "$\x7b\x7d$\x7bC\x7d\x7dx" := by cbv

end RouteScaffold.Reference
