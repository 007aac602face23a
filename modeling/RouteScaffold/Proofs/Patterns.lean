import Mathlib.Logic.Basic
import RouteScaffold.Pattern.Search

/-!
# What a pattern fits

A pattern fits some pieces of a text, each from one place to another (`Pattern.Fits`). The search does not try pieces:
it goes on from all places at once and from none of them twice, as often as may be needed. Main statement: it reaches
exactly the places to which the pattern fits (`Pattern.mem_ends`).

A repetition is searched in rounds (`mem_within`). What one round reaches is either there already or gone on from in the
next round; and as pieces only lead on in the text, steps that stay where they are can be left out, so that no more
rounds are needed than there are characters left (`Steps.short`).
-/

namespace RouteScaffold

/-! ## 1. Places -/

/-- The place is one of the text. -/
def Spot.Of (text : List Char) (s : Spot) : Prop :=
  ∃ front, text = front ++ s.rest ∧ s.place = front.length ∧ s.before = front.getLast?

/-- All places are places of the text. -/
def AllOf (text : List Char) (places : List Spot) : Prop := ∀ s ∈ places, s.Of text

namespace Spot

variable {text : List Char} {s t : Spot}

/-- **A place of a text is known by its number.** -/
theorem Of.eq (hs : s.Of text) (ht : t.Of text) (h : s.place = t.place) : s = t := by
  obtain ⟨front, htext, hplace, hbefore⟩ := hs
  obtain ⟨front', htext', hplace', hbefore'⟩ := ht
  obtain ⟨hfront, hrest⟩ := List.append_inj (htext.symm.trans htext') (by omega)
  obtain ⟨place, before, rest⟩ := s
  rw [mk.injEq]
  exact ⟨h, hbefore.trans (hfront ▸ hbefore'.symm), hrest⟩

/-- Behind a place the text is left that it says. -/
theorem Of.length (hs : s.Of text) : s.place + s.rest.length = text.length := by
  obtain ⟨front, htext, hplace, -⟩ := hs
  rw [hplace, htext, List.length_append]

theorem step?_eq_some {set : CharSet} (h : s.step? set = some t) :
    ∃ c, set.holds c = true ∧ s.rest = c :: t.rest ∧ t.place = s.place + 1 ∧ t.before = some c := by
  unfold step? at h
  split at h
  · next c rest hrest =>
    split at h
    · next hc =>
      cases h
      exact ⟨c, hc, hrest, rfl, rfl⟩
    · cases h
  · cases h

theorem Of.step {set : CharSet} (hs : s.Of text) (h : s.step? set = some t) :
    t.Of text ∧ s.place < t.place := by
  obtain ⟨front, htext, hplace, -⟩ := hs
  obtain ⟨c, -, hrest, hnext, hbefore⟩ := step?_eq_some h
  refine ⟨⟨front ++ [c], ?_, ?_, ?_⟩, by omega⟩
  · rw [htext, hrest, List.append_assoc]
    rfl
  · rw [List.length_append, List.length_singleton, hnext, hplace]
  · rw [hbefore, List.getLast?_append, List.getLast?_singleton]
    rfl

/-- The places from one on are behind the characters up to them. -/
theorem mem_spotsFrom (rest front : List Char) : s ∈ spotsFrom front.length front.getLast? rest ↔
    ∃ more, rest = more ++ s.rest ∧ s.place = (front ++ more).length ∧ s.before = (front ++ more).getLast? := by
  have hhere : ∀ front : List Char, s = ⟨front.length, front.getLast?, s.rest⟩ ↔
      s.place = (front ++ []).length ∧ s.before = (front ++ []).getLast? := by
    obtain ⟨place, before, rest⟩ := s
    intro front
    rw [List.append_nil, mk.injEq]
    exact ⟨fun h => ⟨h.1, h.2.1⟩, fun h => ⟨h.1, h.2, rfl⟩⟩
  induction rest generalizing front with
  | nil =>
      rw [spotsFrom, List.mem_singleton]
      constructor
      · intro hs
        have hrest : s.rest = [] := congrArg Spot.rest hs
        exact ⟨[], hrest.symm, (hhere front).mp (hrest ▸ hs)⟩
      · rintro ⟨more, hrest, hmore⟩
        obtain ⟨rfl, hnil⟩ := List.append_eq_nil_iff.mp hrest.symm
        rw [← hnil]
        exact (hhere front).mpr hmore
  | cons c rest ih =>
      have hfront : ∀ more, front ++ c :: more = (front ++ [c]) ++ more := fun more => by
        rw [List.append_assoc, List.singleton_append]
      have hnext : spotsFrom (front.length + 1) (some c) rest =
          spotsFrom (front ++ [c]).length (front ++ [c]).getLast? rest := by
        rw [List.length_append, List.getLast?_append]
        rfl
      have hbehind := ih (front ++ [c])
      rw [spotsFrom, List.mem_cons, hnext]
      refine (or_congr_right hbehind).trans ?_
      constructor
      · rintro (hs | ⟨more, hrest, hmore⟩)
        · have hrest : s.rest = c :: rest := congrArg Spot.rest hs
          exact ⟨[], hrest.symm, (hhere front).mp (hrest ▸ hs)⟩
        · exact ⟨c :: more, congrArg (c :: ·) hrest, (hfront more).symm ▸ hmore⟩
      · rintro ⟨more, hrest, hmore⟩
        cases more with
        | nil =>
            rw [List.nil_append] at hrest
            rw [hrest]
            exact .inl ((hhere front).mpr hmore)
        | cons d more =>
            obtain ⟨rfl, htail⟩ := List.cons.inj hrest
            exact .inr ⟨more, htail, hfront more ▸ hmore⟩

/-- The places that are listed of a text are its places. -/
theorem mem_spots : s ∈ spots text ↔ s.Of text := mem_spotsFrom text []

variable {found next : List Spot}

theorem isAmong_iff (hf : AllOf text found) (ht : t.Of text) : t.isAmong found = true ↔ t ∈ found := by
  unfold isAmong
  rw [List.any_eq_true]
  constructor
  · rintro ⟨u, hu, he⟩
    rw [← (hf u hu).eq ht (by simpa using he)]
    exact hu
  · exact fun h => ⟨t, h, by simp⟩

/-- The new places are those that are not there yet. -/
theorem mem_newIn (hf : AllOf text found) (hn : AllOf text next) : t ∈ newIn found next ↔ t ∈ next ∧ t ∉ found := by
  unfold newIn
  rw [List.mem_filter]
  refine and_congr_right fun ht => ?_
  rw [Bool.not_eq_true', ← Bool.not_eq_true, isAmong_iff hf (hn t ht)]

end Spot

/-! ## 2. Steps -/

/-- One place leads to another by so many steps of a relation. -/
def Steps (R : Spot → Spot → Prop) : Nat → Spot → Spot → Prop
  | 0, s, t => s = t
  | n + 1, s, t => ∃ m, R s m ∧ Steps R n m t

theorem Steps.append {R : Spot → Spot → Prop} {a b : Nat} {s t : Spot} :
    Steps R (a + b) s t ↔ ∃ m, Steps R a s m ∧ Steps R b m t := by
  induction a generalizing s with
  | zero =>
      rw [Nat.zero_add]
      exact ⟨fun h => ⟨s, rfl, h⟩, fun ⟨m, he, h⟩ => he ▸ h⟩
  | succ a ih =>
      rw [Nat.succ_add]
      constructor
      · rintro ⟨u, hu, h⟩
        obtain ⟨m, ha, hb⟩ := ih.mp h
        exact ⟨m, ⟨u, hu, ha⟩, hb⟩
      · rintro ⟨m, ⟨u, hu, ha⟩, hb⟩
        exact ⟨u, hu, ih.mpr ⟨m, ha, hb⟩⟩

/-- What each step keeps all of them keep. -/
theorem Steps.keeps {R : Spot → Spot → Prop} {P : Spot → Prop} (hP : ∀ s t, P s → R s t → P t) {n : Nat} {s t : Spot}
    (h : Steps R n s t) (hs : P s) : P t := by
  induction n generalizing s with
  | zero => exact h ▸ hs
  | succ n ih =>
      obtain ⟨m, hm, hsteps⟩ := h
      exact ih hsteps (hP s m hs hm)

/-- The relation leads on in the text. -/
def LeadsOn (text : List Char) (R : Spot → Spot → Prop) : Prop :=
  ∀ ⦃s t⦄, s.Of text → R s t → t.Of text ∧ s.place ≤ t.place

section Steps

variable {text : List Char} {R : Spot → Spot → Prop} (hR : LeadsOn text R)
include hR

theorem LeadsOn.steps (n : Nat) : LeadsOn text (Steps R n) := by
  induction n with
  | zero =>
      rintro s t hs rfl
      exact ⟨hs, Nat.le_refl _⟩
  | succ n ih =>
      rintro s t hs ⟨m, hm, hsteps⟩
      obtain ⟨hm, hle⟩ := hR hs hm
      obtain ⟨ht, hle'⟩ := ih hm hsteps
      exact ⟨ht, Nat.le_trans hle hle'⟩

/-- **Steps that stay where they are can be left out**: no more are needed than there are characters between. -/
theorem Steps.short {n : Nat} {s t : Spot} (hs : s.Of text) (h : Steps R n s t) :
    ∃ k ≤ n, k + s.place ≤ t.place ∧ Steps R k s t := by
  induction n generalizing s with
  | zero =>
      cases h
      exact ⟨0, Nat.le_refl 0, by omega, rfl⟩
  | succ n ih =>
      obtain ⟨m, hm, hsteps⟩ := h
      obtain ⟨hmof, hle⟩ := hR hs hm
      obtain ⟨k, hk, hplace, hshort⟩ := ih hmof hsteps
      by_cases he : s.place = m.place
      · rw [hs.eq hmof he]
        exact ⟨k, by omega, hplace, hshort⟩
      · exact ⟨k + 1, by omega, by omega, m, hm, hshort⟩

end Steps

/-! ## 3. Rounds of a search -/

namespace Pattern

/-- The function goes one step on from all places. -/
def StepsOn (text : List Char) (step : List Spot → List Spot) (R : Spot → Spot → Prop) : Prop :=
  ∀ places, AllOf text places → ∀ t, t ∈ step places ↔ ∃ s ∈ places, R s t

section Rounds

variable {text : List Char} {step : List Spot → List Spot} {R : Spot → Spot → Prop} (hR : LeadsOn text R)
  (hstep : StepsOn text step R)
include hR hstep

theorem StepsOn.allOf {places : List Spot} (hp : AllOf text places) : AllOf text (step places) := by
  intro t ht
  obtain ⟨s, hs, hst⟩ := (hstep places hp t).mp ht
  exact (hR (hp s hs) hst).1

theorem mem_after (n : Nat) : StepsOn text (after step n) (Steps R n) := by
  induction n with
  | zero => exact fun places hp t => ⟨fun ht => ⟨t, ht, rfl⟩, fun ⟨s, hs, he⟩ => he ▸ hs⟩
  | succ n ih =>
      intro places hp t
      rw [after, ih _ (StepsOn.allOf hR hstep hp)]
      constructor
      · rintro ⟨m, hm, hsteps⟩
        obtain ⟨s, hs, hsm⟩ := (hstep places hp m).mp hm
        exact ⟨s, hs, m, hsm, hsteps⟩
      · rintro ⟨s, hs, m, hsm, hsteps⟩
        exact ⟨m, (hstep places hp m).mpr ⟨s, hs, hsm⟩, hsteps⟩

/-- **So many rounds reach what is reached by at most so many steps**, if only the last places found have not been gone
    on from. -/
theorem mem_within (n : Nat) {found last : List Spot} (hf : AllOf text found) (hl : ∀ s ∈ last, s ∈ found)
    (hdone : ∀ s ∈ found, s ∉ last → ∀ t, R s t → t ∈ found) (t : Spot) :
    t ∈ within step n found last ↔ ∃ s ∈ found, ∃ k ≤ n, Steps R k s t := by
  induction n generalizing found last with
  | zero =>
      constructor
      · exact fun ht => ⟨t, ht, 0, Nat.le_refl 0, rfl⟩
      · rintro ⟨s, hs, k, hk, hsteps⟩
        obtain rfl : k = 0 := by omega
        exact hsteps ▸ hs
  | succ n ih =>
      have hlast : AllOf text last := fun s hs => hf s (hl s hs)
      have hnext := StepsOn.allOf hR hstep hlast
      have hmem : ∀ u, u ∈ Spot.newIn found (step last) ↔ u ∈ step last ∧ u ∉ found :=
        fun u => Spot.mem_newIn hf hnext
      -- What is one step on from a place that was found is found, or is new.
      have hon : ∀ s ∈ found, ∀ u, R s u → u ∈ found ∨ u ∈ Spot.newIn found (step last) := by
        intro s hs u hsu
        by_cases hu : u ∈ found
        · exact .inl hu
        · have hsl : s ∈ last := Classical.byContradiction fun hsl => hu (hdone s hs hsl u hsu)
          exact .inr ((hmem u).mpr ⟨(hstep last hlast u).mpr ⟨s, hsl, hsu⟩, hu⟩)
      unfold within
      by_cases hempty : Spot.newIn found (step last) = []
      · rw [hempty] at hon ⊢
        constructor
        · exact fun ht => ⟨t, ht, 0, Nat.zero_le _, rfl⟩
        · rintro ⟨s, hs, k, -, hsteps⟩
          exact hsteps.keeps (fun s u hs hsu => (hon s hs u hsu).resolve_right List.not_mem_nil) hs
      · have hne : (Spot.newIn found (step last)).isEmpty = false := by simpa using hempty
        simp only [hne, Bool.false_eq_true, if_false]
        rw [@ih (found ++ Spot.newIn found (step last)) (Spot.newIn found (step last))
          (fun s hs => (List.mem_append.mp hs).elim (hf s) fun hs => hnext s ((hmem s).mp hs).1)
          (fun s hs => List.mem_append_right _ hs)
          (fun s hs hsn u hsu => List.mem_append.mpr (hon s ((List.mem_append.mp hs).resolve_right hsn) u hsu))]
        constructor
        · rintro ⟨s, hs, k, hk, hsteps⟩
          rcases List.mem_append.mp hs with hs | hs
          · exact ⟨s, hs, k, by omega, hsteps⟩
          · obtain ⟨u, hu, hus⟩ := (hstep last hlast s).mp ((hmem s).mp hs).1
            exact ⟨u, hl u hu, k + 1, by omega, s, hus, hsteps⟩
        · rintro ⟨s, hs, k, hk, hsteps⟩
          cases k with
          | zero => exact ⟨s, List.mem_append_left _ hs, 0, Nat.zero_le _, hsteps⟩
          | succ k =>
              obtain ⟨m, hsm, hsteps⟩ := hsteps
              exact ⟨m, List.mem_append.mpr (hon s hs m hsm), k, by omega, hsteps⟩

end Rounds

/-! ## 4. Patterns -/

/-- The pattern fits the piece of a text from one place to another. -/
def Fits : Pattern → Spot → Spot → Prop
  | empty, s, t => s = t
  | one set, s, t => s.step? set = some t
  | look l, s, t => s = t ∧ l.holds s.before s.rest.head? = true
  | sequence p q, s, t => ∃ m, p.Fits s m ∧ q.Fits m t
  | choice p q, s, t => p.Fits s t ∨ q.Fits s t
  | many low high p, s, t => ∃ n, low ≤ n ∧ (∀ most, high = some most → n ≤ max low most) ∧ Steps p.Fits n s t

theorem leadsOn_fits (text : List Char) (p : Pattern) : LeadsOn text p.Fits := by
  induction p with
  | empty =>
      rintro s t hs rfl
      exact ⟨hs, Nat.le_refl _⟩
  | one set => exact fun s t hs h => ⟨(hs.step h).1, Nat.le_of_lt (hs.step h).2⟩
  | look l =>
      rintro s t hs ⟨rfl, -⟩
      exact ⟨hs, Nat.le_refl _⟩
  | sequence p q ihp ihq =>
      rintro s t hs ⟨m, hp, hq⟩
      obtain ⟨hm, hle⟩ := ihp hs hp
      obtain ⟨ht, hle'⟩ := ihq hm hq
      exact ⟨ht, Nat.le_trans hle hle'⟩
  | choice p q ihp ihq => exact fun s t hs h => h.elim (ihp hs) (ihq hs)
  | many low high p ih =>
      rintro s t hs ⟨n, -, -, h⟩
      exact ih.steps n hs h

/-- Among some places each has fewer characters behind it than are enough. -/
theorem length_lt_enough {places : List Spot} {s : Spot} (h : s ∈ places) : s.rest.length < enough places := by
  have hfold : ∀ (places : List Spot) (n : Nat), n ≤ places.foldl (fun n s => max n s.rest.length) n ∧
      ∀ s ∈ places, s.rest.length ≤ places.foldl (fun n s => max n s.rest.length) n := by
    intro places
    induction places with
    | nil => exact fun n => ⟨Nat.le_refl n, nofun⟩
    | cons u more ih =>
        intro n
        obtain ⟨hle, hall⟩ := ih (max n u.rest.length)
        refine ⟨Nat.le_trans (Nat.le_max_left _ _) hle, List.forall_mem_cons.mpr ⟨?_, hall⟩⟩
        exact Nat.le_trans (Nat.le_max_right _ _) hle
  exact Nat.lt_succ_of_le ((hfold places 0).2 s h)

/-- What is repeated is searched for in rounds, as many as there are characters behind at most. -/
theorem mem_ends_many {text : List Char} {p : Pattern} (ih : StepsOn text p.ends p.Fits) (low : Nat)
    (high : Option Nat) :
    StepsOn text (many low high p).ends (many low high p).Fits := by
  intro places hp t
  have hR := leadsOn_fits text p
  have hleast : AllOf text (after p.ends low places) :=
    StepsOn.allOf (hR.steps low) (mem_after hR ih low) hp
  have hwithin := fun n => mem_within hR ih n hleast (fun s hs => hs) (fun s hs hn => absurd hs hn) t
  have hafter := mem_after hR ih low places hp
  simp only [ends]
  rw [hwithin]
  constructor
  · rintro ⟨m, hm, k, hk, hsteps⟩
    obtain ⟨s, hs, hlow⟩ := (hafter m).mp hm
    refine ⟨s, hs, low + k, Nat.le_add_right low k, ?_, Steps.append.mpr ⟨m, hlow, hsteps⟩⟩
    rintro most rfl
    have hmost : k ≤ most - low := Nat.le_trans hk (Nat.min_le_left _ _)
    omega
  · rintro ⟨s, hs, n, hn, hmost, hsteps⟩
    obtain ⟨k, rfl⟩ := Nat.le.dest hn
    obtain ⟨m, hlow, hmore⟩ := Steps.append.mp hsteps
    have hm := (hafter m).mpr ⟨s, hs, hlow⟩
    -- No more rounds are needed than there are characters behind the place.
    obtain ⟨k', hk', hplace, hshort⟩ := hmore.short hR (hleast m hm)
    have htext := (hleast m hm).length
    have htext' := (hR.steps _ (hleast m hm) hshort).1.length
    have henough := length_lt_enough hm
    refine ⟨m, hm, k', ?_, hshort⟩
    cases high with
    | none =>
        show k' ≤ enough _
        omega
    | some most =>
        have hle := hmost most rfl
        show k' ≤ min (most - low) (enough _)
        omega

/-- **The search reaches exactly the places to which the pattern fits.** -/
theorem mem_ends (text : List Char) (p : Pattern) : StepsOn text p.ends p.Fits := by
  induction p with
  | empty => exact fun places hp t => ⟨fun ht => ⟨t, ht, rfl⟩, fun ⟨s, hs, he⟩ => he ▸ hs⟩
  | one set => exact fun places hp t => List.mem_filterMap
  | look l =>
      intro places hp t
      rw [ends, List.mem_filter]
      exact ⟨fun ⟨ht, hl⟩ => ⟨t, ht, rfl, hl⟩, fun ⟨s, hs, he, hl⟩ => he ▸ ⟨hs, hl⟩⟩
  | sequence p q ihp ihq =>
      intro places hp t
      rw [ends, ihq _ (StepsOn.allOf (leadsOn_fits text p) ihp hp)]
      constructor
      · rintro ⟨m, hm, hq⟩
        obtain ⟨s, hs, hsm⟩ := (ihp places hp m).mp hm
        exact ⟨s, hs, m, hsm, hq⟩
      · rintro ⟨s, hs, m, hsm, hq⟩
        exact ⟨m, (ihp places hp m).mpr ⟨s, hs, hsm⟩, hq⟩
  | choice p q ihp ihq =>
      intro places hp t
      have hleft := StepsOn.allOf (leadsOn_fits text p) ihp hp
      have hright := StepsOn.allOf (leadsOn_fits text q) ihq hp
      simp only [ends]
      rw [List.mem_append, Spot.mem_newIn hleft hright, ihp places hp, ihq places hp]
      constructor
      · rintro (⟨s, hs, h⟩ | ⟨⟨s, hs, h⟩, -⟩)
        · exact ⟨s, hs, .inl h⟩
        · exact ⟨s, hs, .inr h⟩
      · rintro ⟨s, hs, h | h⟩
        · exact .inl ⟨s, hs, h⟩
        · exact or_iff_not_imp_left.mpr fun hnone => ⟨⟨s, hs, h⟩, hnone⟩
  | many low high p ih => exact mem_ends_many ih low high

/-! ## 5. Pieces of a text -/

/-- What the pattern fits is known by the characters of the piece, wherever it stands. -/
def Describes (p : Pattern) (piece : List Char → Prop) : Prop :=
  ∀ ⦃text s⦄, s.Of text → ∀ t, p.Fits s t ↔ t.Of text ∧ ∃ chars, piece chars ∧ s.rest = chars ++ t.rest

section Pieces

variable {p q : Pattern} {P Q : List Char → Prop}

theorem Describes.congr (h : p.Describes P) (he : ∀ chars, P chars ↔ Q chars) : p.Describes Q := by
  intro text s hs t
  rw [h hs t]
  refine and_congr_right fun _ => exists_congr fun chars => ?_
  rw [he]

theorem describes_empty : empty.Describes (· = []) := by
  intro text s hs t
  constructor
  · rintro rfl
    exact ⟨hs, [], rfl, rfl⟩
  · rintro ⟨ht, chars, rfl, hrest⟩
    have hlength := hs.length
    have hlength' := ht.length
    rw [List.nil_append] at hrest
    rw [hrest] at hlength
    exact hs.eq ht (by omega)

theorem describes_one (set : CharSet) : (one set).Describes fun chars => ∃ c, set.holds c = true ∧ chars = [c] := by
  intro text s hs t
  constructor
  · intro h
    obtain ⟨c, hc, hrest, -, -⟩ := Spot.step?_eq_some h
    exact ⟨(hs.step h).1, [c], ⟨c, hc, rfl⟩, hrest⟩
  · rintro ⟨ht, chars, ⟨c, hc, rfl⟩, hrest⟩
    have hstep : s.step? set = some ⟨s.place + 1, some c, t.rest⟩ := by
      rw [Spot.step?, hrest]
      exact if_pos hc
    -- There is one place only with so many characters ahead of it.
    have hlength : s.place + 1 + t.rest.length = text.length := (hs.step hstep).1.length
    have hplace : s.place + 1 = t.place := Nat.add_right_cancel (hlength.trans ht.length.symm)
    exact (hs.step hstep).1.eq ht hplace ▸ hstep

theorem describes_sequence (hp : p.Describes P) (hq : q.Describes Q) :
    (sequence p q).Describes fun chars => ∃ a b, P a ∧ Q b ∧ chars = a ++ b := by
  intro text s hs t
  constructor
  · rintro ⟨m, hsm, hmt⟩
    obtain ⟨hm, a, ha, hfront⟩ := (hp hs m).mp hsm
    obtain ⟨ht, b, hb, hback⟩ := (hq hm t).mp hmt
    exact ⟨ht, a ++ b, ⟨a, b, ha, hb, rfl⟩, by rw [hfront, hback, List.append_assoc]⟩
  · rintro ⟨ht, chars, ⟨a, b, ha, hb, rfl⟩, hrest⟩
    obtain ⟨front, htext, hplace, hbefore⟩ := hs
    -- The place between the two parts.
    have hm : Spot.Of text ⟨(front ++ a).length, (front ++ a).getLast?, b ++ t.rest⟩ := by
      refine ⟨front ++ a, ?_, rfl, rfl⟩
      rw [htext, hrest, List.append_assoc, List.append_assoc]
    refine ⟨_, (hp ⟨front, htext, hplace, hbefore⟩ _).mpr ⟨hm, a, ha, ?_⟩, (hq hm t).mpr ⟨ht, b, hb, rfl⟩⟩
    rw [hrest, List.append_assoc]

theorem describes_steps (hp : p.Describes P) (n : Nat) {text : List Char} {s : Spot} (hs : s.Of text) (t : Spot) :
    Steps p.Fits n s t ↔ t.Of text ∧ ∃ pieces : List (List Char), pieces.length = n ∧ (∀ chars ∈ pieces, P chars) ∧
      s.rest = pieces.flatten ++ t.rest := by
  induction n generalizing s with
  | zero =>
      refine (describes_empty hs t).trans (and_congr_right fun _ => ?_)
      constructor
      · rintro ⟨chars, rfl, hrest⟩
        exact ⟨[], rfl, nofun, hrest⟩
      · rintro ⟨pieces, hlength, -, hrest⟩
        rw [List.length_eq_zero_iff.mp hlength] at hrest
        exact ⟨[], rfl, hrest⟩
  | succ n ih =>
      constructor
      · rintro ⟨m, hsm, hsteps⟩
        obtain ⟨hm, a, ha, hfront⟩ := (hp hs m).mp hsm
        obtain ⟨ht, pieces, hlength, hall, hback⟩ := (ih hm).mp hsteps
        refine ⟨ht, a :: pieces, congrArg (· + 1) hlength, List.forall_mem_cons.mpr ⟨ha, hall⟩, ?_⟩
        rw [hfront, hback, List.flatten_cons, List.append_assoc]
      · rintro ⟨ht, pieces, hlength, hall, hrest⟩
        obtain ⟨a, more, rfl⟩ := List.exists_cons_of_length_eq_add_one hlength
        obtain ⟨ha, hmore⟩ := List.forall_mem_cons.mp hall
        obtain ⟨front, htext, hplace, hbefore⟩ := hs
        have hm : Spot.Of text ⟨(front ++ a).length, (front ++ a).getLast?, more.flatten ++ t.rest⟩ := by
          refine ⟨front ++ a, ?_, rfl, rfl⟩
          rw [htext, hrest, List.flatten_cons, List.append_assoc, List.append_assoc]
        refine ⟨_, (hp ⟨front, htext, hplace, hbefore⟩ _).mpr ⟨hm, a, ha, ?_⟩,
          (ih hm).mpr ⟨ht, more, Nat.succ.inj hlength, hmore, rfl⟩⟩
        rw [hrest, List.flatten_cons, List.append_assoc]

theorem describes_many (hp : p.Describes P) (low : Nat) (high : Option Nat) :
    (many low high p).Describes fun chars => ∃ pieces : List (List Char), low ≤ pieces.length ∧
      (∀ most, high = some most → pieces.length ≤ max low most) ∧ (∀ chars ∈ pieces, P chars) ∧
      chars = pieces.flatten := by
  intro text s hs t
  constructor
  · rintro ⟨n, hlow, hhigh, hsteps⟩
    obtain ⟨ht, pieces, rfl, hall, hrest⟩ := (describes_steps hp n hs t).mp hsteps
    exact ⟨ht, _, ⟨pieces, hlow, hhigh, hall, rfl⟩, hrest⟩
  · rintro ⟨ht, chars, ⟨pieces, hlow, hhigh, hall, rfl⟩, hrest⟩
    exact ⟨pieces.length, hlow, hhigh, (describes_steps hp _ hs t).mpr ⟨ht, pieces, rfl, hall, hrest⟩⟩

/-- Repeated without a bound, a set fits the texts of its characters. -/
theorem describes_many_one (set : CharSet) (low : Nat) : (many low none (one set)).Describes fun chars =>
    low ≤ chars.length ∧ ∀ c ∈ chars, set.holds c = true := by
  refine (describes_many (describes_one set) low none).congr fun chars => ?_
  constructor
  · rintro ⟨pieces, hlow, -, hall, rfl⟩
    obtain ⟨singles, hsingles, rfl⟩ : ∃ singles : List Char, (∀ c ∈ singles, set.holds c = true) ∧
        pieces = singles.map fun c => [c] := by
      clear hlow
      induction pieces with
      | nil => exact ⟨[], nofun, rfl⟩
      | cons piece more ih =>
          obtain ⟨⟨c, hc, rfl⟩, hmore⟩ := List.forall_mem_cons.mp hall
          obtain ⟨singles, hsingles, rfl⟩ := ih hmore
          exact ⟨c :: singles, List.forall_mem_cons.mpr ⟨hc, hsingles⟩, rfl⟩
    rw [List.length_map] at hlow
    rw [← List.flatMap_def, List.flatMap_singleton']
    exact ⟨hlow, hsingles⟩
  · rintro ⟨hlow, hall⟩
    refine ⟨chars.map fun c => [c], ?_, nofun, ?_, ?_⟩
    · rwa [List.length_map]
    · rintro piece hpiece
      obtain ⟨c, hc, rfl⟩ := List.mem_map.mp hpiece
      exact ⟨c, hall c hc, rfl⟩
    · rw [← List.flatMap_def, List.flatMap_singleton']

/-- Repeated at most once, a pattern fits what it fits, or nothing. -/
theorem describes_optional (hp : p.Describes P) :
    (many 0 (some 1) p).Describes fun chars => chars = [] ∨ P chars := by
  refine (describes_many hp 0 (some 1)).congr fun chars => ?_
  constructor
  · rintro ⟨pieces, -, hhigh, hall, rfl⟩
    have hone : pieces.length ≤ 1 := hhigh 1 rfl
    match pieces with
    | [] => exact .inl rfl
    | [piece] => exact .inr (by simpa using hall)
    | a :: b :: more => exact absurd hone (by simp)
  · rintro (rfl | hchars)
    · exact ⟨[], Nat.zero_le _, fun most _ => Nat.zero_le _, nofun, rfl⟩
    · refine ⟨[chars], Nat.zero_le _, ?_, by simpa using hchars, by simp⟩
      rintro most ⟨⟩
      exact Nat.le_refl 1

/-- A set of one character has this character only. -/
theorem holds_one (c d : Char) : (CharSet.range c c).holds d = true ↔ d = c := by
  simp only [CharSet.holds, Bool.and_eq_true, decide_eq_true_eq]
  exact ⟨fun h => Char.le_antisymm h.2 h.1, fun h => h ▸ ⟨Char.le_refl _, Char.le_refl _⟩⟩

theorem describes_char (c : Char) : (one (CharSet.range c c)).Describes (· = [c]) :=
  (describes_one _).congr fun chars => by simp only [holds_one, exists_eq_left]

/-- **The search from one place reaches the places behind the pieces that the pattern describes.** -/
theorem Describes.mem_ends (h : p.Describes P) {text : List Char} {s : Spot} (hs : s ∈ Spot.spots text) (t : Spot) :
    t ∈ p.ends [s] ↔ t ∈ Spot.spots text ∧ ∃ chars, P chars ∧ s.rest = chars ++ t.rest := by
  have hof := Spot.mem_spots.mp hs
  have hone : AllOf text [s] := fun u hu => List.mem_singleton.mp hu ▸ hof
  rw [Pattern.mem_ends text p [s] hone t, Spot.mem_spots, ← h hof t]
  simp only [List.mem_singleton, exists_eq_left]

end Pieces

/-- A pattern is in no text from whose places it goes nowhere. -/
theorem isIn_eq_false_iff (p : Pattern) (text : String) :
    p.isIn text = false ↔ ∀ s ∈ Spot.spots text.toList, p.ends [s] = [] := by
  have hone {s : Spot} (hs : s ∈ Spot.spots text.toList) : AllOf text.toList [s] := fun u hu =>
    List.mem_singleton.mp hu ▸ Spot.mem_spots.mp hs
  have hall : AllOf text.toList (Spot.spots text.toList) := fun s hs => Spot.mem_spots.mp hs
  rw [isIn, Bool.not_eq_false', List.isEmpty_iff]
  constructor
  · intro h s hs
    refine List.eq_nil_iff_forall_not_mem.mpr fun t ht => ?_
    obtain ⟨u, hu, hfits⟩ := (mem_ends text.toList p [s] (hone hs) t).mp ht
    have hends := (mem_ends text.toList p _ hall t).mpr ⟨u, List.mem_singleton.mp hu ▸ hs, hfits⟩
    rw [h] at hends
    exact List.not_mem_nil hends
  · intro h
    refine List.eq_nil_iff_forall_not_mem.mpr fun t ht => ?_
    obtain ⟨s, hs, hfits⟩ := (mem_ends text.toList p _ hall t).mp ht
    have hends := (mem_ends text.toList p [s] (hone hs) t).mpr ⟨s, List.mem_singleton_self s, hfits⟩
    rw [h s hs] at hends
    exact List.not_mem_nil hends

end Pattern

end RouteScaffold
