import RouteScaffold.Name

/-!
# Identifier fragments and the names derived from them

`Name.isIdentifier` is a test; `Name.Fragment` is the pattern `[A-Za-z_$][A-Za-z0-9_$]*` it decides
(`isIdentifier_iff`). A key that is a fragment gives names that are fragments, and names of one kind differ as
soon as the capitalized keys do.
-/

namespace RouteScaffold.Name

/-! ## 1. The pattern -/

/-- The class `[A-Za-z_$]`. -/
def Start (c : Char) : Prop := ('A' ≤ c ∧ c ≤ 'Z') ∨ ('a' ≤ c ∧ c ≤ 'z') ∨ c = '_' ∨ c = '$'

/-- The class `[A-Za-z0-9_$]`. -/
def Follow (c : Char) : Prop := Start c ∨ ('0' ≤ c ∧ c ≤ '9')

/-- The pattern `[A-Za-z_$][A-Za-z0-9_$]*`. -/
def Fragment (key : String) : Prop :=
  ∃ c rest, key.toList = c :: rest ∧ Start c ∧ ∀ d ∈ rest, Follow d

theorem isIdentifierStart_iff (c : Char) : isIdentifierStart c = true ↔ Start c := by
  have hupper : c.isUpper = decide ('A'.val ≤ c.val ∧ c.val ≤ 'Z'.val) := rfl
  have hlower : c.isLower = (decide ('a'.val ≤ c.val) && decide (c.val ≤ 'z'.val)) := rfl
  have halpha : c.isAlpha = (c.isUpper || c.isLower) := rfl
  simp only [isIdentifierStart, Start, halpha, hupper, hlower, Bool.or_eq_true, Bool.and_eq_true,
    decide_eq_true_eq, beq_iff_eq, Char.le_def, or_assoc]

theorem isIdentifierRest_iff (c : Char) : isIdentifierRest c = true ↔ Follow c := by
  have hs : isIdentifierRest c = (isIdentifierStart c || c.isDigit) := by
    unfold isIdentifierRest isIdentifierStart Char.isAlphanum
    cases c.isAlpha <;> cases c.isDigit <;> simp
  rw [hs, Bool.or_eq_true, isIdentifierStart_iff]
  simp only [Follow, Char.isDigit, Bool.and_eq_true, decide_eq_true_eq, Char.le_def, ge_iff_le]

/-- **The test decides the pattern.** -/
theorem isIdentifier_iff (key : String) : isIdentifier key = true ↔ Fragment key := by
  unfold isIdentifier Fragment
  cases hk : key.toList with
  | nil => simp
  | cons c rest =>
      simp only [Bool.and_eq_true, isIdentifierStart_iff, List.all_eq_true, isIdentifierRest_iff]
      constructor
      · exact fun ⟨h1, h2⟩ => ⟨c, rest, rfl, h1, h2⟩
      · rintro ⟨c', rest', h, h1, h2⟩
        cases h
        exact ⟨h1, h2⟩

/-! ## 2. Characters -/

theorem Start.ascii {c : Char} (h : Start c) : c.val < 128 := by
  rcases h with ⟨-, h⟩ | ⟨-, h⟩ | rfl | rfl
  · exact Nat.lt_of_le_of_lt h (by decide)
  · exact Nat.lt_of_le_of_lt h (by decide)
  · decide
  · decide

theorem Start.toUpper {c : Char} (h : Start c) : Start c.toUpper := by
  unfold Char.toUpper
  split
  · next hl =>
    refine .inl ?_
    simp only [Char.le_def, UInt32.le_iff_toNat_le] at hl ⊢
    obtain ⟨h1, h2⟩ := hl
    have e : ('A'.val - 'a'.val).toNat = 4294967264 := by decide
    have ea : 'a'.val.toNat = 97 := by decide
    have ez : 'z'.val.toNat = 122 := by decide
    have eA : 'A'.val.toNat = 65 := by decide
    have eZ : 'Z'.val.toNat = 90 := by decide
    rw [UInt32.toNat_add, e]
    omega
  · exact h

/-! ## 3. Derived names -/

/-- A fragment is capitalized by its first character alone. -/
theorem toList_capitalize {key : String} {c : Char} {rest : List Char} (hk : key.toList = c :: rest)
    (hc : Start c) : (capitalize key).toList = c.toUpper :: rest := by
  unfold capitalize
  rw [hk]
  simp only [String.toList_ofList, Text.upperChar_ascii hc.ascii, List.singleton_append]

theorem Fragment.capitalize {key : String} (h : Fragment key) : Fragment (capitalize key) := by
  obtain ⟨c, rest, hk, hc, hr⟩ := h
  exact ⟨c.toUpper, rest, toList_capitalize hk hc, hc.toUpper, hr⟩

theorem Fragment.append {a b : String} (h : Fragment a) (hb : ∀ d ∈ b.toList, Follow d) :
    Fragment (a ++ b) := by
  obtain ⟨c, rest, ha, hc, hr⟩ := h
  refine ⟨c, rest ++ b.toList, by rw [String.toList_append, ha]; rfl, hc, fun d hd => ?_⟩
  exact (List.mem_append.mp hd).elim (hr d) (hb d)

theorem Fragment.follow {a : String} (h : Fragment a) : ∀ d ∈ a.toList, Follow d := by
  obtain ⟨c, rest, ha, hc, hr⟩ := h
  intro d hd
  rw [ha] at hd
  rcases List.mem_cons.mp hd with rfl | hd
  · exact .inl hc
  · exact hr d hd

/-- Characters of a word that the test takes. -/
theorem follow_of_all {s : String} (h : s.toList.all isIdentifierRest = true) : ∀ d ∈ s.toList, Follow d :=
  fun d hd => (isIdentifierRest_iff d).mp (List.all_eq_true.mp h d hd)

theorem Fragment.view {key : String} (h : Fragment key) : Fragment (view key) :=
  h.capitalize.append (follow_of_all (by decide))

theorem Fragment.layout {key : String} (h : Fragment key) : Fragment (layout key) :=
  h.capitalize.append (follow_of_all (by decide))

theorem view_inj {k l : String} : view k = view l ↔ Name.capitalize k = Name.capitalize l := by
  unfold view
  rw [← String.toList_inj, String.toList_append, String.toList_append, List.append_cancel_right_eq,
    String.toList_inj]

theorem layout_inj {k l : String} : layout k = layout l ↔ Name.capitalize k = Name.capitalize l := by
  unfold layout
  rw [← String.toList_inj, String.toList_append, String.toList_append, List.append_cancel_right_eq,
    String.toList_inj]

end RouteScaffold.Name
