import RouteScaffold.Routing.Binding

/-!
# Free names

`Bindings.freeName` tries a view's own name, the name with the layout ahead and then that name with a number
behind. The numbers are tried with a bound, the number of taken names:

* `firstFree_cases`: the search ends at a number all of whose predecessors are taken; if that number is taken
  too, the search ran to its bound;
* `firstFree_spec`: numbered names are distinct, so that not all up to the bound can be taken;
* `freeName_cases`, `freeName_not_mem`: the name is the first free one of the three forms.
-/

namespace RouteScaffold.Bindings

/-! ## 1. Numbered names -/

theorem numbered_eq (stem : String) (n : Nat) : numbered stem n = stem ++ n.repr := rfl

theorem numbered_injective (stem : String) {m n : Nat} (h : numbered stem m = numbered stem n) : m = n := by
  have hl := congrArg String.toList h
  rw [numbered_eq, numbered_eq, String.toList_append, String.toList_append] at hl
  have hd := List.append_cancel_left hl
  rw [Nat.toList_repr, Nat.toList_repr] at hd
  rw [← Nat.ofDigitChars_toDigits (b := 10) (n := m) (by decide) (by decide), hd,
    Nat.ofDigitChars_toDigits (by decide) (by decide)]

/-! ## 2. The search -/

/-- **Where the search ends**: at a number whose predecessors are taken, either free or at the bound. -/
theorem firstFree_cases (taken : List String) (stem : String) (fuel n : Nat) :
    ∃ m, firstFree taken stem fuel n = numbered stem m ∧ n ≤ m ∧ m ≤ n + fuel ∧
      (∀ k, n ≤ k → k < m → numbered stem k ∈ taken) ∧ (numbered stem m ∈ taken → m = n + fuel) := by
  induction fuel generalizing n with
  | zero => exact ⟨n, rfl, Nat.le_refl n, Nat.le_refl n, fun k h1 h2 => by omega, fun _ => rfl⟩
  | succ fuel ih =>
      unfold firstFree
      by_cases hn : numbered stem n ∈ taken
      · obtain ⟨m, he, h1, h2, h3, h4⟩ := ih (n + 1)
        rw [if_pos (by simpa using hn)]
        refine ⟨m, he, by omega, by omega, fun k hk hm => ?_, fun hm => ?_⟩
        · by_cases hkn : k = n
          · rw [hkn]
            exact hn
          · exact h3 k (by omega) hm
        · have := h4 hm
          omega
      · rw [if_neg (by simpa using hn)]
        exact ⟨n, rfl, Nat.le_refl n, by omega, fun k h1 h2 => by omega, fun h => absurd h hn⟩

/-- **The search bounded by the number of taken names ends at the first free one.** -/
theorem firstFree_spec (taken : List String) (stem : String) (n : Nat) :
    ∃ m, firstFree taken stem taken.length n = numbered stem m ∧ n ≤ m ∧ m ≤ n + taken.length ∧
      numbered stem m ∉ taken ∧ ∀ k, n ≤ k → k < m → numbered stem k ∈ taken := by
  obtain ⟨m, he, h1, h2, h3, h4⟩ := firstFree_cases taken stem taken.length n
  refine ⟨m, he, h1, h2, fun hm => ?_, h3⟩
  have hlen := h4 hm
  -- all numbers from `n` to the bound are taken: one more than there are taken names
  have hsub : (List.range (taken.length + 1)).map (fun i => numbered stem (n + i)) ⊆ taken := by
    intro x hx
    obtain ⟨i, hi, rfl⟩ := List.mem_map.mp hx
    rw [List.mem_range] at hi
    by_cases hin : n + i = m
    · rw [hin]
      exact hm
    · exact h3 (n + i) (by omega) (by omega)
  have hnodup : ((List.range (taken.length + 1)).map fun i => numbered stem (n + i)).Nodup := by
    refine List.pairwise_map.mpr (List.nodup_range.imp fun {a b} hab he => hab ?_)
    have := numbered_injective stem he
    omega
  have := hnodup.length_le_of_subset hsub
  rw [List.length_map, List.length_range] at this
  omega

/-! ## 3. The name -/

/-- **The forms of a free name**, each behind those that are taken: the name, the name with the layout ahead, and
    that name with the first number from 2 on that makes it free. -/
theorem freeName_cases (taken : List String) (layout name : String) :
    (name ∉ taken ∧ freeName taken layout name = name) ∨
    (name ∈ taken ∧ Name.capitalize layout ++ name ∉ taken ∧
      freeName taken layout name = Name.capitalize layout ++ name) ∨
    (name ∈ taken ∧ Name.capitalize layout ++ name ∈ taken ∧
      ∃ n, freeName taken layout name = numbered (Name.capitalize layout ++ name) n ∧ 2 ≤ n ∧
        n ≤ 2 + taken.length ∧ numbered (Name.capitalize layout ++ name) n ∉ taken ∧
        ∀ k, 2 ≤ k → k < n → numbered (Name.capitalize layout ++ name) k ∈ taken) := by
  unfold freeName
  by_cases h1 : name ∈ taken
  · by_cases h2 : Name.capitalize layout ++ name ∈ taken
    · simp only [List.contains_iff_mem.mpr h1, List.contains_iff_mem.mpr h2, Bool.not_true,
        Bool.false_eq_true, if_false]
      exact .inr (.inr ⟨h1, h2, firstFree_spec taken _ 2⟩)
    · have h2' : taken.contains (Name.capitalize layout ++ name) = false := by simpa using h2
      simp only [List.contains_iff_mem.mpr h1, h2', Bool.not_true, Bool.not_false, Bool.false_eq_true,
        if_false, if_true]
      exact .inr (.inl ⟨h1, h2, trivial⟩)
  · have h1' : taken.contains name = false := by simpa using h1
    simp only [h1', Bool.not_false, if_true]
    exact .inl ⟨h1, trivial⟩

/-- **A free name is free.** -/
theorem freeName_not_mem (taken : List String) (layout name : String) :
    freeName taken layout name ∉ taken := by
  rcases freeName_cases taken layout name with ⟨h, he⟩ | ⟨-, h, he⟩ | ⟨-, -, n, he, -, -, h, -⟩
  all_goals
    rw [he]
    exact h

end RouteScaffold.Bindings
