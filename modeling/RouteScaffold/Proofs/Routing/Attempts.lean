import Mathlib.Data.Finset.Card
import Mathlib.Logic.Function.Iterate
import RouteScaffold.Proofs.Names
import RouteScaffold.Proofs.Routing.FreeName

/-!
# Names that are tried

A view tries one name after the other (`Attempt`): it puts the name among those that are taken, and has it if it was not
there before. Nothing bounds how often it tries (`Search.step`).

* `Attempt.text_injective`: no name is tried twice, if a layout is ahead that has a key;
* `Search.after_taken`: where a search stands that has met taken names only;
* `freeName_attempt`: which name it has in the end;
* `Builder.claim_ends`: when it ends, with which name, and what is taken then.
-/

namespace RouteScaffold

/-! ## 1. Names with a layout ahead -/

theorem Text.upperChar_ne_nil (c : Char) : Text.upperChar c ≠ [] := by
  have hsequences : ∀ entry ∈ Text.upperSequences, entry.2 ≠ [] := by decide
  unfold Text.upperChar
  split
  · exact List.cons_ne_nil _ _
  split
  · rename_i codes hcodes
    obtain ⟨before, after, hentries, -⟩ := List.lookup_eq_some_iff.mp hcodes
    have hcodes := hsequences (c.toNat, codes) (by rw [hentries]; exact List.mem_append_right _ List.mem_cons_self)
    exact fun hnil => hcodes (List.map_eq_nil_iff.mp hnil)
  split
  · exact List.cons_ne_nil _ _
  · exact List.cons_ne_nil _ _

theorem Name.toList_capitalize_ne_nil {key : String} (h : key ≠ "") : (Name.capitalize key).toList ≠ [] := by
  unfold Name.capitalize
  split
  · exact fun _ => h (String.toList_eq_nil_iff.mp ‹_›)
  · rw [String.toList_ofList]
    exact List.append_ne_nil_of_left_ne_nil (Text.upperChar_ne_nil _) _

namespace Bindings

/-! ## 2. Attempts -/

/-- What a view tries. -/
inductive Attempt where
  /-- Its own name. -/
  | own
  /-- That name with the layout ahead. -/
  | ahead
  /-- The latter with a number behind. -/
  | number (n : Nat)
  deriving DecidableEq, Repr

namespace Attempt

/-- The name that is tried. -/
def text (layout name : String) : Attempt → String
  | own => name
  | ahead => Name.capitalize layout ++ name
  | number n => numbered (Name.capitalize layout ++ name) n

/-- What is tried next. The numbers begin with 2. -/
def next : Attempt → Attempt
  | own => ahead
  | ahead => number 2
  | number n => number (n + 1)

/-- What is tried behind `k` other attempts. -/
def nth : Nat → Attempt
  | 0 => own
  | 1 => ahead
  | k + 2 => number (k + 2)

theorem next_nth (k : Nat) : (nth k).next = nth (k + 1) := by
  match k with
  | 0 => rfl
  | 1 => rfl
  | k + 2 => rfl

/-- A later attempt tries another name. -/
theorem text_ne_of_lt {layout : String} (h : layout ≠ "") (name : String) {j k : Nat} (hjk : j < k) :
    (nth j).text layout name ≠ (nth k).text layout name := by
  have hlayout : 0 < (Name.capitalize layout).length := by
    rw [← String.length_toList]
    exact List.length_pos_of_ne_nil (Name.toList_capitalize_ne_nil h)
  -- The name is longer, unless both have numbers.
  intro he
  have hlength := congrArg String.length he
  match j, k with
  | 0, 1 =>
      rw [nth, nth, text, text, String.length_append] at hlength
      omega
  | 0, k + 2 =>
      rw [nth, nth, text, text, numbered_eq, String.length_append, String.length_append] at hlength
      omega
  | 1, k + 2 =>
      have hdigits := Nat.length_repr_pos (n := k + 2)
      rw [nth, nth, text, text, numbered_eq, String.length_append _ (k + 2).repr] at hlength
      omega
  | j + 2, k + 2 =>
      have hnumber := numbered_injective _ he
      omega

/-- **No name is tried twice**, if the layout has a key. -/
theorem text_injective {layout : String} (h : layout ≠ "") (name : String) :
    Function.Injective fun k => (nth k).text layout name := by
  intro j k he
  rcases Nat.lt_trichotomy j k with hlt | rfl | hlt
  · exact absurd he (text_ne_of_lt h name hlt)
  · rfl
  · exact absurd he.symm (text_ne_of_lt h name hlt)

end Attempt

/-! ## 3. Searches -/

/-- Puts a name among the taken ones. Says whether it was not there before. -/
def takeIn (taken : List String) (name : String) : Bool × List String :=
  if taken.contains name then (false, taken) else (true, name :: taken)

/-- Where a search for a name stands. -/
inductive Search where
  | trying (attempt : Attempt) (taken : List String)
  | ended (name : String) (taken : List String)
  deriving DecidableEq, Repr

namespace Search

/-- Tries one name. A search that has ended stays so. -/
def step (layout name : String) : Search → Search
  | trying attempt taken =>
    match takeIn taken (attempt.text layout name) with
    | (true, taken) => ended (attempt.text layout name) taken
    | (false, taken) => trying attempt.next taken
  | ended found taken => ended found taken

/-- Where a search stands behind its first `k` attempts. -/
def after (layout name : String) (taken : List String) (k : Nat) : Search :=
  (step layout name)^[k] (trying .own taken)

variable {layout name : String} {taken : List String}

theorem step_taken {attempt : Attempt} (h : attempt.text layout name ∈ taken) :
    step layout name (trying attempt taken) = trying attempt.next taken := by
  rw [step, takeIn, if_pos (List.contains_iff_mem.mpr h)]

theorem step_free {attempt : Attempt} (h : attempt.text layout name ∉ taken) :
    step layout name (trying attempt taken) =
      ended (attempt.text layout name) (attempt.text layout name :: taken) := by
  rw [step, takeIn, if_neg (by rwa [List.contains_iff_mem])]

/-- **A search goes on behind names that are taken**, and takes none. -/
theorem after_taken {k : Nat} (h : ∀ j < k, (Attempt.nth j).text layout name ∈ taken) :
    after layout name taken k = trying (.nth k) taken := by
  induction k with
  | zero => rfl
  | succ k ih =>
      have hbehind := ih fun j hj => h j (by omega)
      rw [after, Function.iterate_succ_apply', ← after, hbehind, step_taken (h k (by omega)), Attempt.next_nth]

/-- It ends with the first that is not. -/
theorem after_free {k : Nat} (h : ∀ j < k, (Attempt.nth j).text layout name ∈ taken)
    (hk : (Attempt.nth k).text layout name ∉ taken) :
    after layout name taken (k + 1) =
      ended ((Attempt.nth k).text layout name) ((Attempt.nth k).text layout name :: taken) := by
  rw [after, Function.iterate_succ_apply', ← after, after_taken h, step_free hk]

end Search

/-! ## 4. The name that is found -/

/-- **A free name is the first that is tried and not taken.** -/
theorem freeName_attempt (taken : List String) (layout name : String) :
    ∃ k, freeName taken layout name = (Attempt.nth k).text layout name ∧
      ∀ j < k, (Attempt.nth j).text layout name ∈ taken := by
  rcases freeName_cases taken layout name with ⟨-, he⟩ | ⟨h0, -, he⟩ | ⟨h0, h1, n, he, hn, -, -, hk⟩
  · exact ⟨0, he, fun j hj => by omega⟩
  · refine ⟨1, he, fun j hj => ?_⟩
    obtain rfl : j = 0 := by omega
    exact h0
  · obtain ⟨k, rfl⟩ : ∃ k, n = k + 2 := ⟨n - 2, by omega⟩
    refine ⟨k + 2, he, fun j hj => ?_⟩
    match j with
    | 0 => exact h0
    | 1 => exact h1
    | j + 2 => exact hk (j + 2) (by omega) hj

/-- Of different names that are all taken there are no more than taken names. -/
theorem le_card_of_taken {layout : String} (h : layout ≠ "") {name : String} {taken : List String} {k : Nat}
    (hk : ∀ j < k, (Attempt.nth j).text layout name ∈ taken) : k ≤ taken.toFinset.card := by
  have hsub : (Finset.range k).image (fun j => (Attempt.nth j).text layout name) ⊆ taken.toFinset := by
    intro x hx
    obtain ⟨j, hj, rfl⟩ := Finset.mem_image.mp hx
    exact List.mem_toFinset.mpr (hk j (Finset.mem_range.mp hj))
  have hcard := Finset.card_le_card hsub
  rwa [Finset.card_image_of_injective _ (Attempt.text_injective h name), Finset.card_range] at hcard

/-- **The search for a name ends behind at most one more attempt than there are taken names**: with the first name that
    is not taken, which alone is taken then besides those that were. -/
theorem Builder.claim_ends (b : Builder) {layout : String} (h : layout ≠ "") (name : String) :
    ∃ k ≤ b.taken.toFinset.card,
      (∀ j ≤ k, Search.after layout name b.taken j = .trying (.nth j) b.taken) ∧
      Search.after layout name b.taken (k + 1) =
        .ended (b.claim layout name).1 (b.claim layout name).2.taken ∧
      (b.claim layout name).1 = (Attempt.nth k).text layout name ∧
      (∀ j < k, (Attempt.nth j).text layout name ∈ b.taken) ∧
      (b.claim layout name).1 ∉ b.taken ∧
      (b.claim layout name).2.taken.toFinset = insert (b.claim layout name).1 b.taken.toFinset ∧
      (b.claim layout name).2.table = b.table := by
  obtain ⟨k, he, htaken⟩ := freeName_attempt b.taken layout name
  have hfree := freeName_not_mem b.taken layout name
  rw [he] at hfree
  have hname : (b.claim layout name).1 = (Attempt.nth k).text layout name := he
  have hafter : (b.claim layout name).2.taken = (b.claim layout name).1 :: b.taken := rfl
  refine ⟨k, le_card_of_taken h htaken, fun j hj => ?_, ?_, hname, htaken, hname ▸ hfree, ?_, rfl⟩
  · exact Search.after_taken fun i hi => htaken i (by omega)
  · rw [Search.after_free htaken hfree, hafter, hname]
  · rw [hafter, List.toFinset_cons]

/-- A view of a second layout, behind one whose name looks like a numbered one. -/
theorem Builder.claim_ends_behind_numbered :
    ("admin" ≠ "") ∧ ∃ k ≤ 3,
      Search.after "admin" "ListView" ["AdminListView2", "AdminListView", "ListView"] k =
        .trying (.nth k) ["AdminListView2", "AdminListView", "ListView"] ∧
      Search.after "admin" "ListView" ["AdminListView2", "AdminListView", "ListView"] (k + 1) =
        .ended "AdminListView3" ["AdminListView3", "AdminListView2", "AdminListView", "ListView"] := by
  have hlayout : "admin" ≠ "" := by decide
  obtain ⟨k, hk, htrying, hended, -⟩ :=
    Builder.claim_ends ⟨[], ["AdminListView2", "AdminListView", "ListView"]⟩ hlayout "ListView"
  have hclaim : (Builder.claim ⟨[], ["AdminListView2", "AdminListView", "ListView"]⟩ "admin" "ListView").1 =
      "AdminListView3" := by decide
  refine ⟨hlayout, k, hk, htrying k (Nat.le_refl k), hended.trans ?_⟩
  rw [Builder.claim] at hclaim ⊢
  dsimp only at hclaim ⊢
  rw [hclaim]

end Bindings

end RouteScaffold
