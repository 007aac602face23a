import Mathlib.Data.Finset.Card
import RouteScaffold.Proofs.Files.Tracked

/-!
# What tracked directories add

Directories that are tracked one after the other meet: one may stand on the way of another, and what is put into it for
that one keeps it too. What they add together is taken from what each adds to the disk that those ahead of it leave
(`Disk.Equips.trans`).

* `Disk.Equips`: what is kept, what is new, and how many files are;
* `Filing.equips_ensureTracked`: one directory.
-/

namespace RouteScaffold

namespace Disk

variable {paths more : List String} {d d' d'' : Disk} {n m : Nat}

/-- A file stands where nothing has been. -/
def NewFile (d d' : Disk) (x : Place) : Prop := d.entry? x = none ∧ ∃ content, d'.entry? x = some (.file content)

/-- Tracked directories are made at the ends of paths, with `n` files that keep them. -/
structure Equips (paths : List String) (d d' : Disk) (n : Nat) : Prop extends Furnishes paths d d' where
  counted : ∃ files : Finset Place, files.card = n ∧ ∀ x, x ∈ files ↔ NewFile d d' x

/-- Where no file is new there is none to count. -/
theorem Furnishes.equips (h : Furnishes paths d d') (hno : ∀ x, ¬ NewFile d d' x) : Equips paths d d' 0 where
  toFurnishes := h
  counted := ⟨∅, rfl, fun x => iff_of_false (Finset.notMem_empty x) (hno x)⟩

theorem Equips.refl (paths : List String) (d : Disk) : Equips paths d d 0 := by
  refine (Furnishes.refl paths d).equips fun x => ?_
  rintro ⟨hnone, content, he⟩
  rw [hnone] at he
  cases he

theorem Equips.mono (h : Equips paths d d' n) (hsub : paths ⊆ more) : Equips more d d' n where
  toFurnishes := h.toFurnishes.mono hsub
  counted := h.counted

/-- A file that is new in the end has been so at once, or has become so. -/
theorem newFile_iff (h : Equips paths d d' n) (h' : Equips paths d' d'' m) (x : Place) :
    NewFile d d'' x ↔ NewFile d d' x ∨ NewFile d' d'' x := by
  constructor
  · rintro ⟨hnone, content, he⟩
    cases hmiddle : d'.entry? x with
    | none => exact .inr ⟨hmiddle, content, he⟩
    | some e =>
        have hkept := h'.kept hmiddle
        rw [he] at hkept
        cases hkept
        exact .inl ⟨hnone, content, hmiddle⟩
  · rintro (⟨hnone, content, he⟩ | ⟨hnone, content, he⟩)
    · exact ⟨hnone, content, h'.kept he⟩
    · refine ⟨?_, content, he⟩
      cases hfirst : d.entry? x with
      | none => rfl
      | some e =>
          rw [h.kept hfirst] at hnone
          cases hnone

/-- **What directories add and what others add behind them** is what all add together. -/
theorem Equips.trans (h : Equips paths d d' n) (h' : Equips paths d' d'' m) : Equips paths d d'' (n + m) where
  toFurnishes := h.toFurnishes.trans h'.toFurnishes
  counted := by
    obtain ⟨files, hcard, hfiles⟩ := h.counted
    obtain ⟨others, hcard', hothers⟩ := h'.counted
    have hdisjoint : Disjoint files others := by
      rw [Finset.disjoint_left]
      intro x hx hx'
      obtain ⟨-, content, he⟩ := (hfiles x).mp hx
      rw [((hothers x).mp hx').1] at he
      cases he
    refine ⟨files ∪ others, ?_, fun x => ?_⟩
    · rw [Finset.card_union_of_disjoint hdisjoint, hcard, hcard']
    · rw [Finset.mem_union, hfiles, hothers, newFile_iff h h']

/-- Directories alone are no files. -/
theorem Adds.equips {path : String} (h : Adds (way d.here path) d d') : Equips [path] d d' 0 := by
  refine h.furnishes.equips fun x => ?_
  rintro ⟨hnone, content, he⟩
  cases (h.made hnone he).2

end Disk

open Disk

namespace Filing

variable {path : String} {d d' : Disk}

/-- The file that keeps an empty directory is new. -/
theorem equips_touch (hempty : d.children (target d.here path) = [])
    (h : (touch (Path.join path keeper)).run d = (.ok (), d')) : Equips [path] d d' 1 := by
  have hfurnishes := furnishes_touch hempty
  rw [h] at hfurnishes
  obtain ⟨hne, rfl, -⟩ := put_write h
  rw [target_keeper] at hne ⊢
  have hnone : d.entry? (target d.here path ++ [keeper]) = none := children_eq_nil_iff.mp hempty keeper
  rw [target_keeper] at hfurnishes
  refine ⟨hfurnishes, {target d.here path ++ [keeper]}, Finset.card_singleton _, fun x => ?_⟩
  rw [Finset.mem_singleton, NewFile, entry?_put d hne]
  constructor
  · rintro rfl
    rw [if_pos rfl]
    exact ⟨hnone, _, rfl⟩
  · rintro ⟨hx, content, he⟩
    by_contra hplace
    rw [if_neg hplace, hx] at he
    cases he

/-- **A tracked directory adds what is missing on its way**, and a file where it has been empty. -/
theorem equips_ensureTracked {made : Bool} (h : (ensureTracked path).run d = (.ok made, d')) :
    Equips [path] d d' (if made then 1 else 0) := by
  rw [ensureTracked_eq] at h
  obtain ⟨⟨⟩, d₁, hmade, h⟩ := run_bind_eq_ok.mp h
  have hdirectories := (makes_ensureDirectory hmade).adds.equips
  cases hlist : d₁.list path with
  | error e =>
      rw [run_ask_bind_of_error hlist] at h
      cases h
  | ok entries =>
      rw [run_ask_bind_of_ok hlist] at h
      obtain ⟨-, rfl⟩ := list_eq_ok_iff.mp hlist
      cases hempty : (d₁.children (target d₁.here path)).isEmpty with
      | false =>
          rw [hempty, if_neg Bool.false_ne_true] at h
          cases h
          exact hdirectories
      | true =>
          rw [hempty, if_pos rfl] at h
          obtain ⟨⟨⟩, d₂, htouch, h⟩ := run_bind_eq_ok.mp h
          cases h
          exact hdirectories.trans (equips_touch (List.isEmpty_iff.mp hempty) htouch)

end Filing

end RouteScaffold
