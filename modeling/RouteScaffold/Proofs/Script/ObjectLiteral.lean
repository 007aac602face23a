import Mathlib.Data.List.Sort
import RouteScaffold.Proofs.Names
import RouteScaffold.Proofs.Script.Evaluation

/-!
# Object literals

What the expression `{ … }` gives, and in which order the members of an object are gone through:

* the members are made one after the other, inner literals ahead of the member they stand under (`Value.made?`); a
  repeated name gives its member another value, and `__proto__` makes no member (`Value.put?`);
* names that are numbers of places in an array come first, by size, and behind them the other names as they were made
  (`Value.listed?`).

No identifier fragment is such a number (`index?_fragment`), so that objects under fragments are gone through as they
were made (`listed?_eq_entries?`).
-/

namespace RouteScaffold.Script

/-! ## 1. What a literal gives -/

namespace Value

mutual

/-- The value of what stands in a literal, read member by member. Behind an object nothing can be written. -/
def made? : Value → Option Value
  | .object own none =>
    (madeAll? own).bind fun own => own.foldlM (fun object m => object.put? (.text m.1) m.2) (.plain [])
  | .object _ (some _) => none
  | value => some value

/-- The members that are written in a literal with their values. -/
def madeAll? : Members → Option Members
  | [] => some []
  | (name, value) :: rest => value.made?.bind fun value => (madeAll? rest).map fun rest => (name, value) :: rest

end

theorem made?_plain (own : Members) : (plain own).made? =
    (madeAll? own).bind fun own => own.foldlM (fun object m => object.put? (.text m.1) m.2) (.plain []) := by
  rw [plain, made?]

theorem madeAll?_cons {name : String} {value made : Value} {rest others : Members} (h : value.made? = some made)
    (hr : madeAll? rest = some others) : madeAll? ((name, value) :: rest) = some ((name, made) :: others) := by
  rw [madeAll?, h, hr]
  rfl

/-- **A literal under names that differ** makes the object that its members assemble. -/
theorem made?_plain_eq {own members : Members} (h : madeAll? own = some members) (hn : (Keyed.keys members).Nodup) :
    (plain own).made? = some (assembled members) := by
  rw [made?_plain, h, Option.bind_some]
  exact foldlM_put?_plain hn

end Value

/-! ## 2. The order of members -/

/-- The number that digits are read as. -/
def numeral (digits : List Char) : Nat := digits.foldl (fun n c => 10 * n + (c.toNat - '0'.toNat)) 0

/-- The place in an array that a name is the number of, written without leading zeros. -/
def index? (name : String) : Option Nat :=
  if numeral name.toList < Nat.pow 2 32 - 1 ∧ toString (numeral name.toList) = name then some (numeral name.toList)
  else none

theorem isDigit_of_start {c : Char} (h : Name.Start c) : c.isDigit = false := by
  have hdigit : c.isDigit = (decide ('0' ≤ c) && decide (c ≤ '9')) := rfl
  rw [hdigit, Bool.and_eq_false_imp]
  intro h0
  rw [decide_eq_true_eq] at h0
  rw [decide_eq_false_iff_not]
  intro h9
  simp only [Char.le_def, UInt32.le_iff_toNat_le] at h0 h9
  have e9 : '9'.val.toNat = 57 := by decide
  rcases h with ⟨hA, -⟩ | ⟨ha, -⟩ | rfl | rfl
  · have eA : 'A'.val.toNat = 65 := by decide
    rw [Char.le_def, UInt32.le_iff_toNat_le] at hA
    omega
  · have ea : 'a'.val.toNat = 97 := by decide
    rw [Char.le_def, UInt32.le_iff_toNat_le] at ha
    omega
  · exact absurd h9 (by decide)
  · exact absurd h0 (by decide)

/-- **No identifier fragment is the number of a place**, since it does not begin with a digit. -/
theorem index?_fragment {name : String} (h : Name.Fragment name) : index? name = none := by
  refine if_neg fun hn => ?_
  obtain ⟨c, rest, hname, hstart, -⟩ := h
  have hdigits : c ∈ Nat.toDigits 10 (numeral name.toList) := by
    rw [← Nat.toList_repr, ← Nat.toString_eq_repr, hn.2, hname]
    exact List.mem_cons_self
  have hdigit := Nat.isDigit_of_mem_toDigits (by decide) (by decide) hdigits
  rw [isDigit_of_start hstart] at hdigit
  exact Bool.false_ne_true hdigit

namespace Value

/-- The members of an object in the order in which they are gone through. -/
def listed? : Value → Option Members
  | .object own _ =>
    let numbered := own.filterMap fun m => (index? m.1).map fun n => (n, m)
    some ((numbered.insertionSort fun a b => a.1 ≤ b.1).map Prod.snd ++ own.filter fun m => (index? m.1).isNone)
  | _ => none

/-- **Objects without numbers among their names** are gone through as they were made. -/
theorem listed?_eq_entries? {own : Members} (h : ∀ m ∈ own, index? m.1 = none) (behind : Option Value) :
    (object own behind).listed? = (object own behind).entries? := by
  have hnone : (own.filterMap fun m => (index? m.1).map fun n => (n, m)) = [] :=
    List.filterMap_eq_nil_iff.mpr fun m hm => by rw [h m hm]; rfl
  have hall : (own.filter fun m => (index? m.1).isNone) = own :=
    List.filter_eq_self.mpr fun m hm => by rw [h m hm]; rfl
  rw [listed?, hnone, hall]
  rfl

example : (plain [("b", .nothing), ("10", .nothing), ("a", .nothing), ("9", .nothing), ("01", .nothing)]).listed?.map
    Keyed.keys = some ["9", "10", "b", "a", "01"] := by decide

end Value

end RouteScaffold.Script
