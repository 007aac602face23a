import RouteScaffold.Text.Upper

/-!
# Letters without case

Two characters are the same letter if simple case folding takes them to one character. `canonical` picks
the upper case of a letter to stand for all its forms; `variants` lists the forms of a letter.
-/

namespace RouteScaffold.Text

/-! ## 1. The form that stands for a letter -/

/-- The letters whose case folds to a letter other than the one the upper-case table gives: signs
that are letters, and Greek letters with an iota below. -/
def foldedSigns : List (Nat × Nat) :=
  [(0x131, 0x131), (0x1E9E, 0xDF), (0x3F4, 0x398), (0x2126, 0x3A9), (0x212A, 0x4B), (0x212B, 0xC5),
   (0x1FB3, 0x1FBC), (0x1FC3, 0x1FCC), (0x1FF3, 0x1FFC)] ++
  (List.range 8).map (fun n => (0x1F80 + n, 0x1F88 + n)) ++
  (List.range 8).map (fun n => (0x1F90 + n, 0x1F98 + n)) ++
  (List.range 8).map (fun n => (0x1FA0 + n, 0x1FA8 + n))

/-- The upper-case form of a letter that has one. -/
def canonical (c : Char) : Char :=
  if c.val < 128 then c.toUpper
  else
    match foldedSigns.lookup c.toNat with
    | some code => Char.ofNat code
    | none =>
      match upperChar c with
      | [upper] => upper
      | _ => c

/-! ## 2. All forms of a letter -/

/-- The characters that the upper-case table takes to a code point. -/
def lowerForms (code : Nat) : List Char :=
  upperRanges.filterMap fun run =>
    let lower := (Int.ofNat code - run.shift).toNat
    if run.holds lower then some (Char.ofNat lower) else none

/-- The forms of a letter, among them the character itself. -/
def variants (c : Char) : List Char :=
  let upper := canonical c
  let signs := foldedSigns.filterMap fun (sign, code) =>
    if code = upper.toNat then some (Char.ofNat sign) else none
  let forms := upper :: lowerForms upper.toNat ++ signs
  c :: forms.filter fun form => canonical form = upper

end RouteScaffold.Text
