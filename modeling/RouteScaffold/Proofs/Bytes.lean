import Mathlib.Logic.Function.Basic
import Mathlib.Tactic.SplitIfs
import RouteScaffold.ToolRun

/-!
# Texts as bytes

The bytes of a text are those of its characters one after the other (`bytes_eq`), so that texts and their bytes stand in
the same order (`bytes_lt`).
-/

namespace RouteScaffold.Text

/-- The bytes of a text. -/
def bytes (text : String) : List UInt8 := text.toUTF8.data.toList

theorem bytes_eq (text : String) : bytes text = text.toList.flatMap String.utf8EncodeChar := by
  rw [bytes, String.toUTF8_eq_toByteArray, ← String.utf8Encode_toList, List.utf8Encode, List.data_toByteArray]

/-- **Bytes of a text are read as the text.** -/
theorem text?_bytes (text : String) : ToolRun.text? (bytes text) = some text := by
  have hvalid : ByteArray.IsValidUTF8 ⟨(bytes text).toArray⟩ := text.isValidUTF8
  rw [ToolRun.text?, String.fromUTF8?, dif_pos hvalid]
  rfl

theorem bytes_injective : Function.Injective bytes := by
  intro s t h
  have hs := text?_bytes s
  rw [h, text?_bytes] at hs
  exact (Option.some_inj.mp hs).symm

/-! ## 1. Order -/

section Byte

variable {m n : Nat} (hm : m < 256) (hn : n < 256)

include hm hn

theorem ofNat_lt_iff : UInt8.ofNat m < UInt8.ofNat n ↔ m < n := by
  rw [UInt8.lt_iff_toNat_lt, UInt8.toNat_ofNat_of_lt' hm, UInt8.toNat_ofNat_of_lt' hn]

theorem ofNat_eq_iff : UInt8.ofNat m = UInt8.ofNat n ↔ m = n := by
  rw [← UInt8.toNat_inj, UInt8.toNat_ofNat_of_lt' hm, UInt8.toNat_ofNat_of_lt' hn]

end Byte

/-- Where two characters differ, so do their bytes, and the same way round. -/
theorem utf8EncodeChar_lt {a b : Char} (h : a < b) (more more' : List UInt8) :
    String.utf8EncodeChar a ++ more < String.utf8EncodeChar b ++ more' := by
  have hlt : a.val.toNat < b.val.toNat := UInt32.lt_iff_toNat_lt.mp h
  have hbound : b.val.toNat < 1114112 := b.valid.elim (fun h => by omega) And.right
  unfold String.utf8EncodeChar
  dsimp only
  generalize a.val.toNat = m at *
  generalize b.val.toNat = n at *
  -- Of the digits to the base 64 the first that differ decide, and the first of all is small.
  have hlast : m / 64 < n / 64 ∨ m / 64 = n / 64 ∧ m % 64 < n % 64 := by omega
  have hsecond : m / 64 < n / 64 →
      m / 4096 < n / 4096 ∨ m / 4096 = n / 4096 ∧ m / 64 % 64 < n / 64 % 64 := by omega
  have hthird : m / 4096 < n / 4096 →
      m / 262144 < n / 262144 ∨ m / 262144 = n / 262144 ∧ m / 4096 % 64 < n / 4096 % 64 := by omega
  have hm : m / 262144 % 8 = m / 262144 := by omega
  have hn : n / 262144 % 8 = n / 262144 := by omega
  split_ifs
  all_goals
    simp only [List.cons_append, List.nil_append, List.cons_lt_cons_iff]
    simp (disch := omega) only [ofNat_lt_iff, ofNat_eq_iff]
    omega

theorem flatMap_utf8EncodeChar_lt {s t : List Char} (h : s < t) :
    s.flatMap String.utf8EncodeChar < t.flatMap String.utf8EncodeChar := by
  induction s generalizing t with
  | nil =>
      cases t with
      | nil => exact absurd h (List.not_lt_nil _)
      | cons c rest =>
          obtain ⟨byte, more, hc⟩ := List.exists_cons_of_ne_nil (String.utf8EncodeChar_ne_nil (c := c))
          rw [List.flatMap_nil, List.flatMap_cons, hc]
          exact List.nil_lt_cons _ _
  | cons a s ih =>
      cases t with
      | nil => exact absurd h (List.not_lt_nil _)
      | cons b t =>
          rw [List.flatMap_cons, List.flatMap_cons]
          rcases List.cons_lt_cons_iff.mp h with hlt | ⟨rfl, hlt⟩
          · exact utf8EncodeChar_lt hlt _ _
          · exact List.append_left_lt (ih hlt)

/-- **Texts stand in the order of their bytes.** -/
theorem bytes_lt {s t : String} (h : s < t) : bytes s < bytes t := by
  rw [bytes_eq, bytes_eq]
  exact flatMap_utf8EncodeChar_lt h

end RouteScaffold.Text
