import Mathlib.Data.List.TakeWhile
import Mathlib.Logic.Function.Basic
import RouteScaffold.ToolRun

/-!
# Lines that are handed on

What a tool writes is, in one way only, lines with their ends and what stands behind the last of them (`Written`). The
loop takes one line after the other (`nextLine?_line`, `nextLine?_tail`) and stops behind the first that is no text.

* `Written.forward_bytes`: what it hands on, and what it leaves unread;
* `handed_on`: when nothing is lost;
* `lines_behind_no_text_lost`: a line that is text is lost.
-/

namespace RouteScaffold.ToolRun

/-! ## 1. What is written -/

/-- What ends a line: a line feed, alone or behind a carriage return. -/
inductive LineEnd where
  | feed
  | returnFeed
  deriving DecidableEq

def LineEnd.bytes : LineEnd → List UInt8
  | .feed => [10]
  | .returnFeed => [13, 10]

/-- A line with its end. A carriage return right before a line feed belongs to the end. -/
structure Line where
  content : List UInt8
  ending : LineEnd
  no_feed : 10 ∉ content
  no_return : ending = .feed → content.getLast? ≠ some 13

def Line.bytes (line : Line) : List UInt8 := line.content ++ line.ending.bytes

/-- Lines one after the other, and what stands behind the last line end. -/
inductive Written where
  | tail (content : List UInt8) (no_feed : 10 ∉ content)
  | cons (line : Line) (more : Written)

namespace Written

def bytes : Written → List UInt8
  | .tail content _ => content
  | .cons line more => line.bytes ++ more.bytes

/-- The lines without their ends. What stands behind the last line end is a line too, unless it is empty. -/
def contents : Written → List (List UInt8)
  | .tail content _ => if content = [] then [] else [content]
  | .cons line more => line.content :: more.contents

theorem contents_eq_nil_iff (w : Written) : w.contents = [] ↔ w.bytes = [] := by
  cases w with
  | tail content no_feed =>
      by_cases h : content = [] <;> simp [contents, Written.bytes, h]
  | cons line more =>
      have hbytes : line.bytes ≠ [] := by
        unfold Line.bytes
        cases line.ending <;> exact List.append_ne_nil_of_right_ne_nil _ (List.cons_ne_nil _ _)
      simp [contents, Written.bytes, hbytes]

end Written

/-! ## 2. The next line -/

theorem all_ne_feed {bytes : List UInt8} (h : 10 ∉ bytes) : ∀ byte ∈ bytes, (byte != 10) = true :=
  fun _ hb => bne_iff_ne.mpr fun e => h (e ▸ hb)

section Next

variable {front : List UInt8} (h : 10 ∉ front) (rest : List UInt8)

include h

theorem front_takeWhile : (front ++ 10 :: rest).takeWhile (· != 10) = front := by
  rw [List.takeWhile_append_of_pos (all_ne_feed h), List.takeWhile_cons_of_neg (by decide), List.append_nil]

theorem front_dropWhile : (front ++ 10 :: rest).dropWhile (· != 10) = 10 :: rest := by
  rw [List.dropWhile_append_of_pos (all_ne_feed h), List.dropWhile_cons_of_neg (by decide)]

theorem nextLine?_feed : nextLine? (front ++ 10 :: rest) =
    some (if front.getLast? == some 13 then front.dropLast else front, rest) := by
  have hne : (front ++ 10 :: rest).isEmpty = false := by simp
  rw [nextLine?, hne, if_neg Bool.false_ne_true, front_takeWhile h, front_dropWhile h]

end Next

/-- **The next line is the first that has been written**, and the others are what stands behind it. -/
theorem nextLine?_line (line : Line) (rest : List UInt8) :
    nextLine? (line.bytes ++ rest) = some (line.content, rest) := by
  obtain ⟨content, ending, no_feed, no_return⟩ := line
  cases ending with
  | feed =>
      have hbytes : Line.bytes ⟨content, .feed, no_feed, no_return⟩ ++ rest = content ++ 10 :: rest := by
        simp [Line.bytes, LineEnd.bytes]
      have hlast : ¬ (content.getLast? == some 13) = true := by simpa using no_return rfl
      rw [hbytes, nextLine?_feed no_feed, if_neg hlast]
  | returnFeed =>
      have hbytes : Line.bytes ⟨content, .returnFeed, no_feed, no_return⟩ ++ rest =
        (content ++ [13]) ++ 10 :: rest := by
        simp [Line.bytes, LineEnd.bytes]
      have hfront : 10 ∉ content ++ [13] := by simpa using no_feed
      rw [hbytes, nextLine?_feed hfront, List.getLast?_concat, if_pos (beq_self_eq_true _), List.dropLast_concat]

/-- **Bytes without a line feed are one line**, unless there are none. -/
theorem nextLine?_tail {bytes : List UInt8} (h : 10 ∉ bytes) :
    nextLine? bytes = if bytes = [] then none else some (bytes, []) := by
  have hall := all_ne_feed h
  unfold nextLine?
  by_cases hne : bytes = []
  · simp [hne]
  · rw [if_neg hne, if_neg (by simpa using hne), List.dropWhile_eq_nil_iff.2 hall, List.takeWhile_eq_self_iff.2 hall]

/-! ## 3. One way to read bytes -/

namespace Written

/-- A byte ahead of what is written: a line feed is a line of its own, a carriage return may join a line end, and every
    other byte stands at the beginning of the first line. -/
theorem exists_cons (byte : UInt8) (w : Written) : ∃ w' : Written, w'.bytes = byte :: w.bytes := by
  by_cases hfeed : byte = 10
  · subst hfeed
    exact ⟨.cons ⟨[], .feed, by simp, by simp⟩ w, rfl⟩
  · cases w with
    | tail content no_feed => exact ⟨.tail (byte :: content) (by simp [no_feed, Ne.symm hfeed]), rfl⟩
    | cons line more =>
        obtain ⟨content, ending, no_feed, no_return⟩ := line
        have hcontent : 10 ∉ byte :: content := by simp [no_feed, Ne.symm hfeed]
        by_cases hend : ending = .feed ∧ (byte :: content).getLast? = some 13
        · -- The byte is then the carriage return of an empty line.
          obtain ⟨rfl, hlast⟩ := hend
          cases content with
          | nil =>
              cases hlast
              exact ⟨.cons ⟨[], .returnFeed, by simp, by simp⟩ more, rfl⟩
          | cons first others => exact absurd (List.getLast?_cons_cons ▸ hlast) (no_return rfl)
        · exact ⟨.cons ⟨byte :: content, ending, hcontent, fun e hlast => hend ⟨e, hlast⟩⟩ more, rfl⟩

/-- Any bytes can be written, -/
theorem surjective_bytes : Function.Surjective bytes := by
  intro all
  induction all with
  | nil => exact ⟨.tail [] (List.not_mem_nil), rfl⟩
  | cons byte others ih =>
      obtain ⟨w, rfl⟩ := ih
      exact exists_cons byte w

theorem tail_ne_cons {content : List UInt8} (h : 10 ∉ content) (line : Line) (more : Written) :
    content ≠ (Written.cons line more).bytes := by
  rintro rfl
  refine h (List.mem_append_left _ (List.mem_append_right _ ?_))
  cases line.ending <;> simp [LineEnd.bytes]

/-- and in one way only. -/
theorem injective_bytes : Function.Injective bytes := by
  intro w
  induction w with
  | tail content no_feed =>
      intro w' h
      cases w' with
      | tail content' no_feed' =>
          cases (h : content = content')
          rfl
      | cons line more => exact absurd h (tail_ne_cons no_feed line more)
  | cons line more ih =>
      intro w' h
      cases w' with
      | tail content' no_feed' => exact absurd h.symm (tail_ne_cons no_feed' line more)
      | cons line' more' =>
          have heq : line.bytes ++ more.bytes = line'.bytes ++ more'.bytes := h
          have hnext := nextLine?_line line more.bytes
          rw [heq, nextLine?_line] at hnext
          obtain ⟨hcontent, hmore⟩ := Prod.mk.inj (Option.some.inj hnext)
          rw [hmore] at heq
          have hbytes : line.bytes = line'.bytes := List.append_cancel_right heq
          obtain ⟨content, ending, _, _⟩ := line
          obtain ⟨content', ending', _, _⟩ := line'
          cases (hcontent : content' = content)
          have hending : ending = ending' := by
            have hends : ending.bytes = ending'.bytes := List.append_cancel_left hbytes
            cases ending <;> cases ending' <;> simp_all [LineEnd.bytes]
          subst hending
          rw [ih hmore.symm]

end Written

/-! ## 4. The loop -/

/-- Is a line text? -/
def IsText (line : List UInt8) : Prop := (text? line).isSome = true

instance (line : List UInt8) : Decidable (IsText line) := inferInstanceAs (Decidable (_ = true))

theorem forward_of_none {bytes : List UInt8} (h : nextLine? bytes = none) : forward bytes = ([], []) := by
  rw [forward]
  split
  · rfl
  · next line rest hnext => rw [h] at hnext; cases hnext

theorem forward_of_some {bytes line rest : List UInt8} (h : nextLine? bytes = some (line, rest)) :
    forward bytes = match text? line with
      | none => ([], rest)
      | some text => (text :: (forward rest).1, (forward rest).2) := by
  rw [forward]
  split
  · next hnext => rw [h] at hnext; cases hnext
  · next line' rest' hnext =>
    cases h.symm.trans hnext
    rfl

namespace Written

/-- What stands behind the first line that is no text, if that line has an end. -/
def unread : Written → List UInt8
  | .tail _ _ => []
  | .cons line more => if IsText line.content then more.unread else more.bytes

/-- **The loop hands on the lines ahead of the first that is no text** and leaves unread what stands behind that one. -/
theorem forward_bytes (w : Written) :
    forward w.bytes = ((w.contents.takeWhile fun line => IsText line).filterMap text?, w.unread) := by
  induction w with
  | tail content no_feed =>
      have hnext := nextLine?_tail no_feed
      have hnil : forward [] = ([], []) := forward_of_none rfl
      by_cases hne : content = []
      · simp [Written.bytes, hne, contents, unread, hnil]
      · rw [if_neg hne] at hnext
        cases htext : text? content <;>
          simp [Written.bytes, forward_of_some hnext, hnil, contents, unread, hne, IsText, htext]
  | cons line more ih =>
      rw [Written.bytes, forward_of_some (nextLine?_line line more.bytes), ih]
      cases htext : text? line.content <;> simp [contents, unread, IsText, htext]

theorem unread_suffix (w : Written) : w.unread <:+ w.bytes := by
  induction w with
  | tail content no_feed => exact List.nil_suffix
  | cons line more ih =>
      unfold unread
      split
      · exact ih.trans (List.suffix_append _ _)
      · exact List.suffix_append _ _

/-- Everything is read exactly if every line ahead of the last is text. -/
theorem unread_eq_nil_iff (w : Written) : w.unread = [] ↔ ∀ line ∈ w.contents.dropLast, IsText line := by
  induction w with
  | tail content no_feed => by_cases h : content = [] <;> simp [unread, contents, h]
  | cons line more ih =>
      by_cases hlast : more.contents = []
      · have hbytes := more.contents_eq_nil_iff.mp hlast
        have hunread : more.unread = [] := ih.mpr (by simp [hlast])
        simp [unread, contents, hlast, hbytes, hunread]
      · have hbytes : more.bytes ≠ [] := fun e => hlast (more.contents_eq_nil_iff.mpr e)
        rw [contents, List.dropLast_cons_of_ne_nil hlast, List.forall_mem_cons, ← ih, unread]
        by_cases htext : IsText line.content <;> simp [htext, hbytes]

end Written

/-- The lines ahead of the first that is no text are all that are text exactly if none of those behind it is. -/
theorem filterMap_takeWhile_iff (lines : List (List UInt8)) :
    (lines.takeWhile fun line => IsText line).filterMap text? = lines.filterMap text? ↔
      ∀ line ∈ lines.dropWhile fun line => IsText line, ¬ IsText line := by
  have hsplit := List.takeWhile_append_dropWhile (p := fun line => decide (IsText line)) (l := lines)
  have hall : lines.filterMap text? = (lines.takeWhile fun line => IsText line).filterMap text? ++
      (lines.dropWhile fun line => IsText line).filterMap text? := by
    rw [← List.filterMap_append, hsplit]
  rw [hall, List.self_eq_append_right, List.filterMap_eq_nil_iff]
  simp only [IsText, Option.not_isSome_iff_eq_none]

theorem not_isText_of_dropLast {lines : List (List UInt8)} (h : ∀ line ∈ lines.dropLast, IsText line) :
    ∀ line ∈ lines.dropWhile fun line => IsText line, ¬ IsText line := by
  rcases List.eq_nil_or_concat lines with rfl | ⟨ahead, last, rfl⟩
  · simp
  · rw [List.concat_eq_append] at h ⊢
    rw [List.dropLast_concat] at h
    rw [List.dropWhile_append_of_pos fun line hl => decide_eq_true (h line hl)]
    by_cases hlast : IsText last <;> simp [hlast]

/-- **What is handed on of what a tool writes.** Any bytes are lines in one way only. The texts of the lines ahead of
    the first that is no text are handed on, once and in order, and what stands behind that line stays unread. So every
    line that is text is handed on exactly if behind a line that is no text there is none that is, and moreover
    everything is read exactly if every line ahead of the last is text. -/
theorem handed_on (bytes : List UInt8) : ∃ w : Written, (∀ w' : Written, w'.bytes = bytes ↔ w' = w) ∧
    forward bytes = ((w.contents.takeWhile fun line => IsText line).filterMap text?, w.unread) ∧
    (forward bytes).1 <+: w.contents.filterMap text? ∧ (forward bytes).2 <:+ bytes ∧
    ((forward bytes).1 = w.contents.filterMap text? ↔
      ∀ line ∈ w.contents.dropWhile fun line => IsText line, ¬ IsText line) ∧
    (forward bytes = (w.contents.filterMap text?, []) ↔ ∀ line ∈ w.contents.dropLast, IsText line) := by
  obtain ⟨w, rfl⟩ := Written.surjective_bytes bytes
  refine ⟨w, fun w' => Written.injective_bytes.eq_iff, ?_⟩
  rw [w.forward_bytes]
  refine ⟨rfl, (List.takeWhile_prefix _).filterMap _, w.unread_suffix, filterMap_takeWhile_iff _, ?_⟩
  rw [Prod.mk.injEq, filterMap_takeWhile_iff, w.unread_eq_nil_iff, and_iff_right_iff_imp]
  exact not_isText_of_dropLast

/-- A line that is text is lost if it stands behind one that is none. -/
theorem lines_behind_no_text_lost : ∃ w : Written, w.bytes = [111, 110, 101, 10, 255, 10, 116, 119, 111, 10] ∧
    w.contents.filterMap text? = ["one", "two"] ∧ forward w.bytes = (["one"], [116, 119, 111, 10]) := by
  have hloop := Written.forward_bytes (.cons ⟨[111, 110, 101], .feed, by decide, by decide⟩
    (.cons ⟨[255], .feed, by decide, by decide⟩ (.cons ⟨[116, 119, 111], .feed, by decide, by decide⟩
      (.tail [] (by decide)))))
  exact ⟨_, rfl, by decide, hloop.trans (by decide)⟩

end RouteScaffold.ToolRun
