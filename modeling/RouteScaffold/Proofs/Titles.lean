import RouteScaffold.Proofs.Script.Children
import RouteScaffold.Renderer

/-!
# Titles of views

The component of a view shows its title as the child of a heading (`Text.jsxText`). A title that a script would show as
it is (`Verbatim`) stands there as it is, any other one as a string literal in braces. Main statement: `titles_denoted`,
by which the heading has one child, whatever the title, and shows that title and no other text.
-/

namespace RouteScaffold

open Script

/-! ## 1. Titles that stand as they are -/

/-- The title is shown as it is wherever it stands: it is not empty, no white space stands at its ends, and no character
    of it would be interpreted or normalised. -/
structure Verbatim (title : String) : Prop where
  nonempty : title ≠ ""
  front : ∀ c ∈ title.toList.head?, Text.isBlank c = false
  back : ∀ c ∈ title.toList.getLast?, Text.isBlank c = false
  characters : ∀ c ∈ title.toList, c ∉ ['{', '}', '<', '>', '&', '"', '\'', '\\'] ∧ Text.isControl c = false

theorem isJsxSpecial_iff (c : Char) : Text.isJsxSpecial c = false ↔
    c ∉ ['{', '}', '<', '>', '&', '"', '\'', '\\'] ∧ Text.isControl c = false := by
  simp only [Text.isJsxSpecial, Bool.or_eq_false_iff, beq_eq_false_iff_ne, List.mem_cons, List.not_mem_nil, or_false,
    not_or, and_assoc]

/-- **Trimming leaves exactly the texts as they are that have no white space at their ends.** -/
theorem trim_eq_iff (text : String) : Text.trim text = text ↔
    (∀ c ∈ text.toList.head?, Text.isBlank c = false) ∧ ∀ c ∈ text.toList.getLast?, Text.isBlank c = false := by
  have hfront : text.toList.dropWhile Text.isBlank = text.toList ↔
      ∀ c ∈ text.toList.head?, Text.isBlank c = false := by
    cases text.toList with
    | nil => exact ⟨fun _ => nofun, fun _ => rfl⟩
    | cons c rest => simp [List.dropWhile_eq_self_iff]
  have hback : text.toList.rdropWhile Text.isBlank = text.toList ↔
      ∀ c ∈ text.toList.getLast?, Text.isBlank c = false := by
    rw [List.rdropWhile_eq_self_iff]
    constructor
    · intro h c hc
      obtain ⟨hne, rfl⟩ := List.mem_getLast?_eq_getLast hc
      simpa using h hne
    · intro h hne
      simp [h _ (List.getLast?_eq_some_getLast hne)]
  rw [← hfront, ← hback, ← String.toList_inj, Text.trim, String.toList_ofList]
  have hsuffix := List.dropWhile_suffix Text.isBlank (l := text.toList)
  constructor
  · intro h
    -- Nothing was cut off at the back, so nothing was cut off at the front.
    have hprefix := List.rdropWhile_prefix Text.isBlank (text.toList.dropWhile Text.isBlank)
    have hlength := hprefix.length_le
    rw [show (text.toList.dropWhile Text.isBlank).rdropWhile Text.isBlank = text.toList from h] at hlength
    have hstart := hsuffix.eq_of_length (Nat.le_antisymm hsuffix.length_le hlength)
    refine ⟨hstart, ?_⟩
    rw [Text.trimStart, hstart] at h
    exact h
  · intro ⟨hstart, hend⟩
    rw [Text.trimStart, hstart]
    exact hend

/-- **The test decides which titles stand as they are.** -/
theorem isJsxPlain_iff (title : String) : Text.isJsxPlain title = true ↔ Verbatim title := by
  have hcharacters : title.toList.any Text.isJsxSpecial = false ↔
      ∀ c ∈ title.toList, c ∉ ['{', '}', '<', '>', '&', '"', '\'', '\\'] ∧ Text.isControl c = false := by
    rw [List.any_eq_false]
    refine forall₂_congr fun c _ => ?_
    rw [Bool.not_eq_true, isJsxSpecial_iff]
  unfold Text.isJsxPlain
  rw [Bool.and_eq_true, Bool.and_eq_true, Bool.not_eq_true', Bool.not_eq_true', beq_iff_eq, trim_eq_iff, hcharacters]
  constructor
  · rintro ⟨⟨hne, hfront, hback⟩, hall⟩
    refine ⟨fun he => ?_, hfront, hback, hall⟩
    rw [he] at hne
    cases hne
  · intro h
    refine ⟨⟨?_, h.front, h.back⟩, h.characters⟩
    rw [← Bool.not_eq_true, String.isEmpty_iff]
    exact h.nonempty

instance (title : String) : Decidable (Verbatim title) := decidable_of_iff _ (isJsxPlain_iff title)

/-- The characters of such a title are those of a text on one line. -/
theorem Verbatim.text {title : String} (h : Verbatim title) :
    ∀ c ∈ title.toList, isTextChar c = true ∧ c ≠ '\n' ∧ c ≠ '\r' ∧ c ≠ '\t' := by
  intro c hc
  obtain ⟨hspecial, hcontrol⟩ := h.characters c hc
  simp only [List.mem_cons, List.not_mem_nil, or_false, not_or] at hspecial
  obtain ⟨hopen, hclose, hless, hgreater, hand, -⟩ := hspecial
  refine ⟨by simp [isTextChar, *], ?_, ?_, ?_⟩
  all_goals
    rintro rfl
    cases hcontrol

/-! ## 2. Headings -/

/-- **Between two tags a title is one child that shows the title.** -/
theorem children?_jsxText (title : String) (rest : List Char) : ∃ child,
    children? ((Text.jsxText title).toList ++ '<' :: '/' :: rest) = some ([child], '<' :: '/' :: rest) ∧
      child.units = codeUnits title.toList := by
  unfold Text.jsxText
  split
  · next h =>
    have hv := (isJsxPlain_iff title).mp h
    have hne : title.toList ≠ [] := fun he => hv.nonempty (String.toList_inj.mp he)
    exact ⟨_, children?_text hne (fun c hc => (hv.text c hc).1) (fun c hc => (hv.text c hc).2) rest, rfl⟩
  · have hsource : ("\x7b" ++ Text.quote title ++ "\x7d").toList ++ '<' :: '/' :: rest =
        '{' :: ((Text.quote title).toList ++ '}' :: '<' :: '/' :: rest) := by
      simp only [String.toList_append, List.append_assoc]
      rfl
    rw [hsource]
    exact ⟨_, children?_quote title rest, rfl⟩

/-- **The heading of a view**: what stands around the title does not depend on it. -/
theorem view_heading (key : String) (sitemap : Bool) : ∃ front back, ∀ title,
    Component.view key title sitemap = front ++ "<h2>" ++ Text.jsxText title ++ "</h2>" ++ back := by
  obtain ⟨ahead, behind, hlines⟩ : ∃ ahead behind : List String, ∀ title, Component.view key title sitemap =
      Text.unlines (ahead ++ ["      <h2>" ++ Text.jsxText title ++ "</h2>"] ++ behind) := by
    refine ⟨["import React from \"react\";", ""] ++ Component.onlyIf sitemap
        ["// Data", "import \x7b sitemap \x7d from \"../../../Data/routes\";", ""] ++
      ["// Styles", "// import Style from \"./" ++ Name.view key ++ ".module.css\";", "",
        "const " ++ Name.view key ++ " = () => \x7b", "  return (", "    <div>"],
      "      <p>Under construction</p>" :: (Component.onlyIf sitemap ["      \x7bsitemap\x7d"] ++
        ["    </div>", "  );", "\x7d;", "", "export default " ++ Name.view key ++ ";"]), fun title => ?_⟩
    unfold Component.view
    simp only [List.append_assoc, List.cons_append, List.nil_append]
  have hmargin : "      <h2>" = "      " ++ "<h2>" := rfl
  refine ⟨Text.unlines ahead ++ "      ", "\n" ++ Text.unlines behind, fun title => ?_⟩
  rw [hlines, RoutingModule.unlines_append, RoutingModule.unlines_append, RoutingModule.unlines_cons, hmargin]
  simp only [String.append_assoc]
  rfl

/-- The form in which a title is written: as it is, or as a string literal in braces that is read as the title. -/
def Written (title source : String) : Prop :=
  Verbatim title ∧ source = title ∨
  ¬Verbatim title ∧ ∃ literal : String, source = "\x7b" ++ literal ++ "\x7d" ∧
    literal? literal.toList = some (codeUnits title.toList, [])

theorem written_jsxText (title : String) : Written title (Text.jsxText title) := by
  unfold Text.jsxText Written
  split
  · next h => exact .inl ⟨(isJsxPlain_iff title).mp h, rfl⟩
  · next h =>
    refine .inr ⟨fun hv => h ((isJsxPlain_iff title).mpr hv), Text.quote title, rfl, ?_⟩
    have hliteral := literal?_quote title []
    rwa [List.append_nil] at hliteral

/-- **The heading of a view shows its title and no other text.** A title is written as it is, if nothing of it would be
    interpreted or trimmed, or else as a string literal in braces whose value it is; so between the tags of the heading,
    which stand where they stand for every title, there is one child, and it shows the title. -/
theorem titles_denoted :
    (∀ title, Written title (Text.jsxText title)) ∧
    ∀ (key : String) (sitemap : Bool), ∃ front back, ∀ title,
      Renderer.builtin.view key title sitemap = .ok (front ++ "<h2>" ++ Text.jsxText title ++ "</h2>" ++ back) ∧
      ∃ child, children? (Text.jsxText title ++ "</h2>" ++ back).toList = some ([child], ("</h2>" ++ back).toList) ∧
        ∀ text : String, child.units = codeUnits text.toList ↔ text = title := by
  refine ⟨written_jsxText, fun key sitemap => ?_⟩
  obtain ⟨front, back, hview⟩ := view_heading key sitemap
  refine ⟨front, back, fun title => ⟨congrArg Except.ok (hview title), ?_⟩⟩
  have hclose : ("</h2>" ++ back).toList = '<' :: '/' :: ("h2>" ++ back).toList := by
    simp only [String.toList_append]
    rfl
  obtain ⟨child, hchild, hunits⟩ := children?_jsxText title ("h2>" ++ back).toList
  rw [String.append_assoc, String.toList_append, hclose]
  refine ⟨child, hchild, fun text => ?_⟩
  rw [hunits, codeUnits_inj, String.toList_inj]
  exact eq_comm

end RouteScaffold
