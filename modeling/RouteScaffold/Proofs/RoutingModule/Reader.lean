import RouteScaffold.Proofs.RoutingModule.BoundNames
import RouteScaffold.Proofs.RoutingModule.RoutesObject
import RouteScaffold.Proofs.Script.Token

/-!
# Reading a routing module

A reader for the syntax in which routing modules are written (`Contents.read`): import statements under the comments
that head them, and behind them the object literal of the routes. An object literal is read with the objects that are
still open on a stack (`readMembers`), so that reading follows the tokens one after the other.

Main statement: the lines of views are read as the members that stand for the views (`readMembers_viewLines`), at every
depth and among whatever is open.
-/

namespace RouteScaffold.RoutingModule

open Script

/-! ## 1. Object literals -/

/-- Reads the members of an object up to its end. Of each open object the members ahead of the inner one are kept,
    and the name of the inner one. -/
def readMembers : List (Members × String) → Members → List Token → Option (Members × List Token)
  | outside, own, .word name :: .mark ':' :: .text value :: .mark ',' :: rest =>
    readMembers outside (own ++ [(name, .text value)]) rest
  | outside, own, .word name :: .mark ':' :: .mark '<' :: .word tag :: .mark '/' :: .mark '>' :: .mark ',' :: rest =>
    readMembers outside (own ++ [(name, .component tag)]) rest
  | outside, own, .word name :: .mark ':' :: .mark '{' :: rest => readMembers ((own, name) :: outside) [] rest
  | (outer, name) :: outside, own, .mark '}' :: .mark ',' :: rest =>
    readMembers outside (outer ++ [(name, .plain own)]) rest
  | [], own, .mark '}' :: rest => some (own, rest)
  | _, _, _ => none

/-! ## 2. The lines of the literal -/

/-- A line that begins with a name and a colon. -/
theorem tokensFrom_named {name : String} (h : Name.Fragment name) (depth : Nat) (back : String) :
    tokensFrom .between (line depth (name ++ ": " ++ back)).toList =
      .word name :: .mark ':' :: tokensFrom .between back.toList := by
  have hcolon : (": ").toList = [':', ' '] := rfl
  rw [line, String.toList_append, tokensFrom_indent, String.toList_append, String.toList_append, hcolon,
    List.append_assoc, List.cons_append, tokensFrom_word h (by decide)]
  rfl

theorem tokens_textField {name : String} (h : Name.Fragment name) (depth : Nat) (value : String) :
    tokens (fieldLine (depth + 1) name (Text.quote value)) =
      [.word name, .mark ':', .text value, .mark ','] := by
  have hline := (indented_fieldLine depth (oneLine_fragment h) (oneLine_quote value)).oneLine
  rw [tokens, byLine_line _ hline, lineTokens, fieldLine, String.append_assoc,
    tokensFrom_named h, String.toList_append, tokensFrom_quote]
  rfl

theorem tokens_componentField {name component : String} (h : Name.Fragment name) (hc : Name.Fragment component)
    (depth : Nat) : tokens (fieldLine (depth + 1) name (tagText component)) =
      [.word name, .mark ':', .mark '<', .word component, .mark '/', .mark '>', .mark ','] := by
  have hline := (indented_fieldLine depth (oneLine_fragment h) (oneLine_tagText (oneLine_fragment hc))).oneLine
  have hback : (tagText component ++ ",").toList = '<' :: (component.toList ++ ' ' :: ['/', '>', ',']) := by
    simp only [tagText, String.toList_append, List.append_assoc]
    rfl
  have hbegin : ∀ rest, tokensFrom .between ('<' :: rest) = .mark '<' :: tokensFrom .between rest := fun _ => rfl
  rw [tokens, byLine_line _ hline, lineTokens, fieldLine, String.append_assoc, tokensFrom_named h,
    hback, hbegin, tokensFrom_word hc (by decide)]
  rfl

theorem tokens_beginLine {name : String} (h : Name.Fragment name) (depth : Nat) :
    tokens (line (depth + 1) (name ++ ": \x7b")) = [.word name, .mark ':', .mark '{'] := by
  have hline := (indented_line depth ((oneLine_fragment h).append (by decide : OneLine ": \x7b"))).oneLine
  have hback : name ++ ": \x7b" = name ++ ": " ++ "\x7b" := by
    rw [String.append_assoc]
    rfl
  rw [tokens, byLine_line _ hline, lineTokens, hback, tokensFrom_named h]
  rfl

theorem tokens_closeLine (depth : Nat) : tokens (closeLine (depth + 1)) = [.mark '}', .mark ','] := by
  rw [tokens, byLine_line _ (indented_closeLine depth).oneLine, lineTokens, closeLine, line, String.toList_append,
    tokensFrom_indent]
  rfl

theorem tokens_openLines {key element : String} (hk : Name.Fragment key) (he : Name.Fragment element) (depth : Nat)
    (path title : String) : (openLines (depth + 1) key path element title).flatMap tokens =
      [.word key, .mark ':', .mark '{', .word "path", .mark ':', .text path, .mark ',', .word "element", .mark ':',
       .mark '<', .word element, .mark '/', .mark '>', .mark ',', .word "title", .mark ':', .text title,
       .mark ','] := by
  have hpath : Name.Fragment "path" := (Name.isIdentifier_iff "path").mp (by decide)
  have helement : Name.Fragment "element" := (Name.isIdentifier_iff "element").mp (by decide)
  have htitle : Name.Fragment "title" := (Name.isIdentifier_iff "title").mp (by decide)
  simp only [openLines, List.flatMap_cons, List.flatMap_nil, tokens_beginLine hk, tokens_textField hpath,
    tokens_componentField helement he, tokens_textField htitle]
  rfl

/-- **The lines that begin a node open an object with the members of the node.** -/
theorem readMembers_openLines {key element : String} (hk : Name.Fragment key) (he : Name.Fragment element)
    (depth : Nat) (path title : String) (outside : List (Members × String)) (own : Members) (rest : List Token) :
    readMembers outside own ((openLines (depth + 1) key path element title).flatMap tokens ++ rest) =
      readMembers ((own, key) :: outside) (nodeMembers path element title) rest := by
  rw [tokens_openLines hk he]
  rfl

/-- What can stand for a view in a literal: names that are words. -/
structure Spellable (bindings : Bindings) (layout : String) (node : String × ViewInfo) : Prop where
  key : Name.Fragment node.1
  element : Name.Fragment (elementOf bindings layout node.1)
  icon : Name.Fragment node.2.icon

/-- **The lines of views are read as the members that stand for the views.** -/
theorem readMembers_viewLines {bindings : Bindings} {layout : String} (views : Views)
    (h : ∀ node ∈ views.nodes, Spellable bindings layout node) (depth : Nat) (outside : List (Members × String))
    (own : Members) (rest : List Token) :
    readMembers outside own ((viewLines bindings layout (depth + 1) views).flatMap tokens ++ rest) =
      readMembers outside (own ++ viewMembers bindings layout views) rest := by
  have hicon : Name.Fragment "icon" := (Name.isIdentifier_iff "icon").mp (by decide)
  have hroutes : Name.Fragment "routes" := (Name.isIdentifier_iff "routes").mp (by decide)
  have hroutesLine : ∀ depth, tokens (routesLine (depth + 1)) = [.word "routes", .mark ':', .mark '{'] :=
    fun depth => tokens_beginLine hroutes depth
  induction views generalizing depth outside own rest with
  | nil =>
      rw [viewMembers, List.append_nil]
      rfl
  | leaf key info more ih =>
      rw [Views.nodes, List.forall_mem_cons] at h
      obtain ⟨hnode, hmore⟩ := h
      rw [viewLines, List.flatMap_append, List.append_assoc, readMembers_openLines hnode.key hnode.element,
        List.flatMap_cons, List.flatMap_cons, tokens_componentField hicon hnode.icon, tokens_closeLine,
        List.append_assoc, List.append_assoc]
      refine (ih hmore depth outside (own ++ [(key, _)]) rest).trans ?_
      rw [List.append_assoc]
      rfl
  | container key info children more ihc ih =>
      rw [Views.nodes, List.forall_mem_cons, List.forall_mem_append] at h
      obtain ⟨hnode, hchildren, hmore⟩ := h
      rw [viewLines, List.flatMap_append, List.append_assoc, readMembers_openLines hnode.key hnode.element,
        List.flatMap_cons, List.flatMap_cons, tokens_componentField hicon hnode.icon, hroutesLine,
        List.flatMap_append, List.flatMap_cons, List.flatMap_cons, tokens_closeLine, tokens_closeLine]
      simp only [List.append_assoc]
      refine (ihc hchildren (depth + 2) ((nodeMembers info.path _ info.title ++ [("icon", _)], "routes") ::
        (own, key) :: outside) [] _).trans ?_
      refine (ih hmore depth outside (own ++ [(key, _)]) rest).trans ?_
      rw [List.append_assoc]
      rfl

/-- **The lines of a layout are read as the member that stands for it.** -/
theorem readMembers_layoutLines {bindings : Bindings} {key : String} {layout : Layout} (hk : Name.Fragment key)
    (he : Name.Fragment (layoutElementOf bindings key)) (hi : ∀ icon, layout.icon = some icon → Name.Fragment icon)
    (h : ∀ node ∈ layout.views.nodes, Spellable bindings key node) (outside : List (Members × String))
    (own : Members) (rest : List Token) :
    readMembers outside own ((layoutLines bindings key layout).flatMap tokens ++ rest) =
      readMembers outside (own ++ [(key, .plain (layoutMembers bindings key layout))]) rest := by
  have hicon : Name.Fragment "icon" := (Name.isIdentifier_iff "icon").mp (by decide)
  have hroutes : Name.Fragment "routes" := (Name.isIdentifier_iff "routes").mp (by decide)
  have hroutesLine : tokens (routesLine 2) = [.word "routes", .mark ':', .mark '{'] := tokens_beginLine hroutes 1
  -- The icon of a layout, if it has one, is one more member.
  have hiconField : ∀ (before : Members) (more : List Token), readMembers ((own, key) :: outside) before
      ((layout.icon.map fun icon => fieldLine 2 "icon" (tagText icon)).toList.flatMap tokens ++ more) =
        readMembers ((own, key) :: outside)
          (before ++ (layout.icon.map fun icon => ("icon", Script.Value.component icon)).toList) more := by
    intro before more
    cases hc : layout.icon with
    | none =>
        rw [Option.map_none, Option.map_none, Option.toList_none, Option.toList_none, List.append_nil]
        rfl
    | some icon =>
        have hline := tokens_componentField hicon (hi icon hc) 1
        simp only [Option.map_some, Option.toList_some, List.flatMap_cons, List.flatMap_nil, hline]
        rfl
  have hend := tokens_closeLine 0
  have hopen := readMembers_openLines hk he 0 layout.path layout.title outside own
  unfold layoutLines
  simp only [List.flatMap_append, List.append_assoc]
  refine (hopen _).trans ?_
  refine (hiconField _ _).trans ?_
  cases hc : layout.children with
  | none =>
      simp only [layoutMembers, hc, List.flatMap_cons, List.flatMap_nil, hend]
      simp only [Option.map_none, Option.toList_none, List.append_nil]
      rfl
  | some views =>
      rw [layout.views_some hc] at h
      simp only [layoutMembers, hc, List.flatMap_cons, List.flatMap_append, List.flatMap_nil, hend, hroutesLine,
        tokens_closeLine 1, List.append_assoc]
      refine (readMembers_viewLines views h 2 ((_, "routes") :: (own, key) :: outside) [] _).trans ?_
      rfl

end RouteScaffold.RoutingModule
