import RouteScaffold.Proofs.RoutingModule.BoundNames
import RouteScaffold.Renderer

/-!
# The scope of the routing module

When the names that the routing module binds are distinct and can be bound (`scope_of_icons`). The names of imports
and of the running part always are; what is left are the icons. Validation holds an icon against the names that every
routing module defines, but neither against the names of imports, which are found later, nor against the words of
the language that are no names.
-/

namespace RouteScaffold

/-! ## 1. Names that can be bound -/

/-- The words that no declaration of a module can bind. -/
def Name.unbindable : List String :=
  ["arguments", "await", "break", "case", "catch", "class", "const", "continue", "debugger", "default", "delete", "do",
   "else", "enum", "eval", "export", "extends", "false", "finally", "for", "function", "if", "implements", "import",
   "in", "instanceof", "interface", "let", "new", "null", "package", "private", "protected", "public", "return",
   "static", "super", "switch", "this", "throw", "true", "try", "typeof", "var", "void", "while", "with", "yield"]

/-- A name that a declaration of a module can bind. -/
def Name.Bindable (name : String) : Prop := Name.Fragment name ∧ name ∉ Name.unbindable

/-- The capital letter of an import's name tells it from the words that cannot be bound. -/
theorem Bindings.Marked.bindable {name : String} (h : Bindings.Marked name) : Name.Bindable name := by
  have hwords : ∀ word ∈ Name.unbindable, 'L' ∉ word.toList ∧ 'V' ∉ word.toList := by decide +kernel
  refine ⟨h.1, fun hw => ?_⟩
  obtain ⟨hl, hv⟩ := hwords name hw
  exact h.2.elim hl hv

namespace RoutingModule

/-- The names that every routing module binds. -/
def fixedNames : List String := "Route" :: "routes" :: runtimeNames

theorem fixedNames_reserved : ∀ name ∈ fixedNames, name ∈ Spec.reservedNames := by decide

theorem not_marked_fixedNames : ∀ name ∈ fixedNames, 'L' ∉ name.toList ∧ 'V' ∉ name.toList := by decide

theorem bindable_fixedNames : ∀ name ∈ fixedNames, Name.Bindable name := by
  have hdec : ∀ name ∈ fixedNames, Name.isIdentifier name = true ∧ name ∉ Name.unbindable := by decide
  intro name hn
  obtain ⟨h1, h2⟩ := hdec name hn
  exact ⟨(Name.isIdentifier_iff name).mp h1, h2⟩

/-! ## 2. Which names clash -/

theorem mem_boundNames (spec : Spec) (name : String) :
    name ∈ boundNames spec ↔ name ∈ fixedNames ∨ name ∈ (IconSet.ofSpec spec).icons ∨
      name ∈ Bindings.layoutNames (Bindings.ofSpec spec) ++ Bindings.viewNames (Bindings.ofSpec spec) := by
  simp only [boundNames, fixedNames, List.cons_append, List.mem_cons, List.mem_append]
  constructor
  · rintro (h | (h | h) | h | h)
    · exact .inl (.inl h)
    · exact .inr (.inl h)
    · exact .inr (.inr h)
    · exact .inl (.inr (.inl h))
    · exact .inl (.inr (.inr h))
  · rintro ((h | h | h) | h | h)
    · exact .inl h
    · exact .inr (.inr (.inl h))
    · exact .inr (.inr (.inr h))
    · exact .inr (.inl (.inl h))
    · exact .inr (.inl (.inr h))

/-- **The names differ exactly when no icon is the name of an import.** -/
theorem nodup_boundNames_iff {spec : Spec} (h : spec.Accepted) :
    (boundNames spec).Nodup ↔ ∀ icon ∈ (IconSet.ofSpec spec).icons,
      icon ∉ Bindings.layoutNames (Bindings.ofSpec spec) ++ Bindings.viewNames (Bindings.ofSpec spec) := by
  have hicons : ∀ icon ∈ (IconSet.ofSpec spec).icons, icon ∉ fixedNames := fun icon hi hf =>
    (IconSet.isIcon_of_mem h hi).2 (fixedNames_reserved icon hf)
  have himports : ∀ name ∈ Bindings.layoutNames (Bindings.ofSpec spec) ++ Bindings.viewNames (Bindings.ofSpec spec),
      name ∉ fixedNames := by
    intro name hn hf
    obtain ⟨hl, hv⟩ := not_marked_fixedNames name hf
    exact (Bindings.marked_names h name hn).2.elim hl hv
  have hperm : (boundNames spec).Perm (fixedNames ++ ((IconSet.ofSpec spec).icons ++
      (Bindings.layoutNames (Bindings.ofSpec spec) ++ Bindings.viewNames (Bindings.ofSpec spec)))) := by
    refine List.Perm.cons "Route" ?_
    exact List.perm_append_comm
  rw [hperm.nodup_iff, List.nodup_append, List.nodup_append]
  constructor
  · rintro ⟨-, ⟨-, -, hne⟩, -⟩ icon hi hn
    exact hne icon hi icon hn rfl
  · intro hne
    refine ⟨by decide, ⟨IconSet.nodup_ofSpec spec, Bindings.nodup_names h, ?_⟩, ?_⟩
    · rintro icon hi name hn rfl
      exact hne icon hi hn
    · rintro name hf other ho rfl
      rcases List.mem_append.mp ho with ho | ho
      · exact hicons name ho hf
      · exact himports name ho hf

/-- **The names can be bound exactly when the icons can.** -/
theorem bindable_boundNames_iff {spec : Spec} (h : spec.Accepted) :
    (∀ name ∈ boundNames spec, Name.Bindable name) ↔
      ∀ icon ∈ (IconSet.ofSpec spec).icons, icon ∉ Name.unbindable := by
  constructor
  · intro hb icon hi
    exact (hb icon ((mem_boundNames spec icon).mpr (.inr (.inl hi)))).2
  · intro hi name hn
    rcases (mem_boundNames spec name).mp hn with hn | hn | hn
    · exact bindable_fixedNames name hn
    · exact ⟨(IconSet.isIcon_of_mem h hn).1, hi name hn⟩
    · exact (Bindings.marked_names h name hn).bindable

/-- **When the scope of the routing module is well-formed.** The names that the module text binds are distinct
    exactly when no icon is the name of an import, and can all be bound exactly when the icons can. -/
theorem scope_of_icons {defaults : Defaults} {document : Document} {spec : Spec}
    (h : Spec.validate defaults document = .ok spec) :
    (∀ iconPackage, OneLine iconPackage → ∃ text,
      Renderer.builtin.routes (Parts.ofSpec iconPackage spec) = .ok text ∧ topNames text = boundNames spec) ∧
    ((boundNames spec).Nodup ↔ ∀ icon ∈ (IconSet.ofSpec spec).icons,
      icon ∉ Bindings.layoutNames (Bindings.ofSpec spec) ++ Bindings.viewNames (Bindings.ofSpec spec)) ∧
    ((∀ name ∈ boundNames spec, Name.Bindable name) ↔
      ∀ icon ∈ (IconSet.ofSpec spec).icons, icon ∉ Name.unbindable) := by
  have ha := Spec.accepted_of_validate h
  exact ⟨fun iconPackage hp => ⟨_, rfl, topNames_text ha hp⟩, nodup_boundNames_iff ha,
    bindable_boundNames_iff ha⟩

/-- With the default icon the scope is well-formed. -/
theorem scope_of_default_icon : ∃ spec,
    Spec.validate .standard (.map [("home", .map [("routes", .map [("list", .map [])])])]) = .ok spec ∧
      (boundNames spec).Nodup ∧ ∀ name ∈ boundNames spec, Name.Bindable name := by
  have h : Spec.validate .standard (.map [("home", .map [("routes", .map [("list", .map [])])])]) = .ok _ := rfl
  exact ⟨_, h, (scope_of_icons h).2.1.mpr (by decide), (scope_of_icons h).2.2.mpr (by decide)⟩

/-- An icon with the name of an import and an icon that is a word of the language are accepted. -/
theorem icons_clash : ∃ spec,
    Spec.validate .standard (.map [("home", .map [("icon", .text "HomeLayout"),
      ("routes", .map [("list", .map [("icon", .text "class")])])])]) = .ok spec ∧
      topNames (Parts.ofSpec standardIconPackage spec).text = boundNames spec ∧
      ¬(boundNames spec).Nodup ∧ ¬∀ name ∈ boundNames spec, Name.Bindable name := by
  have h : Spec.validate .standard (.map [("home", .map [("icon", .text "HomeLayout"),
      ("routes", .map [("list", .map [("icon", .text "class")])])])]) = .ok _ := rfl
  refine ⟨_, h, topNames_text (Spec.accepted_of_validate h) (by decide), ?_, ?_⟩
  · decide
  · exact fun h => (h "class" (by decide)).2 (by decide)

end RoutingModule

end RouteScaffold
