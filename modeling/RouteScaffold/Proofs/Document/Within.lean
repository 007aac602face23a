import RouteScaffold.Spec.Violation

/-!
# What stands in a document

* `Document.follow`: what stands behind keys that are followed from a document;
* `Document.Within`: what stands in a document, at any depth;
* `Document.Everywhere`: what holds of all mappings of a document, such as that they hold each key once
  (`Document.Distinct`).
-/

namespace RouteScaffold.Document

/-! ## 1. Following keys -/

/-- What stands behind keys. -/
def follow : Document → Location → Option Document
  | value, [] => some value
  | .map fields, key :: rest => (Keyed.get? fields key).bind fun value => value.follow rest
  | _, _ :: _ => none

theorem follow_append (document : Document) (front back : Location) :
    document.follow (front ++ back) = (document.follow front).bind fun value => value.follow back := by
  induction front generalizing document with
  | nil => rfl
  | cons key rest ih =>
      cases document with
      | map fields =>
          rw [List.cons_append, follow, follow, Option.bind_assoc]
          exact congrArg _ (funext ih)
      | _ => rfl

/-! ## 2. At any depth -/

/-- What stands in a document, at any depth. -/
inductive Within (document : Document) : Document → Prop where
  | self : Within document document
  | field {fields : Fields} {key : String} {value : Document} (h : Within document (.map fields))
      (hf : (key, value) ∈ fields) : Within document value
  | item {items : List Document} {value : Document} (h : Within document (.list items)) (hi : value ∈ items) :
      Within document value

theorem Within.trans {a b c : Document} (hb : Within a b) (hc : Within b c) : Within a c := by
  induction hc with
  | self => exact hb
  | field _ hf ih => exact ih.field hf
  | item _ hi ih => exact ih.item hi

/-- What stands in a mapping is the mapping itself or stands in one of its values. -/
theorem Within.map_cases {fields : Fields} {value : Document} (h : Within (.map fields) value) :
    value = .map fields ∨ ∃ entry ∈ fields, Within entry.2 value := by
  induction h with
  | self => exact .inl rfl
  | field _ hf ih =>
      rcases ih with he | ⟨entry, he, hw⟩
      · cases he
        exact .inr ⟨_, hf, .self⟩
      · exact .inr ⟨entry, he, hw.field hf⟩
  | item _ hi ih =>
      rcases ih with he | ⟨entry, he, hw⟩
      · cases he
      · exact .inr ⟨entry, he, hw.item hi⟩

/-- What stands in a list is the list itself or stands in one of its items. -/
theorem Within.list_cases {items : List Document} {value : Document} (h : Within (.list items) value) :
    value = .list items ∨ ∃ item ∈ items, Within item value := by
  induction h with
  | self => exact .inl rfl
  | field _ hf ih =>
      rcases ih with he | ⟨item, hm, hw⟩
      · cases he
      · exact .inr ⟨item, hm, hw.field hf⟩
  | item _ hi ih =>
      rcases ih with he | ⟨item, hm, hw⟩
      · cases he
        exact .inr ⟨_, hi, .self⟩
      · exact .inr ⟨item, hm, hw.item hi⟩

/-! ## 3. Everywhere -/

/-- All mappings of the document, at any depth, have a property. -/
def Everywhere (P : Fields → Prop) (document : Document) : Prop := ∀ fields, Within document (.map fields) → P fields

section Everywhere

variable {P : Fields → Prop}

theorem Everywhere.within {document value : Document} (h : document.Everywhere P) (hw : Within document value) :
    value.Everywhere P := fun fields hf => h fields (hw.trans hf)

theorem everywhere_map {fields : Fields} (h : P fields) (he : ∀ entry ∈ fields, entry.2.Everywhere P) :
    (Document.map fields).Everywhere P := by
  intro inner hw
  rcases hw.map_cases with heq | ⟨entry, hm, hw⟩
  · cases heq
    exact h
  · exact he entry hm inner hw

theorem everywhere_list {items : List Document} (h : ∀ item ∈ items, item.Everywhere P) :
    (Document.list items).Everywhere P := by
  intro inner hw
  rcases hw.list_cases with heq | ⟨item, hm, hw⟩
  · cases heq
  · exact h item hm inner hw

/-- A value that is neither a list nor a mapping. -/
def Flat : Document → Prop
  | .list _ | .map _ => False
  | _ => True

theorem everywhere_flat {value : Document} (h : value.Flat) : value.Everywhere P := by
  have hself : ∀ {other}, Within value other → other = value := by
    intro other hw
    induction hw with
    | self => rfl
    | field _ _ ih | item _ _ ih =>
        rw [← ih] at h
        cases h
  intro fields hw
  rw [← hself hw] at h
  cases h

end Everywhere

/-- Each mapping of the document holds each key once. -/
def Distinct (document : Document) : Prop := document.Everywhere fun fields => (Keyed.keys fields).Nodup

/-- No key of the document has a dot. -/
def DotFree (document : Document) : Prop :=
  document.Everywhere fun fields => ∀ key ∈ Keyed.keys fields, '.' ∉ key.toList

end RouteScaffold.Document
