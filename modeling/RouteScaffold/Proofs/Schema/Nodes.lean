import Mathlib.Data.List.Infix
import RouteScaffold.Proofs.Document.Within
import RouteScaffold.Proofs.Schema.Entries

/-!
# The nodes of a document

* `dotted`: the keys between the dots of a text; the text of a location gives back its keys (`dotted_text`);
* `Spec.nodesAmong`: the nodes of a mapping at all depths with their locations, in document order and each ahead of
  those below it (`viewsAmong` with locations);
* `Spec.Stands`: a node stands somewhere below a mapping; these are the nodes listed (`mem_nodesAmong_iff`);
* where each mapping holds each key once, following the location of a node one reaches it (`follow_of_stands`), and
  the locations of nodes differ (`nodup_locations`).
-/

namespace RouteScaffold

/-! ## 1. Locations as texts -/

/-- The keys between the dots of a text. -/
def dotted (text : String) : List String := (text.toList.splitOn '.').map String.ofList

/-- **The text of a location gives back its keys**, if none has a dot. -/
theorem dotted_text {location : Location} (hne : location ≠ []) (h : ∀ key ∈ location, '.' ∉ key.toList) :
    dotted location.text = location := by
  have htext : location.text.toList = ['.'].intercalate (location.map String.toList) := by
    cases location with
    | nil => exact absurd rfl hne
    | cons key rest => exact String.toList_intercalate
  have hkeys : ∀ chars ∈ location.map String.toList, '.' ∉ chars := fun chars hc => by
    obtain ⟨key, hk, rfl⟩ := List.mem_map.mp hc
    exact h key hk
  rw [dotted, htext, List.splitOn_intercalate '.' hkeys (by simpa using hne), List.map_map]
  exact List.map_id'' (fun _ => String.ofList_toList) location

namespace Spec

/-! ## 2. Nodes -/

/-- A node of a document. -/
structure Node where
  location : Location
  key : String
  value : Document

mutual

/-- The nodes below a node with these fields, at all depths. -/
def nodesBelow (location : Location) : List (String × Document) → List Node
  | [] => []
  | (name, value) :: rest =>
    if name = childrenField then nodesWithin (location ++ [childrenField]) value else nodesBelow location rest

/-- The nodes of a value that should map keys to nodes, at all depths. -/
def nodesWithin (location : Location) : Document → List Node
  | .map entries => nodesAmong location entries
  | _ => []

/-- The nodes of a mapping with these entries, at all depths: each ahead of those below it. -/
def nodesAmong (location : Location) : List (String × Document) → List Node
  | [] => []
  | (key, value) :: rest =>
    ⟨location ++ [key], key, value⟩ :: (nodesUnder (location ++ [key]) value ++ nodesAmong location rest)

/-- The nodes below a value that should be a node, at all depths. -/
def nodesUnder (location : Location) : Document → List Node
  | .map fields => nodesBelow location fields
  | _ => []

end

theorem nodesBelow_eq (location : Location) (fields : Document.Fields) : nodesBelow location fields =
    (fields.get? childrenField).elim [] (nodesWithin (location ++ [childrenField])) := by
  induction fields with
  | nil => rfl
  | cons field rest ih =>
      obtain ⟨name, value⟩ := field
      rw [nodesBelow, Keyed.get?_cons]
      by_cases h : name = childrenField
      · rw [if_pos h, if_pos h]
        rfl
      · rw [if_neg h, if_neg h, ih]

theorem nodesUnder_other {value : Document} (h : ∀ fields, value ≠ .map fields) (location : Location) :
    nodesUnder location value = [] := by
  cases value <;> first | rfl | exact absurd rfl (h _)

theorem nodesUnder_leaf {fields : Document.Fields} (h : fields.get? childrenField = none) (location : Location) :
    nodesUnder location (.map fields) = [] := by
  rw [nodesUnder, nodesBelow_eq, h]
  rfl

theorem nodesUnder_container {fields : Document.Fields} {entries : List (String × Document)}
    (h : fields.get? childrenField = some (.map entries)) (location : Location) :
    nodesUnder location (.map fields) = nodesAmong (location ++ [childrenField]) entries := by
  rw [nodesUnder, nodesBelow_eq, h]
  exact nodesWithin.eq_1 _ entries

theorem nodesUnder_stray {fields : Document.Fields} {value : Document} (h : fields.get? childrenField = some value)
    (hv : ∀ entries, value ≠ .map entries) (location : Location) : nodesUnder location (.map fields) = [] := by
  rw [nodesUnder, nodesBelow_eq, h]
  cases value <;> first | rfl | exact absurd rfl (hv _)

/-! ## 3. Where nodes stand -/

/-- A node stands in a mapping at a location, or below a node that does: in the mapping under `routes`. -/
inductive Stands (location : Location) (entries : List (String × Document)) : Node → Prop where
  | side {key : String} {value : Document} (h : (key, value) ∈ entries) :
      Stands location entries ⟨location ++ [key], key, value⟩
  | under {spot : Location} {outer : String} {fields : Document.Fields} {inner : List (String × Document)}
      {key : String} {value : Document} (h : Stands location entries ⟨spot, outer, .map fields⟩)
      (hr : fields.get? childrenField = some (.map inner)) (hm : (key, value) ∈ inner) :
      Stands location entries ⟨spot ++ [childrenField] ++ [key], key, value⟩

theorem Stands.mono {location : Location} {entries others : List (String × Document)} {node : Node}
    (h : Stands location entries node) (hs : ∀ entry ∈ entries, entry ∈ others) : Stands location others node := by
  induction h with
  | side hm => exact .side (hs _ hm)
  | under _ hr hm ih => exact ih.under hr hm

/-- What stands in the mapping under `routes` of a node stands below it. -/
theorem Stands.lift {location : Location} {entries inner : List (String × Document)} {key : String}
    {fields : Document.Fields} {node : Node} (hk : (key, .map fields) ∈ entries)
    (hr : fields.get? childrenField = some (.map inner))
    (h : Stands (location ++ [key] ++ [childrenField]) inner node) : Stands location entries node := by
  induction h with
  | side hm => exact (Stands.side hk).under hr hm
  | under _ hr' hm ih => exact ih.under hr' hm

theorem mem_nodesAmong_side {entries : List (String × Document)} {key : String} {value : Document}
    (h : (key, value) ∈ entries) (location : Location) :
    ⟨location ++ [key], key, value⟩ ∈ nodesAmong location entries := by
  induction entries with
  | nil => cases h
  | cons entry rest ih =>
      obtain ⟨first, other⟩ := entry
      rw [nodesAmong]
      rcases List.mem_cons.mp h with he | h
      · cases he
        exact List.mem_cons_self
      · exact List.mem_cons_of_mem _ (List.mem_append_right _ (ih h))

/-- The nodes listed stand below the mapping. -/
theorem stands_of_mem :
    (∀ (entries : List (String × Document)) (location : Location),
      ∀ node ∈ nodesAmong location entries, Stands location entries node) ∧
    ∀ (value : Document) (location : Location) (key : String) (entries : List (String × Document)),
      (key, value) ∈ entries → ∀ node ∈ nodesUnder (location ++ [key]) value, Stands location entries node := by
  refine views_induction ?nil ?cons ?other ?leaf ?container ?stray
  case nil => exact fun location node hn => by cases hn
  case cons =>
    intro key value rest hvalue hrest location node hn
    rw [nodesAmong] at hn
    rcases List.mem_cons.mp hn with rfl | hn
    · exact .side List.mem_cons_self
    · rcases List.mem_append.mp hn with hn | hn
      · exact hvalue location key _ List.mem_cons_self node hn
      · exact (hrest location node hn).mono fun entry he => List.mem_cons_of_mem _ he
  case other =>
    intro value h location key entries _ node hn
    rw [nodesUnder_other h] at hn
    cases hn
  case leaf =>
    intro fields h location key entries _ node hn
    rw [nodesUnder_leaf h] at hn
    cases hn
  case container =>
    intro fields inner h ih location key entries hk node hn
    rw [nodesUnder_container h] at hn
    exact (ih _ node hn).lift hk h
  case stray =>
    intro fields value h hv location key entries _ node hn
    rw [nodesUnder_stray h hv] at hn
    cases hn

/-- With a node the nodes right below it are listed. -/
theorem mem_below_mem {key : String} {value : Document} :
    (∀ (entries : List (String × Document)) (location : Location) (outer : Node) (fields : Document.Fields)
      (inner : List (String × Document)), outer ∈ nodesAmong location entries → outer.value = .map fields →
        fields.get? childrenField = some (.map inner) → (key, value) ∈ inner →
          ⟨outer.location ++ [childrenField] ++ [key], key, value⟩ ∈ nodesAmong location entries) ∧
    ∀ (given : Document) (location : Location) (outer : Node) (fields : Document.Fields)
      (inner : List (String × Document)), outer ∈ nodesUnder location given → outer.value = .map fields →
        fields.get? childrenField = some (.map inner) → (key, value) ∈ inner →
          ⟨outer.location ++ [childrenField] ++ [key], key, value⟩ ∈ nodesUnder location given := by
  refine views_induction ?nil ?cons ?other ?leaf ?container ?stray
  case nil => exact fun location outer fields inner ho => by cases ho
  case cons =>
    intro first given rest hgiven hrest location outer fields inner ho hv hr hm
    rw [nodesAmong] at ho ⊢
    rcases List.mem_cons.mp ho with rfl | ho
    · obtain rfl : given = .map fields := hv
      rw [nodesUnder_container hr]
      exact List.mem_cons_of_mem _ (List.mem_append_left _ (mem_nodesAmong_side hm _))
    · refine List.mem_cons_of_mem _ ?_
      rcases List.mem_append.mp ho with ho | ho
      · exact List.mem_append_left _ (hgiven _ outer fields inner ho hv hr hm)
      · exact List.mem_append_right _ (hrest _ outer fields inner ho hv hr hm)
  case other =>
    intro given h location outer fields inner ho
    rw [nodesUnder_other h] at ho
    cases ho
  case leaf =>
    intro fields h location outer fields' inner ho
    rw [nodesUnder_leaf h] at ho
    cases ho
  case container =>
    intro fields entries h ih location
    rw [nodesUnder_container h]
    exact ih _
  case stray =>
    intro fields given h hv location outer fields' inner ho
    rw [nodesUnder_stray h hv] at ho
    cases ho

/-- **The nodes listed are those that stand below the mapping.** -/
theorem mem_nodesAmong_iff {location : Location} {entries : List (String × Document)} {node : Node} :
    node ∈ nodesAmong location entries ↔ Stands location entries node := by
  refine ⟨stands_of_mem.1 entries location node, fun h => ?_⟩
  induction h with
  | side hm => exact mem_nodesAmong_side hm location
  | under _ hr hm ih => exact mem_below_mem.1 entries location _ _ _ ih rfl hr hm

/-- **Following the location of a node one reaches it**, where each mapping holds each key once. -/
theorem follow_of_stands {entries : List (String × Document)} {node : Node}
    (hd : (Document.map entries).Distinct) (h : Stands [] entries node) :
    (Document.map entries).follow node.location = some node.value ∧ (Document.map entries).Within node.value := by
  induction h with
  | @side key value hm =>
      have hget := Keyed.get?_of_mem (hd entries .self) hm
      refine ⟨?_, Document.Within.self.field hm⟩
      show (Keyed.get? entries key).bind _ = _
      rw [hget]
      rfl
  | @under spot outer fields inner key value _ hr hm ih =>
      obtain ⟨hfollow, hwithin⟩ := ih
      have hinner : (Document.map entries).Within (.map inner) := hwithin.field (Keyed.mem_of_get? hr)
      have hget := Keyed.get?_of_mem (hd inner hinner) hm
      refine ⟨?_, hinner.field hm⟩
      rw [Document.follow_append, Document.follow_append, hfollow]
      show ((Keyed.get? fields childrenField).bind _).bind _ = _
      rw [hr]
      show (Keyed.get? inner key).bind _ = _
      rw [hget]
      rfl

/-- The keys on the way to a node are `routes` and keys of the document. -/
theorem location_of_stands {entries : List (String × Document)} {node : Node}
    (hd : (Document.map entries).DotFree) (h : Stands [] entries node) :
    (Document.map entries).Within node.value ∧ ∀ key ∈ node.location, '.' ∉ key.toList := by
  have hmem : ∀ {fields : List (String × Document)} {key : String} {value : Document},
      (Document.map entries).Within (.map fields) → (key, value) ∈ fields → '.' ∉ key.toList :=
    fun hw hm => hd _ hw _ (List.mem_map_of_mem (f := Prod.fst) hm)
  induction h with
  | @side key value hm =>
      refine ⟨Document.Within.self.field hm, fun k hk => ?_⟩
      rw [List.mem_singleton.mp hk]
      exact hmem .self hm
  | @under spot outer fields inner key value _ hr hm ih =>
      obtain ⟨hwithin, hkeys⟩ := ih
      have hinner : (Document.map entries).Within (.map inner) := hwithin.field (Keyed.mem_of_get? hr)
      refine ⟨hinner.field hm, fun k hk => ?_⟩
      rcases List.mem_append.mp hk with hk | hk
      · rcases List.mem_append.mp hk with hk | hk
        · exact hkeys k hk
        · rw [List.mem_singleton.mp hk]
          decide
      · rw [List.mem_singleton.mp hk]
        exact hmem hinner hm

/-! ## 4. Locations differ -/

theorem prefix_of_mem_nodesAmong {location : Location} {entries : List (String × Document)} :
    ∀ node ∈ nodesAmong location entries, ∃ key ∈ Keyed.keys entries, location ++ [key] <+: node.location := by
  intro node hn
  induction mem_nodesAmong_iff.mp hn with
  | side hm => exact ⟨_, List.mem_map_of_mem (f := Prod.fst) hm, List.prefix_rfl⟩
  | under h _ _ ih =>
      obtain ⟨key, hk, hstart⟩ := ih (mem_nodesAmong_iff.mpr h)
      refine ⟨key, hk, hstart.trans ?_⟩
      rw [List.append_assoc]
      exact List.prefix_append _ _

theorem prefix_of_mem_nodesUnder {location : Location} {value : Document} :
    ∀ node ∈ nodesUnder location value, location ++ [childrenField] <+: node.location := by
  intro node hn
  rcases map_or_not value with ⟨fields, rfl⟩ | hv
  · cases hr : Keyed.get? fields childrenField with
    | none =>
        rw [nodesUnder_leaf hr] at hn
        cases hn
    | some inner =>
        rcases map_or_not inner with ⟨entries, rfl⟩ | hi
        · rw [nodesUnder_container hr] at hn
          obtain ⟨key, -, hstart⟩ := prefix_of_mem_nodesAmong node hn
          exact (List.prefix_append _ _).trans hstart
        · rw [nodesUnder_stray hr hi] at hn
          cases hn
  · rw [nodesUnder_other hv] at hn
    cases hn

/-- Behind a location different keys lead apart. -/
theorem key_eq_of_starts {location other : Location} {k l : String} (hk : location ++ [k] <+: other)
    (hl : location ++ [l] <+: other) : k = l := by
  have heq := (List.prefix_of_prefix_length_le hk hl (by simp)).eq_of_length (by simp)
  simpa using heq

/-- **The locations of nodes differ**, where each mapping holds each key once. -/
theorem nodup_locations :
    (∀ (entries : List (String × Document)), (Keyed.keys entries).Nodup → (∀ entry ∈ entries, entry.2.Distinct) →
      ∀ location, ((nodesAmong location entries).map Node.location).Nodup) ∧
    ∀ (value : Document), value.Distinct → ∀ location, ((nodesUnder location value).map Node.location).Nodup := by
  refine views_induction ?nil ?cons ?other ?leaf ?container ?stray
  case nil => exact fun _ _ _ => List.nodup_nil
  case cons =>
    intro key value rest hvalue hrest hkeys hdistinct location
    rw [Keyed.keys, List.map_cons, List.nodup_cons] at hkeys
    rw [List.forall_mem_cons] at hdistinct
    -- What is listed behind it begins with another key.
    have hother : ∀ {other : Location}, location ++ [key] <+: other →
        other ∉ (nodesAmong location rest).map Node.location := by
      intro other hstart hm
      obtain ⟨node, hn, rfl⟩ := List.mem_map.mp hm
      obtain ⟨next, hnext, hstart'⟩ := prefix_of_mem_nodesAmong node hn
      exact hkeys.1 (key_eq_of_starts hstart hstart' ▸ hnext)
    rw [nodesAmong, List.map_cons, List.map_append, List.nodup_cons, List.mem_append, not_or]
    refine ⟨⟨fun hm => ?_, hother List.prefix_rfl⟩, List.nodup_append.mpr
      ⟨hvalue hdistinct.1 _, hrest hkeys.2 hdistinct.2 _, fun other hm same hs he => ?_⟩⟩
    · obtain ⟨node, hn, he⟩ := List.mem_map.mp hm
      have hlength := (he ▸ prefix_of_mem_nodesUnder node hn : _ <+: location ++ [key]).length_le
      rw [List.length_append, List.length_singleton] at hlength
      omega
    · obtain ⟨node, hn, rfl⟩ := List.mem_map.mp hm
      exact hother ((List.prefix_append _ _).trans (prefix_of_mem_nodesUnder node hn)) (he ▸ hs)
  case other =>
    intro value h _ location
    rw [nodesUnder_other h]
    exact List.nodup_nil
  case leaf =>
    intro fields h _ location
    rw [nodesUnder_leaf h]
    exact List.nodup_nil
  case container =>
    intro fields entries h ih hd location
    have hentries : (Document.map fields).Within (.map entries) := Document.Within.self.field (Keyed.mem_of_get? h)
    rw [nodesUnder_container h]
    exact ih (hd entries hentries) (fun entry he => hd.within (hentries.field he)) _
  case stray =>
    intro fields value h hv _ location
    rw [nodesUnder_stray h hv]
    exact List.nodup_nil

end Spec

end RouteScaffold
