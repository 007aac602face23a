import RouteScaffold.Proofs.Document.Within
import RouteScaffold.Proofs.Outcomes
import RouteScaffold.Spec.Load

/-!
# Documents that are read hold each key once

Both formats let a later entry of a key win at the first place, so the mappings of a document that is read hold each
key once, at all depths (`Format.distinct_read`).
-/

namespace RouteScaffold

/-! ## 1. Mappings with a key set -/

theorem Keyed.nodup_keys_set {α : Type} {entries : Keyed α} (h : (keys entries).Nodup) (key : String) (value : α) :
    (keys (entries.set key value)).Nodup := by
  induction entries with
  | nil => exact List.nodup_cons.mpr ⟨List.not_mem_nil, List.nodup_nil⟩
  | cons entry rest ih =>
      obtain ⟨k, v⟩ := entry
      obtain ⟨hk, hrest⟩ := List.nodup_cons.mp h
      rw [set]
      by_cases he : k = key
      · rw [if_pos he]
        exact h
      · rw [if_neg he]
        refine List.nodup_cons.mpr ⟨fun hm => ?_, ih hrest⟩
        rcases (mem_keys_set rest key value k).mp hm with hm | hm
        · exact he hm
        · exact hk hm

/-- What is in a keyed list behind setting a key was there or was set. -/
theorem Keyed.mem_set {α : Type} {entries : Keyed α} {key : String} {value : α} {entry : String × α}
    (h : entry ∈ entries.set key value) : entry ∈ entries ∨ entry = (key, value) := by
  induction entries with
  | nil => exact .inr (List.mem_singleton.mp h)
  | cons first rest ih =>
      obtain ⟨k, v⟩ := first
      rw [set] at h
      by_cases he : k = key
      · rw [if_pos he] at h
        rcases List.mem_cons.mp h with rfl | h
        · exact .inr (by rw [he])
        · exact .inl (List.mem_cons_of_mem _ h)
      · rw [if_neg he] at h
        rcases List.mem_cons.mp h with rfl | h
        · exact .inl List.mem_cons_self
        · exact (ih h).imp_left (List.mem_cons_of_mem _)

namespace Document

/-- A mapping that holds each key once, with values whose mappings do. -/
def Fields.Distinct (fields : Fields) : Prop := (Keyed.keys fields).Nodup ∧ ∀ entry ∈ fields, entry.2.Distinct

theorem Fields.distinct_nil : Fields.Distinct [] := ⟨List.nodup_nil, fun _ h => absurd h List.not_mem_nil⟩

theorem Fields.Distinct.set {fields : Fields} (h : fields.Distinct) (key : String) {value : Document}
    (hv : value.Distinct) : Fields.Distinct (Keyed.set fields key value) := by
  refine ⟨Keyed.nodup_keys_set h.1 key value, fun entry he => ?_⟩
  rcases Keyed.mem_set he with he | rfl
  · exact h.2 entry he
  · exact hv

theorem Fields.distinct_ofEntries {entries : Fields} (h : ∀ entry ∈ entries, entry.2.Distinct) :
    (ofEntries entries).Distinct := by
  refine List.foldlRecOn entries _ distinct_nil fun fields hf entry he => ?_
  exact hf.set entry.1 (h entry he)

theorem Fields.Distinct.map {fields : Fields} (h : fields.Distinct) : (Document.map fields).Distinct :=
  everywhere_map h.1 h.2

/-! ## 2. JSON -/

namespace Json

/-- What a step reads has a property. -/
def Gives {α : Type} (r : Except Error (α × Cursor)) (P : α → Prop) : Prop := ∀ value c, r = .ok (value, c) → P value

section

variable {α β : Type} {P : α → Prop}

theorem gives_ok {value : α} (h : P value) (c : Cursor) : Gives (.ok (value, c)) P := by
  intro other c' he
  cases he
  exact h

theorem gives_error (e : Error) : Gives (.error e : Except Error (α × Cursor)) P := by
  intro value c he
  cases he

theorem gives_ite {p : Prop} [Decidable p] {a b : Except Error (α × Cursor)} (ha : Gives a P) (hb : Gives b P) :
    Gives (if p then a else b) P := by
  split
  · exact ha
  · exact hb

theorem Gives.map {r : Except Error (β × Cursor)} {Q : β → Prop} (h : Gives r Q) {f : β × Cursor → α × Cursor}
    (hf : ∀ pair, Q pair.1 → P (f pair).1) : Gives (r.map f) P := by
  intro value c he
  cases hr : r with
  | error e =>
      rw [hr] at he
      cases he
  | ok pair =>
      rw [hr] at he
      have hpair := hf pair (h pair.1 pair.2 hr)
      rwa [Except.ok.inj he] at hpair

end

/-! Numbers and words are flat. -/

theorem float_flat {negative : Bool} {digits : Nat} {e : Int} {c : Cursor} :
    Gives (float negative digits e c) Flat := by
  rw [float]
  split
  · exact gives_ok trivial _
  · exact gives_error _

theorem exponent_flat {negative : Bool} {s : Significand} {c : Cursor} : Gives (exponent negative s c) Flat := by
  unfold exponent
  dsimp only
  split
  · exact gives_error _
  · refine gives_ite ?_ (gives_error _)
    split
    · exact float_flat
    · exact gives_ite (gives_error _) (gives_ok trivial _)

theorem whole_flat {negative : Bool} {s : Significand} {c : Cursor} : Gives (numberTail.whole negative s c) Flat :=
  gives_ite float_flat (gives_ite (gives_ite float_flat (gives_ok trivial _)) (gives_ok trivial _))

theorem numberTail_flat {negative : Bool} {s : Significand} {c : Cursor} : Gives (numberTail negative s c) Flat := by
  rw [numberTail]
  split
  · refine gives_ite (gives_error _) ?_
    dsimp only
    split
    · exact gives_ite exponent_flat float_flat
    · exact float_flat
  · exact gives_ite exponent_flat whole_flat
  · exact whole_flat

theorem number_flat {negative : Bool} {c : Cursor} : Gives (number negative c) Flat := by
  rw [number]
  split
  · exact gives_error _
  · split
    · exact gives_ite (gives_error _) numberTail_flat
    · exact numberTail_flat
  · exact gives_ite numberTail_flat (gives_error _)

theorem word_flat (value : Document) (h : value.Flat) (expected : List Char) (c : Cursor) :
    Gives (word value expected c) Flat := by
  induction expected generalizing c with
  | nil => exact gives_ok h c
  | cons x more ih =>
      rw [word]
      split
      · exact gives_error _
      · exact gives_ite (ih _) (gives_error _)

/-! Lists and mappings hold what steps give. -/

theorem gives_items {element : Step Document} (h : ∀ c, Gives (element c) Distinct) (fuel : Nat) (first : Bool)
    {read : List Document} (hr : ∀ item ∈ read, item.Distinct) (c : Cursor) :
    Gives (items element fuel first read c) fun items => ∀ item ∈ items, item.Distinct := by
  induction fuel generalizing first read c with
  | zero =>
      rw [items]
      exact gives_error _
  | succ fuel ih =>
      have hitem : ∀ c, Gives (items.item element fuel read c) fun items => ∀ item ∈ items, item.Distinct := by
        intro c
        rw [items.item]
        split
        case h_1 value c' he =>
            exact ih false (List.forall_mem_cons.mpr ⟨h c value c' he, hr⟩) c'
        case h_2 => exact gives_error _
      rw [items]
      dsimp only
      split
      · exact gives_error _
      · exact gives_ok (fun item hm => hr item (List.mem_reverse.mp hm)) _
      · refine gives_ite (hitem _) (gives_ite ?_ (gives_error _))
        split
        · exact gives_error _
        · exact gives_error _
        · exact hitem _

theorem gives_entries {element : Step Document} (h : ∀ c, Gives (element c) Distinct) (fuel : Nat) (first : Bool)
    {read : Fields} (hr : ∀ entry ∈ read, entry.2.Distinct) (c : Cursor) :
    Gives (entries element fuel first read c) fun entries => ∀ entry ∈ entries, entry.2.Distinct := by
  induction fuel generalizing first read c with
  | zero =>
      rw [entries]
      exact gives_error _
  | succ fuel ih =>
      have hentry : ∀ c, Gives (entries.entry element fuel read c)
          fun entries => ∀ entry ∈ entries, entry.2.Distinct := by
        intro c
        rw [entries.entry]
        split
        · exact gives_error _
        · exact gives_error _
        · split
          · exact gives_error _
          · dsimp only
            split
            · exact gives_error _
            · split
              case h_1 value c' he =>
                  exact ih false (List.forall_mem_cons.mpr ⟨h _ value c' he, hr⟩) c'
              case h_2 => exact gives_error _
            · exact gives_error _
        · exact gives_error _
      rw [entries]
      split
      · exact gives_error _
      · exact gives_ok (fun entry hm => hr entry (List.mem_reverse.mp hm)) _
      · exact gives_ite (hentry _) (gives_ite (hentry _) (gives_error _))

theorem Gives.distinct {r : Except Error (Document × Cursor)} (h : Gives r Flat) : Gives r Distinct :=
  fun value c he => everywhere_flat (h value c he)

theorem gives_value (depth : Nat) (c : Cursor) : Gives (value depth c) Distinct := by
  induction depth using Nat.strongRecOn generalizing c with
  | ind depth ih =>
      unfold value
      dsimp only
      split
      · exact gives_error _
      · exact (word_flat .null trivial _ _).distinct
      · exact (word_flat (.bool true) trivial _ _).distinct
      · exact (word_flat (.bool false) trivial _ _).distinct
      · exact number_flat.distinct
      · refine Gives.distinct (Gives.map (P := Flat) (Q := fun _ => True) ?_ ?_)
        · exact fun _ _ _ => trivial
        · exact fun _ _ => trivial
      · obtain _ | _ | inner := depth
        · exact gives_error _
        · exact gives_error _
        · exact (gives_items (ih (inner + 1) (Nat.lt_succ_self _)) _ true (List.forall_mem_nil _) _).map
            (P := Distinct) fun _ => everywhere_list
      · obtain _ | _ | inner := depth
        · exact gives_error _
        · exact gives_error _
        · exact (gives_entries (ih (inner + 1) (Nat.lt_succ_self _)) _ true (List.forall_mem_nil _) _).map
            (P := Distinct) fun _ hp => (Fields.distinct_ofEntries hp).map
      · exact gives_ite number_flat.distinct (gives_error _)

theorem distinct_read {source : String} {document : Document} (h : read source = .ok document) : document.Distinct := by
  rw [read] at h
  cases hv : value depthLimit ⟨source.toList, 0⟩ with
  | error e =>
      rw [hv] at h
      cases h
  | ok pair =>
      obtain ⟨found, c⟩ := pair
      rw [hv] at h
      dsimp only at h
      split at h
      · cases h
        exact gives_value _ _ document c hv
      · cases h

end Json

/-! ## 3. YAML -/

namespace Yaml

/-- What a reading gives has a property. -/
def Gives {α : Type} (r : Reading α) (P : α → Prop) : Prop :=
  ∀ count value after, r.run count = .ok (value, after) → P value

section

variable {α β : Type} {P : α → Prop}

theorem gives_pure {value : α} (h : P value) : Gives (pure value) P := by
  intro count other after he
  cases he
  exact h

theorem gives_throw (e : Error) : Gives (throw e : Reading α) P := by
  intro count value after he
  cases he

theorem Gives.bind {r : Reading β} {Q : β → Prop} (h : Gives r Q) {next : β → Reading α}
    (hn : ∀ value, Q value → Gives (next value) P) : Gives (r >>= next) P := by
  intro count value after he
  rw [StateT.run_bind] at he
  cases hr : r.run count with
  | error e =>
      rw [hr] at he
      cases he
  | ok pair =>
      rw [hr] at he
      exact hn pair.1 (h count pair.1 pair.2 hr) pair.2 value after he

theorem gives_true (r : Reading α) : Gives r fun _ => True := fun _ _ _ _ => trivial

theorem gives_tryCatch {r : Reading α} (h : Gives r P) {handler : Error → Reading α} (hh : ∀ e, Gives (handler e) P) :
    Gives (tryCatch r handler) P := by
  intro count value after he
  change tryCatch (r.run count) (fun e => (handler e).run count) = _ at he
  cases hr : r.run count with
  | ok pair =>
      rw [hr] at he
      exact h count value after (hr.trans he)
  | error e =>
      rw [hr] at he
      exact hh e count value after he

theorem Gives.located {r : Reading α} (h : Gives r P) (mark : Mark) (way : Route) : Gives (located mark way r) P := by
  refine gives_tryCatch h fun e => ?_
  split
  · exact gives_throw _
  · exact gives_throw _

theorem gives_ite {p : Prop} [Decidable p] {a b : Reading α} (ha : Gives a P) (hb : Gives b P) :
    Gives (if p then a else b) P := by
  split
  · exact ha
  · exact hb

theorem gives_failMissing (s : Source) : Gives (failMissing s : Reading α) P := by
  rw [failMissing]
  split
  · exact gives_throw _
  · exact gives_throw _

end

theorem gives_readItems {s : Source} {item : Route → Node → Reading Document}
    (h : ∀ way node, Gives (item way node) Distinct) (way : Route) (n : Nat) (nodes : List Node) :
    Gives (readItems s item way n nodes) fun items => ∀ item ∈ items, item.Distinct := by
  induction nodes generalizing n with
  | nil => exact gives_pure (List.forall_mem_nil _)
  | cons node rest ih =>
      unfold readItems
      split
      · exact gives_pure (List.forall_mem_nil _)
      · exact gives_failMissing s
      · rename_i hnodes
        cases hnodes
        refine (h _ _).bind fun value hv => (ih _).bind fun values hvs => gives_pure ?_
        exact List.forall_mem_cons.mpr ⟨hv, hvs⟩

theorem gives_readEntries {s : Source} {entry : Fields → String → Route → Node → Reading Fields}
    (h : ∀ made name way node, made.Distinct → Gives (entry made name way node) Fields.Distinct) (first later : String)
    (way : Route) {made : Fields} (hm : made.Distinct) (nodes : List Node) :
    Gives (readEntries s first later entry way made nodes) Fields.Distinct := by
  fun_induction readEntries s first later entry way made nodes with
  | case1 => exact gives_pure hm
  | case2 => exact gives_failMissing s
  | case3 => exact gives_failMissing s
  | case4 first made key value rest _ ih =>
      refine (gives_true _).bind fun name _ => (h _ _ _ _ hm).bind fun made hm => ih made hm

theorem gives_ofScalar (scalar : Scalar) : Gives (ofScalar scalar) Distinct := by
  cases scalar with
  | integer n => exact gives_ite (gives_throw _) (gives_pure (everywhere_flat trivial))
  | float x =>
      refine gives_pure (everywhere_flat ?_)
      split <;> trivial
  | _ => exact gives_pure (everywhere_flat trivial)

theorem gives_readScalar (head : Head) (value : String) (plain : Bool) :
    Gives (readScalar head value plain) Distinct := by
  rw [readScalar]
  split
  · exact gives_ofScalar _
  · exact gives_throw _

theorem gives_content (s : Source) (depth : Nat) (way : Route) (node : Node) :
    Gives (content s depth way node) Distinct := by
  induction depth generalizing way node with
  | zero =>
    cases node with
    | missing => exact gives_failMissing s
    | void => exact gives_pure (everywhere_flat trivial)
    | «alias» => exact gives_throw _
    | scalar head value plain => exact (gives_ite (gives_throw _) (gives_readScalar head value plain)).located _ _
    | list head _ => exact (gives_ite (gives_throw _) (gives_throw _)).located _ _
    | map head _ => exact (gives_ite (gives_throw _) (gives_throw _)).located _ _
  | succ depth ih =>
    have hvalue : ∀ way node, Gives (resolved s node >>= content s depth way) Distinct := fun way node =>
      (gives_true _).bind fun _ _ => ih _ _
    cases node with
    | missing => exact gives_failMissing s
    | void => exact gives_pure (everywhere_flat trivial)
    | «alias» => exact gives_throw _
    | scalar head value plain => exact (gives_ite (gives_throw _) (gives_readScalar head value plain)).located _ _
    | list head items =>
        refine (gives_ite (gives_throw _) ?_).located _ _
        exact (gives_readItems hvalue way 0 items).bind fun _ hi => gives_pure (everywhere_list hi)
    | map head parts =>
        refine (gives_ite (gives_throw _) ?_).located _ _
        refine (gives_readEntries (fun made name way node hm => ?_) _ _ way Fields.distinct_nil parts).bind
          fun _ hf => gives_pure (hf.map)
        exact (gives_true _).bind fun _ _ => (ih _ _).bind fun _ hv => gives_pure (hm.set name hv)

theorem of_runReading {α : Type} {P : α → Prop} {s : Source} {r : Reading α} (h : Gives r P) {value : α}
    (hr : runReading s r = .ok value) : P value := by
  rw [runReading] at hr
  cases hc : r.run 0 with
  | error e =>
      rw [hc] at hr
      cases hr
  | ok pair =>
      rw [hc] at hr
      have hp := h 0 pair.1 pair.2 hc
      simp only [bind, Except.bind] at hr
      split at hr
      · cases hr
      · split at hr
        · cases hr
          exact hp
        · cases hr

theorem distinct_read {text : String} {document : Document} (h : read text = .ok document) : document.Distinct :=
  of_runReading (gives_content _ _ _ _) h

end Yaml

end Document

/-! ## 4. Both formats -/

/-- **A document that is read holds each key once**, at all depths. -/
theorem Format.distinct_read {format : Format} {text : String} {document : Document}
    (h : format.read text = .ok document) : document.Distinct := by
  cases format with
  | json => exact Document.Json.distinct_read (ok_of_mapError h)
  | yaml => exact Document.Yaml.distinct_read (ok_of_mapError h)

end RouteScaffold
