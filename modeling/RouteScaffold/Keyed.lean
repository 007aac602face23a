/-!
# Keyed lists

Values under text keys in a fixed order. Setting a key that is there replaces its value in place;
setting a new key adds it at the end.
-/

namespace RouteScaffold

/-- Values in order, each under a key. -/
abbrev Keyed (α : Type) := List (String × α)

namespace Keyed

variable {α : Type}

/-- The keyed list with a key set. -/
def set (entries : Keyed α) (key : String) (value : α) : Keyed α :=
  match entries with
  | [] => [(key, value)]
  | (k, v) :: rest => if k = key then (k, value) :: rest else (k, v) :: set rest key value

/-- The value under a key. -/
def get? (entries : Keyed α) (key : String) : Option α := List.lookup key entries

/-- The keys in order. -/
def keys (entries : Keyed α) : List String := List.map Prod.fst entries

/-- The values in order. -/
def values (entries : Keyed α) : List α := List.map Prod.snd entries

theorem get?_cons (name key : String) (value : α) (rest : Keyed α) :
    get? ((name, value) :: rest) key = if name = key then some value else get? rest key := by
  unfold get?
  rw [List.lookup_cons]
  by_cases h : name = key
  · rw [h, if_pos rfl, beq_self_eq_true]
  · rw [if_neg h, beq_false_of_ne (Ne.symm h)]

/-- Nothing is found exactly under the keys that are not there. -/
theorem get?_eq_none_iff (entries : Keyed α) (key : String) :
    get? entries key = none ↔ key ∉ keys entries := by
  induction entries with
  | nil => simp [get?, keys]
  | cons entry rest ih =>
      obtain ⟨name, value⟩ := entry
      rw [get?_cons]
      by_cases h : name = key
      · simp [keys, h]
      · rw [if_neg h, ih]
        simp [keys, Ne.symm h]

/-- Setting a key adds it to the keys. -/
theorem mem_keys_set (entries : Keyed α) (key : String) (value : α) (name : String) :
    name ∈ keys (set entries key value) ↔ name = key ∨ name ∈ keys entries := by
  induction entries with
  | nil => simp [set, keys]
  | cons entry rest ih =>
      obtain ⟨k, v⟩ := entry
      unfold set
      by_cases h : k = key
      · rw [if_pos h]
        simp [keys, h]
      · rw [if_neg h]
        simp only [keys, List.map_cons, List.mem_cons] at ih ⊢
        rw [ih]
        exact or_left_comm

/-- Setting a new key adds it at the end. -/
theorem set_of_not_mem (entries : Keyed α) (key : String) (value : α) (h : key ∉ keys entries) :
    set entries key value = entries ++ [(key, value)] := by
  induction entries with
  | nil => rfl
  | cons entry rest ih =>
      obtain ⟨k, v⟩ := entry
      simp only [keys, List.map_cons, List.mem_cons, not_or] at h ih
      rw [set, if_neg (Ne.symm h.1), ih h.2, List.cons_append]

/-- Under a key that is set its value is found, under others what was there. -/
theorem get?_set (entries : Keyed α) (key : String) (value : α) (name : String) :
    get? (set entries key value) name = if key = name then some value else get? entries name := by
  induction entries with
  | nil => exact get?_cons key name value []
  | cons entry rest ih =>
      obtain ⟨k, v⟩ := entry
      unfold set
      by_cases h : k = key
      · subst h
        rw [if_pos rfl, get?_cons, get?_cons]
        split <;> rfl
      · rw [if_neg h, get?_cons, get?_cons, ih]
        by_cases hk : k = name
        · rw [if_pos hk, if_pos hk, if_neg fun e => h (hk.trans e.symm)]
        · rw [if_neg hk, if_neg hk]

/-- Where the keys differ, each value is found under its key. -/
theorem get?_of_mem {entries : Keyed α} (h : (keys entries).Nodup) {key : String} {value : α}
    (hm : (key, value) ∈ entries) : get? entries key = some value := by
  induction entries with
  | nil => cases hm
  | cons entry rest ih =>
      obtain ⟨k, v⟩ := entry
      simp only [keys, List.map_cons, List.nodup_cons] at h ih
      rw [get?_cons]
      rcases List.mem_cons.mp hm with he | hm
      · cases he
        rw [if_pos rfl]
      · have hk : k ≠ key := fun e => h.1 (e ▸ List.mem_map_of_mem hm)
        rw [if_neg hk, ih h.2 hm]

/-- What is found under a key is there under this key. -/
theorem mem_of_get? {entries : Keyed α} {key : String} {value : α} (h : get? entries key = some value) :
    (key, value) ∈ entries := by
  induction entries with
  | nil => cases h
  | cons entry rest ih =>
      obtain ⟨k, v⟩ := entry
      rw [get?_cons] at h
      by_cases hk : k = key
      · rw [if_pos hk] at h
        cases h
        rw [hk]
        exact List.mem_cons_self
      · rw [if_neg hk] at h
        exact List.mem_cons_of_mem _ (ih h)

end Keyed

end RouteScaffold
