import RouteScaffold.ArtifactWriter
import RouteScaffold.Proofs.Files.Places

/-!
# What tasks leave on a disk

* `Filing.MadeAll`: how a directory is made with those on the way to it, also where that fails;
* `Filing.makes_makeAll`, `Filing.put_write`: what making directories and writing a file change;
* `Task.leaves`: what a task leaves at a place, which depends on the working directory alone;
* `Left`: what a disk holds when tasks have succeeded on it; nowhere does a file become a directory, nor the other way
  round;
* `left_perform`: every task that succeeds leaves what it is to leave;
* `Left.entry_eq`: what is left depends neither on the order of the tasks nor on what has been there.
-/

namespace RouteScaffold

/-! ## 1. Asking and changing -/

namespace Filing

/-- **Asking leaves the disk.** -/
theorem run_ask {α : Type} (action path : String) (f : Disk → Except SystemError α) (d : Disk) :
    (ask action path f).run d = ((f d).mapError (.ofSystem action path), d) := by
  have hget : (get : Filing Disk).run d = (.ok d, d) := rfl
  rw [ask, run_bind_of_ok hget]
  cases f d with
  | ok value => rfl
  | error e => rfl

theorem ask_eq_ok_iff {α : Type} {action path : String} {f : Disk → Except SystemError α} {d d' : Disk} {value : α} :
    (ask action path f).run d = (.ok value, d') ↔ f d = .ok value ∧ d = d' := by
  rw [run_ask]
  cases f d with
  | ok value' => exact ⟨fun h => ⟨by cases h; rfl, by cases h; rfl⟩, fun ⟨h, hd⟩ => by cases h; cases hd; rfl⟩
  | error e => exact ⟨nofun, nofun⟩

section Ask

variable {α β : Type} {action path : String} {f : Disk → Except SystemError α} {more : α → Filing β} {d : Disk}

theorem run_ask_bind_of_ok {value : α} (h : f d = .ok value) :
    (ask action path f >>= more).run d = (more value).run d :=
  run_bind_of_ok (by rw [run_ask, h]; rfl)

theorem run_ask_bind_of_error {e : SystemError} (h : f d = .error e) :
    (ask action path f >>= more).run d = (.error (.ofSystem action path e), d) :=
  run_bind_of_error (by rw [run_ask, h]; rfl)

end Ask

/-- The names of the files in a directory. -/
theorem fileNames_ok {d : Disk} {directory : String} {names : List String}
    (h : ((fileNames directory).run d).1 = .ok names) : ∃ entries, d.list directory = .ok entries ∧
      ∀ name, name ∈ names ↔ ∃ content, (name, Entry.file content) ∈ entries := by
  cases hl : d.list directory with
  | error e =>
      rw [fileNames, run_ask_bind_of_error hl] at h
      cases h
  | ok entries =>
      rw [fileNames, run_ask_bind_of_ok hl] at h
      cases h
      refine ⟨entries, rfl, fun name => ?_⟩
      rw [List.mem_mergeSort, List.mem_map]
      constructor
      · rintro ⟨⟨name, entry⟩, hm, rfl⟩
        obtain ⟨hm, hfile⟩ := List.mem_filter.mp hm
        cases entry with
        | directory => cases hfile
        | file content => exact ⟨content, hm⟩
      · rintro ⟨content, hm⟩
        exact ⟨(name, .file content), List.mem_filter.mpr ⟨hm, rfl⟩, rfl⟩

theorem change_ok {action path : String} {f : Disk → Except SystemError Disk} {d d' : Disk}
    (h : (change action path f).run d = (.ok (), d')) : f d = .ok d' := by
  cases hf : f d with
  | error e =>
      rw [change, run_ask_bind_of_error hf] at h
      cases h
  | ok after =>
      rw [change, run_ask_bind_of_ok hf] at h
      cases h
      rfl

end Filing

/-! ## 2. Directories -/

/-- Directories are made at some places, where nothing or a directory has been. -/
structure Disk.Makes (places : List Place) (d d' : Disk) : Prop where
  stand : d'.toStandpoint = d.toStandpoint
  made : ∀ x ∈ places, d'.entry? x = some .directory
  free : ∀ x ∈ places, d.entry? x = none ∨ d.entry? x = some .directory
  others : ∀ x, x ∉ places → d'.entry? x = d.entry? x

namespace Disk

theorem Makes.here {places : List Place} {d d' : Disk} (h : Makes places d d') : d'.here = d.here :=
  congrArg Standpoint.here h.stand

theorem Makes.behind {places more : List Place} {d d' d'' : Disk} (h : Makes places d d') (h' : Makes more d' d'')
    (hsub : places ⊆ more) : Makes more d d'' where
  stand := h'.stand.trans h.stand
  made := h'.made
  free x hx := by
    by_cases hp : x ∈ places
    · exact h.free x hp
    · rw [← h.others x hp]
      exact h'.free x hx
  others x hx := (h'.others x hx).trans (h.others x fun hp => hx (hsub hp))

theorem makes_of_isDirectory {d : Disk} {path : String} (h : d.isDirectory path = true) :
    Makes (way d.here path) d d := by
  obtain ⟨slash, hfind⟩ := isDirectory_iff.mp h
  have hway := (leads_find hfind).2
  exact ⟨rfl, hway, fun x hx => .inr (hway x hx), fun _ _ => rfl⟩

theorem makes_makeDirectory {d d' : Disk} {path : String} (h : d.makeDirectory path = .ok d') :
    Makes (way d.here path) d d' := by
  obtain ⟨⟨slash, hfind⟩, rfl⟩ := makeDirectory_eq_ok h
  obtain ⟨-, hne, hnone, hmem, hway⟩ := leads_find hfind
  refine ⟨rfl, fun x hx => ?_, fun x hx => ?_, fun x hx => ?_⟩
  · rw [entry?_put d hne]
    split
    · rfl
    · exact (hway x hx).resolve_left ‹_›
  · rcases hway x hx with rfl | hdirectory
    · exact .inl hnone
    · exact .inr hdirectory
  · rw [entry?_put d hne, if_neg fun he : x = target d.here path => hx (by rw [he]; exact hmem)]

end Disk

open Disk

namespace Filing

/-- How a directory is made with those on the way to it: where the parent is not there, behind all on the way to the
    parent. It may be there already, and wherever it fails what has been made is left. -/
inductive MadeAll : String → Disk → Except SystemError Unit → Disk → Prop
  | empty (d : Disk) : MadeAll "" d (.ok ()) d
  | there {path : String} {d : Disk} (h : d.isDirectory path = true) : MadeAll path d (.ok ()) d
  | made {path : String} {d d' : Disk} (h : d.makeDirectory path = .ok d') : MadeAll path d (.ok ()) d'
  | failed (path : String) (d : Disk) (e : SystemError) : MadeAll path d (.error e) d
  | failedAbove {path parent : String} {d d' : Disk} {e : SystemError} (hp : Path.parent? path = some parent)
      (above : MadeAll parent d (.error e) d') : MadeAll path d (.error e) d'
  | behind {path parent : String} {d d' d'' : Disk} {result : Except SystemError Unit}
      (hp : Path.parent? path = some parent) (above : MadeAll parent d (.ok ()) d') (own : MadeAll path d' result d'') :
      MadeAll path d result d''

theorem madeAll_there (path : String) (d : Disk) (e : SystemError) :
    MadeAll path d (if d.isDirectory path then .ok () else .error e) d := by
  split
  · exact .there ‹_›
  · exact .failed path d e

theorem madeAll_makeAll (fuel : Nat) (path : String) (d : Disk) :
    MadeAll path d (makeAll fuel path d).1 (makeAll fuel path d).2 := by
  induction fuel generalizing path d with
  | zero => exact .failed path d _
  | succ fuel ih =>
      rw [makeAll]
      split
      · rename_i hempty
        rw [String.isEmpty_iff.mp hempty]
        exact .empty d
      split
      · exact .made ‹_›
      split
      · split
        · exact .failed path d _
        · rename_i parent hparent
          have habove := ih parent d
          split
          · rename_i hall
            rw [hall] at habove
            exact .failedAbove hparent habove
          · rename_i hall
            rw [hall] at habove
            refine .behind hparent habove ?_
            split
            · exact .made ‹_›
            · exact madeAll_there _ _ _
      · exact madeAll_there _ _ _

/-- **Directories are made all along the way**, and only there. -/
theorem MadeAll.makes {path : String} {d d' : Disk} {result : Except SystemError Unit} (h : MadeAll path d result d')
    (hr : result = .ok ()) : Makes (way d.here path) d d' := by
  induction h with
  | empty d => exact ⟨rfl, fun x hx => (by cases hx), fun x hx => (by cases hx), fun _ _ => rfl⟩
  | there hdirectory => exact makes_of_isDirectory hdirectory
  | made hmake => exact makes_makeDirectory hmake
  | failed => cases hr
  | failedAbove => cases hr
  | behind hp above own iha iho =>
      have habove := iha rfl
      refine habove.behind ?_ (way_parent? hp _)
      rw [← habove.here]
      exact iho hr

theorem makes_makeAll {fuel : Nat} {path : String} {d d' : Disk} (h : makeAll fuel path d = (.ok (), d')) :
    Makes (way d.here path) d d' := by
  have hmade := madeAll_makeAll fuel path d
  rw [h] at hmade
  exact hmade.makes rfl

theorem makes_ensureDirectory {path : String} {d d' : Disk} (h : (ensureDirectory path).run d = (.ok (), d')) :
    Makes (way d.here path) d d' := by
  obtain ⟨found, d₁, hget, h⟩ := run_bind_eq_ok.mp h
  cases hget
  rcases hall : makeAll (path.length + 1) path d with ⟨e | ⟨⟩, after⟩
  · rw [hall] at h
    cases h
  · rw [hall] at h
    cases h
    exact makes_makeAll hall

/-! ## 3. Files -/

/-- **A file is written at the end of its path**, where nothing or a file has been. -/
theorem put_write {path : String} {content : ByteArray} {d d' : Disk}
    (h : (write path content).run d = (.ok (), d')) :
    target d.here path ≠ [] ∧ d' = d.put (target d.here path) (.file content) ∧
      d.entry? (target d.here path) ≠ some .directory := by
  obtain ⟨-, hfree, -, rfl⟩ := write_eq_ok_iff.mp (change_ok h)
  exact ⟨fun htop => hfree (by rw [htop]; rfl), rfl, hfree⟩

end Filing

/-! ## 4. Tasks -/

/-- What a task leaves at a place. -/
def Task.leaves (here : Place) : Task → Place → Option Entry
  | .makeDirectory path, x => if x ∈ way here path then some .directory else none
  | .writeFile path text, x => if x = target here path then some (.file text.toUTF8) else none

theorem Task.leaves_makeDirectory {here x : Place} {path : String} {e : Entry} :
    (Task.makeDirectory path).leaves here x = some e ↔ x ∈ way here path ∧ e = .directory := by
  rw [leaves]
  by_cases h : x ∈ way here path
  · rw [if_pos h, Option.some_inj, eq_comm]
    exact ⟨fun he => ⟨h, he⟩, And.right⟩
  · rw [if_neg h]
    exact ⟨fun he => (by cases he), fun he => absurd he.1 h⟩

theorem Task.leaves_writeFile {here x : Place} {path text : String} {e : Entry} :
    (Task.writeFile path text).leaves here x = some e ↔ x = target here path ∧ e = .file text.toUTF8 := by
  rw [leaves]
  by_cases h : x = target here path
  · rw [if_pos h, Option.some_inj, eq_comm]
    exact ⟨fun he => ⟨h, he⟩, And.right⟩
  · rw [if_neg h]
    exact ⟨fun he => (by cases he), fun he => absurd he.1 h⟩

/-- Both entries are files, or both are directories. -/
def Entry.SameKind (e e' : Entry) : Prop := Filing.isFileEntry e = Filing.isFileEntry e'

/-- What a disk holds when tasks have succeeded on it. -/
structure Left (tasks : List Task) (d d' : Disk) : Prop where
  stand : d'.toStandpoint = d.toStandpoint
  /-- Where tasks leave something, there is what one of them leaves, and what the others leave is of the same kind. -/
  left : ∀ x, ∀ t ∈ tasks, ∀ e, t.leaves d.here x = some e →
    ∃ t' ∈ tasks, ∃ e', t'.leaves d.here x = some e' ∧ d'.entry? x = some e' ∧ e.SameKind e'
  /-- What has been there has not changed its kind, -/
  kind : ∀ x e, d.entry? x = some e → ∃ e', d'.entry? x = some e' ∧ e.SameKind e'
  /-- nor at all where the tasks leave nothing. -/
  others : ∀ x, (∀ t ∈ tasks, t.leaves d.here x = none) → d'.entry? x = d.entry? x

theorem Left.here {tasks : List Task} {d d' : Disk} (h : Left tasks d d') : d'.here = d.here :=
  congrArg Standpoint.here h.stand

theorem Left.nil (d : Disk) : Left [] d d where
  stand := rfl
  left _ _ ht := (by cases ht)
  kind _ e he := ⟨e, he, rfl⟩
  others _ _ := rfl

/-- What tasks have left others keep, or leave something of the same kind. -/
theorem Left.append {tasks more : List Task} {d d' d'' : Disk} (h : Left tasks d d') (h' : Left more d' d'') :
    Left (tasks ++ more) d d'' where
  stand := h'.stand.trans h.stand
  left := by
    intro x t ht e he
    by_cases hmore : ∀ t ∈ more, t.leaves d'.here x = none
    · rw [h'.others x hmore]
      rw [h.here] at hmore
      rcases List.mem_append.mp ht with ht | ht
      · obtain ⟨t', ht', e', hrest⟩ := h.left x t ht e he
        exact ⟨t', List.mem_append_left _ ht', e', hrest⟩
      · rw [hmore t ht] at he
        cases he
    · simp only [not_forall] at hmore
      obtain ⟨u, hu, hleaves⟩ := hmore
      obtain ⟨e₁, he₁⟩ := Option.ne_none_iff_exists'.mp hleaves
      obtain ⟨t', ht', e', hleft, hentry, hkind⟩ := h'.left x u hu e₁ he₁
      rw [h.here] at hleft
      refine ⟨t', List.mem_append_right _ ht', e', hleft, hentry, ?_⟩
      rcases List.mem_append.mp ht with ht | ht
      · obtain ⟨-, -, e₂, -, hentry₂, hkind₂⟩ := h.left x t ht e he
        obtain ⟨e₃, hentry₃, hkind₃⟩ := h'.kind x e₂ hentry₂
        rw [hentry] at hentry₃
        cases hentry₃
        exact hkind₂.trans hkind₃
      · rw [← h.here] at he
        obtain ⟨-, -, e₂, -, hentry₂, hkind₂⟩ := h'.left x t ht e he
        rw [hentry] at hentry₂
        cases hentry₂
        exact hkind₂
  kind := by
    intro x e he
    obtain ⟨e₁, he₁, hkind₁⟩ := h.kind x e he
    obtain ⟨e₂, he₂, hkind₂⟩ := h'.kind x e₁ he₁
    exact ⟨e₂, he₂, hkind₁.trans hkind₂⟩
  others := by
    intro x hx
    rw [List.forall_mem_append] at hx
    rw [h'.others x (by rw [h.here]; exact hx.2), h.others x hx.1]

/-- **A task that succeeds leaves what it is to leave.** -/
theorem left_perform {task : Task} {d d' : Disk} (h : task.perform.run d = (.ok (), d')) : Left [task] d d' := by
  cases task with
  | makeDirectory path =>
      have hmakes := Filing.makes_ensureDirectory h
      refine ⟨hmakes.stand, fun x t ht e he => ?left, fun x e he => ?kind, fun x hx => ?others⟩
      case left =>
        rw [List.mem_singleton.mp ht] at he
        obtain ⟨hway, rfl⟩ := Task.leaves_makeDirectory.mp he
        exact ⟨_, List.mem_cons_self, .directory, he, hmakes.made x hway, rfl⟩
      case kind =>
        by_cases hway : x ∈ way d.here path
        · have hfree := (hmakes.free x hway).resolve_left (by rw [he]; exact Option.some_ne_none e)
          rw [he] at hfree
          cases hfree
          exact ⟨.directory, hmakes.made x hway, rfl⟩
        · exact ⟨e, (hmakes.others x hway).trans he, rfl⟩
      case others =>
        refine hmakes.others x fun hway => ?_
        have hleaves := Task.leaves_makeDirectory.mpr ⟨hway, rfl⟩
        rw [hx _ List.mem_cons_self] at hleaves
        cases hleaves
  | writeFile path text =>
      obtain ⟨hne, rfl, hdirectory⟩ := Filing.put_write h
      refine ⟨rfl, fun x t ht e he => ?left, fun x e he => ?kind, fun x hx => ?others⟩
      case left =>
        rw [List.mem_singleton.mp ht] at he
        obtain ⟨hplace, rfl⟩ := Task.leaves_writeFile.mp he
        refine ⟨_, List.mem_cons_self, .file text.toUTF8, he, ?_, rfl⟩
        rw [entry?_put d hne, if_pos hplace]
      case kind =>
        rw [entry?_put d hne]
        by_cases hplace : x = target d.here path
        · rw [if_pos hplace]
          refine ⟨_, rfl, ?_⟩
          cases e with
          | file => rfl
          | directory => exact absurd (hplace ▸ he) hdirectory
        · rw [if_neg hplace]
          exact ⟨e, he, rfl⟩
      case others =>
        rw [entry?_put d hne, if_neg fun hplace => ?_]
        have hleaves : (Task.writeFile path text).leaves d.here x = _ := Task.leaves_writeFile.mpr ⟨hplace, rfl⟩
        rw [hx _ List.mem_cons_self] at hleaves
        cases hleaves

/-- **What is left depends neither on the order of the tasks nor on what has been there**, if no two of them write
    different files at one place; where they leave nothing it is what has been there. -/
theorem Left.entry_eq {tasks tasks' : List Task} {d d' d₁ d₂ : Disk} (h : Left tasks d d₁) (h' : Left tasks' d' d₂)
    (hhere : d'.here = d.here) (hperm : tasks.Perm tasks')
    (honce : ∀ t ∈ tasks, ∀ t' ∈ tasks, ∀ x c c', t.leaves d.here x = some (.file c) →
      t'.leaves d.here x = some (.file c') → c = c') {x : Place}
    (hx : (∀ t ∈ tasks, t.leaves d.here x = none) → d.entry? x = d'.entry? x) : d₁.entry? x = d₂.entry? x := by
  by_cases hnone : ∀ t ∈ tasks, t.leaves d.here x = none
  · rw [h.others x hnone, h'.others x fun t ht => by rw [hhere]; exact hnone t (hperm.mem_iff.mpr ht), hx hnone]
  · simp only [not_forall] at hnone
    obtain ⟨t, ht, hleaves⟩ := hnone
    obtain ⟨e, he⟩ := Option.ne_none_iff_exists'.mp hleaves
    obtain ⟨t₁, ht₁, e₁, hleft₁, hentry₁, hkind₁⟩ := h.left x t ht e he
    obtain ⟨t₂, ht₂, e₂, hleft₂, hentry₂, hkind₂⟩ := h'.left x t (hperm.mem_iff.mp ht) e (by rw [hhere]; exact he)
    rw [hhere] at hleft₂
    have hkind : e₁.SameKind e₂ := hkind₁.symm.trans hkind₂
    rw [hentry₁, hentry₂]
    cases e₁ with
    | directory =>
        cases e₂ with
        | directory => rfl
        | file => cases hkind
    | file c₁ =>
        cases e₂ with
        | directory => cases hkind
        | file c₂ => rw [honce t₁ ht₁ t₂ (hperm.mem_iff.mpr ht₂) x c₁ c₂ hleft₁ hleft₂]

end RouteScaffold
