import RouteScaffold.Proofs.Files.Cleared
import RouteScaffold.Proofs.Files.Repeated

/-!
# Where a disk changes

An operation that fails half-way has changed some of the places that are its own to change, and no others
(`Disk.Changes`).

* `Groups.Writes.changes`: writers side by side change the places where their tasks leave something;
* `Filing.changes_removeWhere`: where files are removed these are gone.
-/

namespace RouteScaffold

namespace Disk

/-- Wherever a disk has changed there is what is allowed. -/
structure Changes (allowed : Place → Option Entry → Prop) (d d' : Disk) : Prop where
  stand : d'.toStandpoint = d.toStandpoint
  changed : ∀ x, d'.entry? x ≠ d.entry? x → allowed x (d'.entry? x)

namespace Changes

variable {allowed more : Place → Option Entry → Prop} {d d' d'' : Disk}

theorem here (h : Changes allowed d d') : d'.here = d.here := congrArg Standpoint.here h.stand

theorem refl (allowed : Place → Option Entry → Prop) (d : Disk) : Changes allowed d d :=
  ⟨rfl, fun _ hx => absurd rfl hx⟩

theorem mono (h : Changes allowed d d') (hm : ∀ x e, allowed x e → more x e) : Changes more d d' :=
  ⟨h.stand, fun x hx => hm x _ (h.changed x hx)⟩

theorem trans (h : Changes allowed d d') (h' : Changes allowed d' d'') : Changes allowed d d'' where
  stand := h'.stand.trans h.stand
  changed x hx := by
    by_cases hlast : d''.entry? x = d'.entry? x
    · rw [hlast] at hx ⊢
      exact h.changed x hx
    · exact h'.changed x hlast

end Changes

end Disk

open Disk

/-! ## 1. Tasks -/

/-- What one of some tasks leaves at a place. -/
def Leaving (here : Place) (tasks : List Task) (x : Place) (e : Option Entry) : Prop :=
  e ≠ none ∧ ∃ t ∈ tasks, t.leaves here x = e

theorem Leaving.mono {here : Place} {tasks more : List Task} (hsub : tasks ⊆ more) {x : Place} {e : Option Entry}
    (h : Leaving here tasks x e) : Leaving here more x e := by
  obtain ⟨hsome, t, ht, hleaves⟩ := h
  exact ⟨hsome, t, hsub ht, hleaves⟩

/-- **A task changes nothing but where it leaves something**, also if it fails. -/
theorem Task.changes_perform (t : Task) (d : Disk) : Changes (Leaving d.here [t]) d (t.perform.run d).2 := by
  cases t with
  | makeDirectory path =>
      have hadds := Filing.adds_ensureDirectory path d
      rw [Task.perform]
      refine ⟨hadds.stand, fun x hx => ?_⟩
      obtain ⟨hway, -, hmade⟩ := hadds.changed x hx
      rw [hmade]
      exact ⟨Option.some_ne_none _, _, List.mem_cons_self, Task.leaves_makeDirectory.mpr ⟨hway, rfl⟩⟩
  | writeFile path text =>
      rcases hrun : (Task.writeFile path text).perform.run d with ⟨e | ⟨⟩, d'⟩
      · have hchange := Filing.run_change "write" path (·.write path text.toUTF8) d
        rw [show Filing.change "write" path (·.write path text.toUTF8) = (Task.writeFile path text).perform from rfl,
          hrun] at hchange
        split at hchange
        · cases hchange
        · cases hchange
          exact .refl _ d
      · have hleft := left_perform hrun
        refine ⟨hleft.stand, fun x hx => ?_⟩
        obtain ⟨hne, rfl, -⟩ := Filing.put_write hrun
        rw [entry?_put d hne] at hx ⊢
        by_cases hplace : x = target d.here path
        · rw [if_pos hplace]
          exact ⟨Option.some_ne_none _, _, List.mem_cons_self, Task.leaves_writeFile.mpr ⟨hplace, rfl⟩⟩
        · rw [if_neg hplace] at hx
          exact absurd rfl hx

/-- Tasks one behind the other, up to the first that fails. -/
theorem changes_forM (tasks : List Task) (d : Disk) :
    Changes (Leaving d.here tasks) d ((tasks.forM Task.perform).run d).2 := by
  induction tasks generalizing d with
  | nil => exact .refl _ d
  | cons t rest ih =>
      have hfirst : Changes (Leaving d.here (t :: rest)) d (t.perform.run d).2 :=
        (t.changes_perform d).mono fun x e => Leaving.mono (by simp)
      have hcons : (t :: rest).forM Task.perform = t.perform >>= fun _ => rest.forM Task.perform := rfl
      rw [hcons]
      rcases hrun : t.perform.run d with ⟨e | ⟨⟩, d₁⟩
      · rw [hrun] at hfirst
        rw [run_bind_of_error hrun]
        exact hfirst
      · rw [hrun] at hfirst
        rw [run_bind_of_ok hrun]
        have hrest := ih d₁
        rw [show d₁.here = d.here from hfirst.here] at hrest
        exact hfirst.trans (hrest.mono fun x e => Leaving.mono (List.subset_cons_self t rest))

/-! ## 2. Writers side by side -/

open Writers

theorem Carries.changes {events : List (Performed FileError)} {d d' : Disk} (h : Carries d events d')
    {tasks : List Task} (hp : ∀ p ∈ events, p.operation.task ∈ tasks) : Changes (Leaving d.here tasks) d d' := by
  have hone : ∀ (d : Disk) (t : Task), t ∈ tasks → Changes (Leaving d.here tasks) d (t.perform.run d).2 :=
    fun d t ht => (t.changes_perform d).mono fun x e => Leaving.mono (by simpa using ht)
  induction h with
  | refl d => exact .refl _ d
  | @done d d' o events hanswer more ih =>
      rw [List.forall_mem_cons] at hp
      have hfirst := hone d o.task hp.1
      have hrest := ih hp.2
      rw [hfirst.here] at hrest
      exact hfirst.trans hrest
  | @failed d d' o e events hanswer more ih =>
      rw [List.forall_mem_cons] at hp
      have hfirst := hone d o.task hp.1
      have hrest := ih hp.2
      rw [hfirst.here] at hrest
      exact hfirst.trans hrest

/-- **Writers side by side change nothing but where their tasks leave something**, also if one of them fails. -/
theorem Groups.Writes.changes {root : String} {g : Groups} {d d' : Disk} {result : Except FileError Nat}
    (h : g.Writes root d result d') : Changes (Leaving d.here (g.under root).tasks) d d' := by
  obtain ⟨events, w, hrun, hcarries, -⟩ := h
  exact hcarries.changes (Groups.mem_tasks_of_run hrun)

/-! ## 3. Files that are removed -/

/-- **Where files are removed by their names these are gone**, also if one of them is refused. -/
theorem Filing.changes_removeWhere {d : Disk} (hs : d.Sound) (directory : String) (p : String → Bool) :
    Changes (fun x e => e = none ∧ ∃ name content, p name = true ∧ x = target d.here directory ++ [name] ∧
      d.entry? x = some (.file content)) d ((removeWhere directory p).run d).2 := by
  by_cases hd : d.Listable directory
  · obtain ⟨names, result, gone, d', -, hmem, hremoved, hrun, -, hlacks⟩ := removedUpTo_removeWhere hs hd p
    rw [hrun]
    refine ⟨hlacks.stand, fun x hx => ?_⟩
    rw [hlacks.entries] at hx ⊢
    by_cases hgone : x ∈ gone.map fun name => target d.here directory ++ [name]
    · rw [if_pos hgone]
      obtain ⟨name, hn, rfl⟩ := List.mem_map.mp hgone
      obtain ⟨hp, content, hfile⟩ := (hmem name).mp (hremoved.subset hn)
      exact ⟨rfl, name, content, hp, rfl, hfile⟩
    · rw [if_neg hgone] at hx
      exact absurd rfl hx
  · obtain ⟨e, hrun⟩ := removeWhere_of_not_listable hd p
    rw [hrun]
    exact .refl _ d

end RouteScaffold
