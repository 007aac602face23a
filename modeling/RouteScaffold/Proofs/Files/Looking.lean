import RouteScaffold.Proofs.Files.Effects

/-!
# Looking at a disk

What a step gives on a disk (`FilingFor.gives`), and steps that leave every disk as it is (`FilingFor.Looks`). A step
behind one that looks works on the same disk, so that what looks gives is put together without the disk
(`FilingFor.Looks.gives_bind`).

* `Filing.looking_leaves`: to ask whether something is there, to read a text and to list files is to look;
* `Filing.Unreadable`, `Filing.gives_readText_iff`: when a text is read.
-/

namespace RouteScaffold

/-! ## 1. Steps that look -/

namespace FilingFor

variable {ε ε' α β : Type}

/-- What a step gives on a disk. -/
def gives (f : FilingFor ε α) (d : Disk) : Except ε α := (f.run d).1

/-- A step that leaves every disk as it is. -/
def Looks (f : FilingFor ε α) : Prop := ∀ d, (f.run d).2 = d

theorem Looks.run_eq {f : FilingFor ε α} (h : f.Looks) (d : Disk) : f.run d = (f.gives d, d) := Prod.ext rfl (h d)

theorem looks_pure (value : α) : Looks (pure value : FilingFor ε α) := fun _ => rfl

theorem looks_throw (e : ε) : Looks (throw e : FilingFor ε α) := fun _ => rfl

theorem gives_adapt (wrap : ε → ε') (f : FilingFor ε α) (d : Disk) :
    gives (ExceptT.adapt wrap f) d = (f.gives d).mapError wrap := rfl

theorem Looks.adapt {f : FilingFor ε α} (h : f.Looks) (wrap : ε → ε') : Looks (ExceptT.adapt wrap f) := h

section Lift

variable {m : StateM Disk α}

/-- A step that cannot fail gives what it gives. -/
theorem gives_liftM (m : StateM Disk α) (d : Disk) : gives (liftM m : FilingFor ε α) d = .ok (m.run d).1 := rfl

theorem looks_liftM (h : ∀ d, (m.run d).2 = d) : Looks (liftM m : FilingFor ε α) := h

/-- What is made of what a step gives leaves the disk that the step leaves. -/
theorem run_bind_pure (m : StateM Disk α) (f : α → β) (d : Disk) :
    (m >>= fun value => pure (f value)).run d = (f (m.run d).1, (m.run d).2) := rfl

end Lift

/-- **A step behind one that looks works on the same disk.** -/
theorem Looks.gives_bind {m : FilingFor ε α} (h : m.Looks) (f : α → FilingFor ε β) (d : Disk) :
    gives (m >>= f) d = m.gives d >>= fun value => (f value).gives d := by
  have hrun := h.run_eq d
  rw [gives]
  cases hm : m.gives d with
  | error e =>
      rw [hm] at hrun
      rw [run_bind_of_error hrun]
      rfl
  | ok value =>
      rw [hm] at hrun
      rw [run_bind_of_ok hrun]
      rfl

theorem Looks.bind {m : FilingFor ε α} {f : α → FilingFor ε β} (hm : m.Looks) (hf : ∀ value, (f value).Looks) :
    Looks (m >>= f) := by
  intro d
  have hrun := hm.run_eq d
  cases hgives : m.gives d with
  | error e =>
      rw [hgives] at hrun
      rw [run_bind_of_error hrun]
  | ok value =>
      rw [hgives] at hrun
      rw [run_bind_of_ok hrun]
      exact hf value d

section Fold

variable {f : β → α → FilingFor ε β} (h : ∀ b x, (f b x).Looks)

include h

theorem looks_foldlM (xs : List α) (b : β) : Looks (xs.foldlM f b) := by
  induction xs generalizing b with
  | nil => exact looks_pure b
  | cons x rest ih => exact (h b x).bind ih

theorem gives_foldlM (xs : List α) (b : β) (d : Disk) :
    gives (xs.foldlM f b) d = xs.foldlM (fun b x => (f b x).gives d) b := by
  induction xs generalizing b with
  | nil => rfl
  | cons x rest ih =>
      rw [List.foldlM_cons, (h b x).gives_bind, List.foldlM_cons]
      exact congrArg _ (funext ih)

end Fold

end FilingFor

/-! ## 2. Asking, reading and listing -/

open FilingFor

namespace Filing

theorem gives_ask {α : Type} (action path : String) (f : Disk → Except SystemError α) (d : Disk) :
    gives (ask action path f) d = (f d).mapError (.ofSystem action path) := congrArg Prod.fst (run_ask action path f d)

theorem looks_ask {α : Type} (action path : String) (f : Disk → Except SystemError α) : Looks (ask action path f) :=
  fun d => congrArg Prod.snd (run_ask action path f d)

theorem looks_readText (path : String) (limit : Nat) : Looks (readText path limit) := by
  refine (looks_ask _ _ _).bind fun size => ?_
  by_cases h : limit < size
  · rw [if_pos h]
    exact looks_throw _
  · rw [if_neg h]
    exact looks_ask _ _ _

theorem looks_fileNames (directory : String) : Looks (fileNames directory) :=
  (looks_ask _ _ _).bind fun _ => looks_pure _

/-- **Looking at a disk leaves it as it is**: to ask whether something is there, to read a text and to list files. -/
theorem looking_leaves (path : String) (limit : Nat) :
    Looks (isThere path) ∧ Looks (readText path limit) ∧ Looks (fileNames path) ∧ Looks (files path) :=
  ⟨looks_ask _ _ _, looks_readText path limit, looks_fileNames path, (looks_fileNames path).bind fun _ => looks_pure _⟩

/-- A text of limited size that cannot be read: its file is not there or not to be inspected, is too large, is not to be
    read, or holds no text. -/
inductive Unreadable (d : Disk) (path : String) (limit : Nat) : Prop where
  | noSize {e : SystemError} (h : d.size path = .error e)
  | tooLarge {size : Nat} (h : d.size path = .ok size) (hl : limit < size)
  | noText {e : SystemError} (h : d.readText path = .error e)

theorem gives_readText {d : Disk} {path : String} {limit size : Nat} (h : d.size path = .ok size) :
    gives (readText path limit) d =
      if limit < size then .error (.tooLarge path size limit)
      else (d.readText path).mapError (.ofSystem "read" path) := by
  rw [gives, readText, run_ask_bind_of_ok h]
  split
  · rfl
  · exact gives_ask _ _ _ d

/-- **A text is read exactly if it is not unreadable.** -/
theorem gives_readText_iff {d : Disk} {path text : String} {limit : Nat} :
    gives (readText path limit) d = .ok text ↔ ¬ Unreadable d path limit ∧ d.readText path = .ok text := by
  cases hs : d.size path with
  | error e =>
      rw [gives, readText, run_ask_bind_of_error hs]
      exact ⟨fun h => (by cases h), fun h => absurd (.noSize hs) h.1⟩
  | ok size =>
      rw [gives_readText hs]
      by_cases hlimit : limit < size
      · rw [if_pos hlimit]
        exact ⟨fun h => (by cases h), fun h => absurd (.tooLarge hs hlimit) h.1⟩
      rw [if_neg hlimit]
      refine ⟨fun h => ⟨fun hu => ?_, ok_of_mapError h⟩, fun h => by rw [h.2]; rfl⟩
      have htext := ok_of_mapError h
      cases hu with
      | noSize hu => cases hs.symm.trans hu
      | tooLarge hu hl =>
          cases hs.symm.trans hu
          exact hlimit hl
      | noText hu => cases htext.symm.trans hu

end Filing

end RouteScaffold
