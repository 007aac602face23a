import RouteScaffold.Proofs.Git.Documented
import RouteScaffold.Proofs.Outcomes
import RouteScaffold.Proofs.Segments

/-!
# Staging and committing

What staging and committing come to in a repository that is intact, whatever library keeps it, as long as that does what
it is documented to do.

* `Repository.staged_of_stageAll`: what staging leaves in the index;
* `Repository.run_hasStaged`, `Repository.run_headCommit`: both give an answer, and which;
* `Repository.ends_commit`: how a commit ends; so when it finds nothing to commit (`Repository.commit_nothing_iff`), and
  what it leaves where it fails (`Repository.keeps_of_commit_error`).
-/

namespace RouteScaffold.Git

open Disk

/-! ## 1. Asking and changing -/

namespace Handling

variable {σ α : Type} {s s' : σ} {a : α} {fault : Fault}

theorem run_ask_ok (f : σ → Except Fault α) (h : f s = .ok a) : (ask f).run s = (.ok a, s) := by
  have hget : (get : Handling σ σ).run s = (.ok s, s) := rfl
  rw [ask, run_bind_of_ok hget, h]
  rfl

theorem run_ask_error (f : σ → Except Fault α) (h : f s = .error fault) :
    (ask f).run s = (.error (.library fault), s) := by
  have hget : (get : Handling σ σ).run s = (.ok s, s) := rfl
  rw [ask, run_bind_of_ok hget, h]
  rfl

theorem run_change_ok {f : σ → Except Fault α × σ} (h : f s = (.ok a, s')) : (change f).run s = (.ok a, s') := by
  have hget : (get : Handling σ σ).run s = (.ok s, s) := rfl
  have hset : (set s' : Handling σ PUnit).run s = (.ok ⟨⟩, s') := rfl
  rw [change, run_bind_of_ok hget, h]
  exact (run_bind_of_ok hset).trans rfl

theorem run_change_error {f : σ → Except Fault α × σ} (h : f s = (.error fault, s')) :
    (change f).run s = (.error (.library fault), s') := by
  have hget : (get : Handling σ σ).run s = (.ok s, s) := rfl
  have hset : (set s' : Handling σ PUnit).run s = (.ok ⟨⟩, s') := rfl
  rw [change, run_bind_of_ok hget, h]
  exact (run_bind_of_ok hset).trans rfl

/-- What was asked has been answered, by a repository that stays as it is. -/
theorem of_run_ask {f : σ → Except Fault α} (h : (ask f).run s = (.ok a, s')) : f s = .ok a ∧ s' = s := by
  cases hf : f s with
  | error fault =>
      rw [run_ask_error f hf] at h
      cases h
  | ok value =>
      rw [run_ask_ok f hf] at h
      cases h
      exact ⟨rfl, rfl⟩

theorem of_run_change {f : σ → Except Fault α × σ} (h : (change f).run s = (.ok a, s')) : f s = (.ok a, s') := by
  rcases hf : f s with ⟨fault | value, t⟩
  · rw [run_change_error hf] at h
    cases h
  · rw [run_change_ok hf] at h
    cases h
    rfl

end Handling

/-! ## 2. Staging -/

/-- **What staging leaves in an index**: of the files of the working directory those that are not ignored or have been
    in it, with their contents; and what is no file stands in it only where there is a directory. -/
structure Staged {σ : Type} (view : View σ) (d : Disk) (root : Place) (s s' : σ) : Prop where
  files : ∀ path content, view.index s' path = some (.file content) ↔ ∃ names, path = pathOf names ∧
    IsFile d root names content ∧ Entered (view.index s) d root names ∧
      (view.index s path ≠ none ∨ ¬ view.ignores s d root names)
  others : ∀ path mode id, view.index s' path = some (.other mode id) →
    ∃ names, path = pathOf names ∧ d.entry? (root ++ names) = some .directory

theorem pathOf_append {front back : List String} (hf : front ≠ []) (hb : back ≠ []) :
    pathOf (front ++ back) = pathOf front ++ "/" ++ pathOf back := by
  unfold pathOf
  induction front with
  | nil => exact absurd rfl hf
  | cons first rest ih =>
      cases rest with
      | nil =>
          obtain ⟨next, more, rfl⟩ := List.exists_cons_of_ne_nil hb
          exact String.intercalate_cons_cons
      | cons second others =>
          rw [String.intercalate_cons_cons, List.cons_append, List.cons_append, String.intercalate_cons_cons,
            ← List.cons_append, ih (List.cons_ne_nil _ _)]
          simp only [String.append_assoc]

/-- On the way to what is in an index there is no other repository. -/
theorem entered_of_mem {items : Items} {d : Disk} {root : Place} {names : List String}
    (h : items (pathOf names) ≠ none) :
    Entered items d root names := by
  intro front hne hprefix ⟨_, hnone⟩
  refine h (hnone _ ?_)
  obtain ⟨more, hmore⟩ := hprefix
  have hnames : names ≠ [] := by
    rintro rfl
    exact hne (List.append_eq_nil_iff.mp hmore).1
  have hsplit : names = front ++ (more ++ [names.getLast hnames]) := by
    rw [← List.append_assoc, hmore, List.dropLast_append_getLast]
  rw [hsplit, pathOf_append hne (List.append_ne_nil_of_right_ne_nil _ (List.cons_ne_nil _ _))]
  simp only [String.toList_append]
  exact List.prefix_append _ _

section Directory

variable {d : Disk} {root : Place} (hd : d.Sound)

include hd

/-- **Paths tell what is in a directory apart.** -/
theorem pathOf_inj {names names' : List String} (hne : names ≠ []) (hne' : names' ≠ [])
    (h : (d.entry? (root ++ names)).isSome) (h' : (d.entry? (root ++ names')).isSome)
    (hpath : pathOf names = pathOf names') :
    names = names' := by
  have hslash : ∀ {names : List String}, names ≠ [] → (d.entry? (root ++ names)).isSome →
      ∀ name ∈ names, '/' ∉ name.toList := by
    intro names hne h name hm
    have hplace := (isSome_entry?_iff (List.append_ne_nil_of_right_ne_nil _ hne)).mp h
    exact (hd.named _ hplace name (List.mem_append_right _ hm)).slash
  rw [← Path.segments_intercalate hne (hslash hne h), ← Path.segments_intercalate hne' (hslash hne' h')]
  exact congrArg Path.segments hpath

/-- A directory with a repository of its own is one. -/
theorem directory_of_isNested {names : List String} (h : isNested d root names = true) :
    d.entry? (root ++ names) = some .directory := hd.inside _ _ h

variable {σ : Type} {view : View σ} {s s₁ s' : σ}

/-- Adding the files and then bringing the index up to them stages them. -/
theorem staged_of_updated (ha : view.Added d root s s₁) (hu : view.Updated d root s₁ s') : Staged view d root s s' := by
  constructor
  · intro path content
    rw [hu.files]
    constructor
    · rintro ⟨hin, names, rfl, hfile⟩
      refine ⟨names, rfl, hfile, ?_⟩
      rcases ha.others _ hin with hbefore | ⟨names', hne, hpath, hnew⟩
      · exact ⟨entered_of_mem hbefore, .inl hbefore⟩
      · have hsome : (d.entry? (root ++ names)).isSome := by rw [hfile.entry]; rfl
        rcases hnew with ⟨content', hfile', hentered, hseen⟩ | hnested
        · obtain rfl : names' = names :=
            pathOf_inj hd hne hfile.proper (by rw [hfile'.entry]; rfl) hsome hpath.symm
          exact ⟨hentered, .inr hseen⟩
        · have hdirectory := directory_of_isNested hd hnested
          obtain rfl : names' = names :=
            pathOf_inj hd hne hfile.proper (by rw [hdirectory]; rfl) hsome hpath.symm
          rw [hfile.entry] at hdirectory
          cases hdirectory
    · rintro ⟨names, rfl, hfile, hentered, hseen⟩
      refine ⟨?_, names, rfl, hfile⟩
      rw [ha.files names content hfile hentered hseen]
      exact Option.some_ne_none _
  · intro path mode id hother
    exact (hu.others path mode id hother).2

end Directory

namespace Repository

open Handling

variable {σ : Type} {lib : Library σ} {view : View σ} (hl : lib.Documented view) {s : σ}

include hl

/-- **Staging leaves the files of the working directory in the index**, if it succeeds. -/
theorem staged_of_stageAll {d : Disk} (hd : d.Sound) {root : Place} {s' : σ}
    (h : (stageAll lib d root).run s = (.ok (), s')) : Staged view d root s s' := by
  obtain ⟨⟨⟩, t, hopen, hrest⟩ := run_bind_eq_ok.mp h
  obtain ⟨⟨⟩, s₁, hadd, hmore⟩ := run_bind_eq_ok.mp hrest
  obtain ⟨⟨⟩, s₂, hupdate, hwrite⟩ := run_bind_eq_ok.mp hmore
  have hadded := hl.addAll d root _ _ hd (of_run_change hadd)
  rw [(of_run_ask hopen).2] at hadded
  have hstaged := staged_of_updated hd hadded (hl.updateAll d root _ _ hd (of_run_change hupdate))
  -- What is in the index stays there when that is written.
  have hsame := (hl.writeIndex s₂).2
  rw [of_run_change hwrite] at hsame
  exact ⟨by rw [hsame]; exact hstaged.files, by rw [hsame]; exact hstaged.others⟩

/-- Staging keeps all but the index, also if it fails. -/
theorem keeps_stageAll (d : Disk) (root : Place) (s : σ) : lib.Keeps view s ((stageAll lib d root).run s).2 := by
  cases hopen : lib.openIndex s with
  | error fault =>
      rw [stageAll, run_bind_of_error (run_ask_error _ hopen)]
      exact .refl s
  | ok =>
      rw [stageAll, run_bind_of_ok (run_ask_ok _ hopen)]
      have hadd := hl.keeps_addAll d root s
      rcases hs₁ : lib.addAll d root s with ⟨fault | ⟨⟩, s₁⟩
      · rw [hs₁] at hadd
        rw [run_bind_of_error (run_change_error hs₁)]
        exact hadd
      · rw [hs₁] at hadd
        rw [run_bind_of_ok (run_change_ok hs₁)]
        have hupdate := hadd.trans (hl.keeps_updateAll d root s₁)
        rcases hs₂ : lib.updateAll d root s₁ with ⟨fault | ⟨⟩, s₂⟩
        · rw [hs₂] at hupdate
          rw [run_bind_of_error (run_change_error hs₂)]
          exact hupdate
        · rw [hs₂] at hupdate
          rw [run_bind_of_ok (run_change_ok hs₂)]
          have hwrite := hupdate.trans (hl.writeIndex s₂).1
          rcases hs₃ : lib.writeIndex s₂ with ⟨fault | ⟨⟩, s₃⟩
          · rw [hs₃] at hwrite
            rw [run_change_error hs₃]
            exact hwrite
          · rw [hs₃] at hwrite
            rw [run_change_ok hs₃]
            exact hwrite

/-! ## 3. The newest commit -/

/-- What is in the index is not what the newest commit holds; without one, something is in the index. -/
def Differs (lib : Library σ) (view : View σ) (s : σ) : Prop :=
  (∃ fault, lib.head s = .error fault) ∧ (∃ path, view.index s path ≠ none) ∨
    ∃ id c items, lib.head s = .ok id ∧ lib.peelToCommit s id = .ok c ∧ view.tree? s c.tree = some items ∧
      view.index s ≠ items

omit hl in
/-- Nothing differs behind a commit of the index. -/
theorem not_differs_of_head {s' : σ} {id : ObjectId} {c : CommitObject} (hh : lib.head s' = .ok id)
    (hc : lib.peelToCommit s' id = .ok c) (ht : view.tree? s' c.tree = some (view.index s))
    (hx : view.index s' = view.index s) : ¬ Differs lib view s' := by
  rintro (⟨⟨fault, hfault⟩, -⟩ | ⟨id', c', items, hid, hc', htree, hne⟩)
  · rw [hh] at hfault
    cases hfault
  · cases hh.symm.trans hid
    cases hc.symm.trans hc'
    cases ht.symm.trans htree
    exact hne hx

/-- **Whether anything is staged is always told**, and rightly. -/
theorem run_hasStaged (hi : lib.Intact view s) :
    ∃ staged, (hasStaged lib).run s = (.ok staged, s) ∧ (staged = true ↔ Differs lib view s) := by
  have hget : (get : Handling σ σ).run s = (.ok s, s) := rfl
  rw [hasStaged, run_bind_of_ok hget]
  rcases hi.head with ⟨fault, hhead, -⟩ | ⟨id, c, items, hhead, hc, htree⟩
  · rw [hhead]
    refine ⟨!lib.isIndexEmpty s, (run_bind_of_ok (run_ask_ok _ hi.index)).trans ((run_bind_of_ok hget).trans rfl), ?_⟩
    rw [Bool.not_eq_true', Bool.eq_false_iff, ne_eq, hl.isIndexEmpty, not_forall, Differs, hhead]
    simp
  · rw [hhead]
    obtain ⟨n, hn, hzero⟩ := hl.diff s c.tree items htree
    refine ⟨decide (0 < n), ?_, ?_⟩
    · exact (run_bind_of_ok (run_ask_ok (lib.peelToTree · id) (hl.peelToTree s id c hc))).trans
        ((run_bind_of_ok (run_ask_ok _ hi.index)).trans
          ((run_bind_of_ok (run_ask_ok (lib.diff · c.tree) hn)).trans rfl))
    · rw [decide_eq_true_eq, Nat.pos_iff_ne_zero, ne_eq, hzero, Differs, hhead]
      simp [hc, htree]

omit hl in
theorem run_headCommit_of_head {id : ObjectId} {c : CommitObject} (hh : lib.head s = .ok id)
    (hc : lib.peelToCommit s id = .ok c) : (headCommit lib).run s = (.ok (some (.ofObject c)), s) := by
  have hget : (get : Handling σ σ).run s = (.ok s, s) := rfl
  rw [headCommit, run_bind_of_ok hget, hh]
  exact (run_bind_of_ok (run_ask_ok (lib.peelToCommit · id) hc)).trans rfl

omit hl in
/-- **The newest commit is always told**, if there is one. -/
theorem run_headCommit (hi : lib.Intact view s) : ∃ newest, (headCommit lib).run s = (.ok newest, s) ∧
    (newest = none ∧ (∃ fault, lib.head s = .error fault) ∨
      ∃ id c, lib.head s = .ok id ∧ lib.peelToCommit s id = .ok c ∧
      newest = some (.ofObject c)) := by
  rcases hi.head with ⟨fault, hhead, hkind⟩ | ⟨id, c, items, hhead, hc, htree⟩
  · have hget : (get : Handling σ σ).run s = (.ok s, s) := rfl
    rw [headCommit, run_bind_of_ok hget, hhead]
    dsimp only
    rcases hkind with hkind | hkind
    · rw [hkind]
      exact ⟨none, rfl, .inl ⟨rfl, fault, rfl⟩⟩
    · rw [hkind]
      exact ⟨none, rfl, .inl ⟨rfl, fault, rfl⟩⟩
  · exact ⟨some (.ofObject c), run_headCommit_of_head hhead hc, .inr ⟨id, c, hhead, hc, rfl⟩⟩

omit hl in
/-- While the branch stays so does the newest commit. -/
theorem headCommit_keeps (hi : lib.Intact view s) {s' : σ} (hk : lib.Keeps view s s') :
    ∃ newest : Option Commit, (headCommit lib).run s = (.ok newest, s) ∧
      (headCommit lib).run s' = (.ok newest, s') := by
  obtain ⟨newest, hnewest, hcase⟩ := run_headCommit hi
  obtain ⟨newest', hnewest', hcase'⟩ := run_headCommit (hi.keeps hk)
  suffices newest' = newest from ⟨newest, hnewest, by rw [hnewest', this]⟩
  rw [hk.head] at hcase'
  rcases hcase with ⟨rfl, fault, hhead⟩ | ⟨id, c, hhead, hc, rfl⟩
  · rw [hhead] at hcase'
    obtain ⟨rfl, -⟩ | ⟨_, _, hid, -⟩ := hcase'
    · rfl
    · cases hid
  · rw [hhead] at hcase'
    obtain ⟨-, _, hfault⟩ | ⟨_, c', hid, hc', rfl⟩ := hcase'
    · cases hfault
    · cases hid
      cases (hk.commits id c hc).symm.trans hc'
      rfl

omit hl in
/-- **A new commit stands on the newest.** -/
theorem run_newParents (hi : lib.Intact view s) : ∃ newest : Option Commit, (headCommit lib).run s = (.ok newest, s) ∧
    (newParents lib).run s = (.ok (newest.toList.map Commit.id), s) := by
  obtain ⟨newest, hnewest, ⟨rfl, fault, hhead⟩ | ⟨id, c, hhead, hc, rfl⟩⟩ := run_headCommit hi
  all_goals
    refine ⟨_, hnewest, ?_⟩
    have hget : (get : Handling σ σ).run s = (.ok s, s) := rfl
    rw [newParents, run_bind_of_ok hget, hhead]
  · rfl
  · exact (run_bind_of_ok (run_ask_ok (lib.peelToCommit · id) hc)).trans rfl

/-! ## 4. Committing -/

/-- **How a commit ends**: with nothing to commit, with a failure of the library that has left branch and index as they
    were, or with a commit that holds the index, stands on what has been the newest and is it now. -/
inductive CommitEnds (lib : Library σ) (view : View σ) (path : String) (options : CommitOptions) (s : σ) :
    Except GitError Commit → σ → Prop where
  | nothing (ha : options.allowEmpty = false) (hs : (hasStaged lib).run s = (.ok false, s)) :
      CommitEnds lib view path options s (.error (.nothingToCommit path)) s
  | failed {fault : Fault} {s' : σ} (hs : options.allowEmpty = true ∨ (hasStaged lib).run s = (.ok true, s))
      (hk : lib.Keeps view s s') (hx : view.index s' = view.index s) :
      CommitEnds lib view path options s (.error (.library fault)) s'
  | made {c : CommitObject} {newest : Option Commit} {s' : σ}
      (hs : options.allowEmpty = true ∨ (hasStaged lib).run s = (.ok true, s))
      (hn : (headCommit lib).run s = (.ok newest, s)) (hp : c.parents = newest.toList.map Commit.id)
      (hk : lib.KeepsObjects view s s') (hx : view.index s' = view.index s) (hh : lib.head s' = .ok c.id)
      (hc : lib.peelToCommit s' c.id = .ok c) (ht : view.tree? s' c.tree = some (view.index s)) :
      CommitEnds lib view path options s (.ok (.ofObject c)) s'

/-- How a commit ends for which there is something to commit. -/
theorem ends_record (hi : lib.Intact view s) {path : String} {options : CommitOptions}
    (hs : options.allowEmpty = true ∨ (hasStaged lib).run s = (.ok true, s)) :
    CommitEnds lib view path options s ((record lib options).run s).1 ((record lib options).run s).2 := by
  cases hstamp : authorStamp lib options.author s with
  | error fault =>
      rw [record, run_bind_of_error (run_ask_error _ hstamp)]
      exact .failed hs (.refl s) rfl
  | ok stamp =>
      rw [record, run_bind_of_ok (run_ask_ok _ hstamp), run_bind_of_ok (run_ask_ok _ hi.index)]
      obtain ⟨hk₁, hx₁⟩ := hl.writeTree s
      rcases hwrite : lib.writeTree s with ⟨fault | tree, s₁⟩
      · rw [hwrite] at hk₁ hx₁
        rw [run_bind_of_error (run_change_error hwrite)]
        exact .failed hs hk₁ hx₁
      · rw [hwrite] at hk₁ hx₁
        rw [run_bind_of_ok (run_change_ok hwrite)]
        have htree := hl.tree s tree s₁ hwrite
        have hi₁ := hi.keeps hk₁
        cases hfind : lib.findTree s₁ tree with
        | error fault =>
            rw [run_bind_of_error (run_ask_error (lib.findTree · tree) hfind)]
            exact .failed hs hk₁ hx₁
        | ok =>
            obtain ⟨newest, hnewest, hparents⟩ := run_newParents hi₁
            rw [run_bind_of_ok (run_ask_ok (lib.findTree · tree) hfind), run_bind_of_ok hparents]
            rcases hcommit : lib.commit stamp stamp options.message tree (newest.toList.map Commit.id) s₁ with
              ⟨fault | id, s₂⟩
            · obtain ⟨hk₂, hx₂⟩ := hl.failed _ _ _ _ _ _ _ _ hcommit
              rw [run_bind_of_error (run_change_error hcommit)]
              exact .failed hs (hk₁.trans hk₂) (hx₂.trans hx₁)
            · obtain ⟨hk₂, hx₂, hhead, c, hpeel, hfound, rfl, rfl, hp⟩ := hl.committed _ _ _ _ _ _ _ _ hcommit
              rw [run_bind_of_ok (run_change_ok hcommit),
                run_bind_of_ok (run_ask_ok (lib.findCommit · c.id) hfound)]
              obtain ⟨newest', hbefore, hafter⟩ := headCommit_keeps hi hk₁
              cases hnewest.symm.trans hafter
              exact .made hs hbefore hp
                (hk₁.toKeepsObjects.trans hk₂) (hx₂.trans hx₁) hhead hpeel (hk₂.trees _ _ htree)

/-- **How a commit ends.** -/
theorem ends_commit (hi : lib.Intact view s) (path : String) (options : CommitOptions) :
    CommitEnds lib view path options s ((commit lib path options).run s).1 ((commit lib path options).run s).2 := by
  cases ha : options.allowEmpty with
  | true =>
      have hrun : (commit lib path options).run s = (record lib options).run s := by
        rw [commit, ha]
        rfl
      rw [hrun]
      exact ends_record hl hi (.inl ha)
  | false =>
      obtain ⟨staged, hstaged, -⟩ := run_hasStaged hl hi
      cases staged with
      | true =>
          have hrun : (commit lib path options).run s = (record lib options).run s := by
            rw [commit, ha]
            exact (run_bind_of_ok hstaged).trans rfl
          rw [hrun]
          exact ends_record hl hi (.inr hstaged)
      | false =>
          have hrun : (commit lib path options).run s = (.error (.nothingToCommit path), s) := by
            rw [commit, ha]
            exact (run_bind_of_ok hstaged).trans rfl
          rw [hrun]
          exact .nothing ha hstaged

/-- **A commit finds nothing to commit** exactly if nothing is staged, and an empty one is not asked for. -/
theorem commit_nothing_iff (hi : lib.Intact view s) (path : String) (options : CommitOptions) :
    (∃ path', ((commit lib path options).run s).1 = .error (.nothingToCommit path')) ↔
      options.allowEmpty = false ∧ (hasStaged lib).run s = (.ok false, s) := by
  -- A commit is tried only if it is asked for or something is staged.
  have htried : options.allowEmpty = true ∨ (hasStaged lib).run s = (.ok true, s) →
      ¬ (options.allowEmpty = false ∧ (hasStaged lib).run s = (.ok false, s)) := by
    rintro (ha | hs) ⟨ha', hs'⟩
    · cases ha.symm.trans ha'
    · cases hs.symm.trans hs'
  have hends := ends_commit hl hi path options
  rcases hrun : (commit lib path options).run s with ⟨result, s'⟩
  rw [hrun] at hends
  cases hends with
  | nothing ha hs => exact ⟨fun _ => ⟨ha, hs⟩, fun _ => ⟨path, rfl⟩⟩
  | failed hs => exact ⟨fun ⟨_, he⟩ => (by cases he), fun hno => absurd hno (htried hs)⟩
  | made hs => exact ⟨fun ⟨_, he⟩ => (by cases he), fun hno => absurd hno (htried hs)⟩

/-- **A commit that fails leaves branch and index as they are.** -/
theorem keeps_of_commit_error (hi : lib.Intact view s) {path : String} {options : CommitOptions} {e : GitError} {s' : σ}
    (h : (commit lib path options).run s = (.error e, s')) : lib.Keeps view s s' ∧ view.index s' = view.index s := by
  have hends := ends_commit hl hi path options
  rw [h] at hends
  cases hends with
  | nothing => exact ⟨.refl _, rfl⟩
  | failed hs hk hx => exact ⟨hk, hx⟩

/-- Behind a commit a repository is intact. -/
theorem intact_commit (hi : lib.Intact view s) (path : String) (options : CommitOptions) :
    lib.Intact view ((commit lib path options).run s).2 := by
  have hends := ends_commit hl hi path options
  rcases hrun : (commit lib path options).run s with ⟨result, s'⟩
  rw [hrun] at hends
  cases hends with
  | nothing => exact hi
  | failed hs hk hx => exact hi.keeps hk
  | made hs hn hp hk hx hh hc ht => exact ⟨hk.opens hi.index, .inr ⟨_, _, _, hh, hc, ht⟩⟩

end Repository

end RouteScaffold.Git
