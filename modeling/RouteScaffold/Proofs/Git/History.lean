import RouteScaffold.Proofs.Git.InMemory

/-!
# Histories of a repository

Files are written and removed, staged and committed, in any order (`Action`); an action that fails leaves what it has
done. However it goes, the disk stays a tree and the repository intact (`Workspace.Kept`), so that staging and
committing do what they are to do (`Workspace.Consistent`), whatever library keeps the repository.

* `Workspace.Kept.act`: one action; `Workspace.consistent_actAll`: any number of them;
* `Workspace.consistent_app`: some actions on a repository in memory.
-/

namespace RouteScaffold.Git

/-! ## 1. Actions -/

/-- What is done to the files of a directory and the repository in it. -/
inductive Action where
  /-- Writes a file, with the directories above it. -/
  | write (path : String) (content : ByteArray)
  | delete (path : String)
  | stageAll
  | commit (options : CommitOptions)

namespace Workspace

variable {σ : Type}

/-- The workspace behind an action, also if that fails. -/
def act (lib : Library σ) (place : Place) (w : Workspace σ) : Action → Workspace σ
  | .write path content => { w with disk := ((Filing.writeWithParents path content).run w.disk).2 }
  | .delete path => { w with disk := ((Filing.change "remove" path (·.remove path)).run w.disk).2 }
  | .stageAll => (w.stageAllAt lib place).1
  | .commit options => (w.commitAt lib place options).1

/-- The workspace behind actions, one after the other. -/
def actAll (lib : Library σ) (place : Place) (w : Workspace σ) (actions : List Action) : Workspace σ :=
  actions.foldl (act lib place) w

variable {lib : Library σ} {view : View σ} {w w' : Workspace σ} {place : Place} {s : σ}

theorem repository?_setRepository (w : Workspace σ) (place : Place) (s : σ) :
    (w.setRepository place s).repository? place = some s := by
  rw [repository?, setRepository, List.lookup_cons_self]

theorem handle_eq {α : Type} (h : w.repository? place = some s) (f : Handling σ α) :
    w.handle place f = (w.setRepository place (f.run s).2, (f.run s).1) := by
  unfold handle
  rw [h]
  rfl

/-- What every action keeps. -/
structure Kept (lib : Library σ) (view : View σ) (w : Workspace σ) (place : Place) (s : σ) : Prop where
  sound : w.disk.Sound
  found : w.repository? place = some s
  intact : lib.Intact view s

section Kept

variable (hl : lib.Documented view) (h : Kept lib view w place s)

include hl h

/-- **An action keeps the disk a tree and the repository intact.** -/
theorem Kept.act (action : Action) : ∃ s', Kept lib view (w.act lib place action) place s' := by
  cases action with
  | write path content => exact ⟨s, Filing.keepsSound_writeWithParents path content _ h.sound, h.found, h.intact⟩
  | delete path => exact ⟨s, Filing.keepsSound_remove path _ h.sound, h.found, h.intact⟩
  | stageAll =>
      rw [Workspace.act, stageAllAt, handle_eq h.found]
      exact ⟨_, h.sound, repository?_setRepository _ _ _, h.intact.keeps (Repository.keeps_stageAll hl w.disk place s)⟩
  | commit options =>
      rw [Workspace.act, commitAt, handle_eq h.found]
      exact ⟨_, h.sound, repository?_setRepository _ _ _, Repository.intact_commit hl h.intact _ options⟩

theorem Kept.actAll (actions : List Action) : ∃ s', Kept lib view (w.actAll lib place actions) place s' := by
  induction actions generalizing w s with
  | nil => exact ⟨s, h⟩
  | cons action rest ih =>
      obtain ⟨s', h'⟩ := h.act hl action
      exact ih h'

end Kept

/-! ## 2. What staging and committing do -/

/-- Staging and committing in a workspace do what they are to do. -/
structure Consistent (lib : Library σ) (view : View σ) (w : Workspace σ) (place : Place) (s : σ) : Prop where
  /-- Behind staging the index holds the files of the working directory that are not ignored or have been in it, each
      with its content, and no other files. -/
  staged : ∀ w', w.stageAllAt lib place = (w', .ok ()) →
    ∃ s', w'.repository? place = some s' ∧ Staged view w.disk place s s'
  /-- It is always told whether something is staged: exactly if the index differs from the tree of the newest commit, or
      holds something ahead of the first. -/
  changed : ∃ staged, w.hasStagedAt lib place = .ok staged ∧ (staged = true ↔ Repository.Differs lib view s)
  /-- A commit finds nothing to commit exactly if nothing is staged, and an empty one is not asked for. -/
  nothing : ∀ options, (∃ path, (w.commitAt lib place options).2 = .error (.nothingToCommit path)) ↔
    options.allowEmpty = false ∧ w.hasStagedAt lib place = .ok false
  /-- A commit that fails leaves the index and the branch as they are. -/
  failed : ∀ options w' e, w.commitAt lib place options = (w', .error e) → w'.disk = w.disk ∧
    w'.headCommitAt lib place = w.headCommitAt lib place ∧ ∃ s', w'.repository? place = some s' ∧
      lib.head s' = lib.head s ∧ view.index s' = view.index s
  /-- The branch ends with a commit that succeeds, whose tree is the index and which stands on the commit that has been
      the newest, if there was one; nothing is staged behind it. -/
  committed : ∀ options w' c, w.commitAt lib place options = (w', .ok c) → w'.disk = w.disk ∧
    w'.headCommitAt lib place = .ok (some c) ∧ w'.hasStagedAt lib place = .ok false ∧
      (∃ newest : Option Commit, w.headCommitAt lib place = .ok newest ∧ c.parents = newest.toList.map Commit.id) ∧
      ∃ s' o, w'.repository? place = some s' ∧ lib.head s' = .ok c.id ∧ lib.peelToCommit s' c.id = .ok o ∧
        c = .ofObject o ∧ view.tree? s' o.tree = some (view.index s) ∧ view.index s' = view.index s

section Kept

variable (hl : lib.Documented view) (h : Kept lib view w place s) {options : CommitOptions}

include h

theorem Kept.commitAt_eq : w.commitAt lib place options =
    (w.setRepository place ((Repository.commit lib (placePath place) options).run s).2,
      ((Repository.commit lib (placePath place) options).run s).1) := handle_eq h.found _

/-- The repository behind a commit, and what the commit came to in it. -/
theorem Kept.of_commitAt {result : Except GitError Commit} (hw : w.commitAt lib place options = (w', result)) :
    ∃ s', (Repository.commit lib (placePath place) options).run s = (result, s') ∧ w' = w.setRepository place s' := by
  obtain ⟨rfl, rfl⟩ := Prod.mk.inj (h.commitAt_eq.symm.trans hw)
  exact ⟨_, rfl, rfl⟩

include hl

theorem Kept.hasStagedAt : ∃ staged, w.hasStagedAt lib place = .ok staged ∧
    (Repository.hasStaged lib).run s = (.ok staged, s) ∧ (staged = true ↔ Repository.Differs lib view s) := by
  obtain ⟨staged, hstaged, hdiffers⟩ := Repository.run_hasStaged hl h.intact
  refine ⟨staged, ?_, hstaged, hdiffers⟩
  rw [Workspace.hasStagedAt, handle_eq h.found, hstaged]

theorem Kept.commit_nothing_iff : (∃ path, (w.commitAt lib place options).2 = .error (.nothingToCommit path)) ↔
    options.allowEmpty = false ∧ w.hasStagedAt lib place = .ok false := by
  obtain ⟨staged, hasStaged, hstaged, -⟩ := h.hasStagedAt hl
  rw [h.commitAt_eq, hasStaged, Repository.commit_nothing_iff hl h.intact, hstaged]
  exact and_congr_right fun _ => ⟨fun he => congrArg Prod.fst he, fun he => congrArg (·, s) he⟩

theorem Kept.commit_failed {e : GitError} (hw : w.commitAt lib place options = (w', .error e)) : w'.disk = w.disk ∧
    w'.headCommitAt lib place = w.headCommitAt lib place ∧ ∃ s', w'.repository? place = some s' ∧
      lib.head s' = lib.head s ∧ view.index s' = view.index s := by
  obtain ⟨s', hrun, rfl⟩ := h.of_commitAt hw
  obtain ⟨hkeeps, hindex⟩ := Repository.keeps_of_commit_error hl h.intact hrun
  have hfound := repository?_setRepository w place s'
  obtain ⟨newest, hbefore, hafter⟩ := Repository.headCommit_keeps h.intact hkeeps
  refine ⟨rfl, ?_, s', hfound, hkeeps.head, hindex⟩
  rw [headCommitAt, headCommitAt, handle_eq hfound, handle_eq h.found, hbefore, hafter]

theorem Kept.commit_made {c : Commit} (hw : w.commitAt lib place options = (w', .ok c)) : w'.disk = w.disk ∧
    w'.headCommitAt lib place = .ok (some c) ∧ w'.hasStagedAt lib place = .ok false ∧
      (∃ newest : Option Commit, w.headCommitAt lib place = .ok newest ∧ c.parents = newest.toList.map Commit.id) ∧
      ∃ s' o, w'.repository? place = some s' ∧ lib.head s' = .ok c.id ∧ lib.peelToCommit s' c.id = .ok o ∧
        c = .ofObject o ∧ view.tree? s' o.tree = some (view.index s) ∧ view.index s' = view.index s := by
  obtain ⟨s', hrun, rfl⟩ := h.of_commitAt hw
  have hfound := repository?_setRepository w place s'
  have hintact := Repository.intact_commit hl h.intact (placePath place) options
  have hends := Repository.ends_commit hl h.intact (placePath place) options
  rw [hrun] at hends hintact
  cases hends with
  | made hs hn hp hk hx hh hc ht =>
      refine ⟨rfl, ?newest, ?staged, ⟨_, ?former, hp⟩, s', _, hfound, hh, hc, rfl, ht, hx⟩
      case newest => rw [headCommitAt, handle_eq hfound, Repository.run_headCommit_of_head hh hc]
      case staged =>
        obtain ⟨staged, hstaged, -, hdiffers⟩ :=
          Kept.hasStagedAt hl (w := w.setRepository place s') ⟨h.sound, hfound, hintact⟩
        rw [hstaged]
        refine congrArg Except.ok (Bool.eq_false_iff.mpr fun htrue => ?_)
        exact Repository.not_differs_of_head hh hc ht hx (hdiffers.mp htrue)
      case former => rw [headCommitAt, handle_eq h.found, hn]

theorem Kept.consistent : Consistent lib view w place s where
  staged w' hw' := by
    rw [stageAllAt, handle_eq h.found] at hw'
    obtain ⟨rfl, hok⟩ := Prod.mk.inj hw'
    exact ⟨_, repository?_setRepository _ _ _, Repository.staged_of_stageAll hl h.sound (Prod.ext hok rfl)⟩
  changed := by
    obtain ⟨staged, hasStaged, -, hdiffers⟩ := h.hasStagedAt hl
    exact ⟨staged, hasStaged, hdiffers⟩
  nothing _ := h.commit_nothing_iff hl
  failed _ _ _ := h.commit_failed hl
  committed _ _ _ := h.commit_made hl

end Kept

/-- **Staging and committing do what they are to do behind all actions.** However files are written and removed, staged
    and committed in a repository, also if some of it fails, and whatever library keeps the repository, if that does
    what it is documented to do. -/
theorem consistent_actAll (hl : lib.Documented view) (hd : w.disk.Sound) (hr : w.repository? place = some s)
    (hi : lib.Intact view s) (actions : List Action) : ∃ s', (w.actAll lib place actions).repository? place = some s' ∧
      Consistent lib view (w.actAll lib place actions) place s' := by
  obtain ⟨s', h⟩ := Kept.actAll hl ⟨hd, hr, hi⟩ actions
  exact ⟨s', h.found, h.consistent hl⟩

/-- A directory with a fresh repository in memory. -/
def app : Workspace Memory where
  disk := { here := [], entries := [(["app"], .directory), (["app", marker], .directory)] }
  store := [(["app"], .fresh false)]

/-- A file is committed and written again when all files have come to be ignored, another is written, and nobody is to
    commit them. -/
def appActions : List Action :=
  [.write "app/a.js" "1".toUTF8, .stageAll, .commit ⟨"first", none, false⟩, .write "app/.gitignore" "*".toUTF8,
    .write "app/src/b.js" "2".toUTF8, .write "app/a.js" "3".toUTF8, .stageAll, .commit ⟨"second", some ("", ""), false⟩]

theorem sound_app : app.disk.Sound := .of_places (by decide) (by decide) (by decide) rfl

set_option maxRecDepth 20000 in
/-- Of the two files only the one is staged that has been in the index, and the first commit stays the newest. -/
theorem consistent_app : ∃ s, (app.actAll .inMemory ["app"] appActions).repository? ["app"] = some s ∧
    Consistent .inMemory Memory.view (app.actAll .inMemory ["app"] appActions) ["app"] s ∧
    s.index = [("a.js", "3".toUTF8)] ∧
    ((s.head.bind s.commit?).bind fun c => s.tree? c.tree) = some [("a.js", "1".toUTF8)] := by
  obtain ⟨s, hs, hconsistent⟩ := consistent_actAll Library.documented_inMemory sound_app
    (show app.repository? ["app"] = some (.fresh false) from rfl) (Memory.intact_fresh false) appActions
  have hrun : (((app.actAll .inMemory ["app"] appActions).repository? ["app"]).any fun s =>
      decide (s.index = [("a.js", "3".toUTF8)]) &&
        decide (((s.head.bind s.commit?).bind fun c => s.tree? c.tree) = some [("a.js", "1".toUTF8)])) = true := by
    decide +kernel
  rw [hs, Option.any_some, Bool.and_eq_true, decide_eq_true_eq, decide_eq_true_eq] at hrun
  exact ⟨s, hs, hconsistent, hrun⟩

end Workspace

end RouteScaffold.Git
