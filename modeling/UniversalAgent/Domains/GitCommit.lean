import UniversalAgent.Foundation.Shell
import UniversalAgent.Foundation.Text

/-!
# Domains — GitCommit

The commit tool of the code domain (`domains/code`): it stages everything, commits with the message
and asks for the hash. Each command is one line for a shell, its arguments joined by blanks.
-/

namespace UniversalAgent.Domains

open UniversalAgent.Foundation

/-! ## The backend -/

structure CommandResult where
  exitCode : Int
  stdout : String
  stderr : String
  timedOut : Bool
deriving DecidableEq

/-- The line that `ShellBackend.git` runs. -/
def git (args : List String) : String := "git " ++ " ".intercalate args

/-! ## The tool -/

inductive GitCommitResult where
  | error (text : String) (stderr : Option String)
  | committed (message : String) (commitHash : String)
deriving DecidableEq

/-- `GitCommitTool.execute`: the lines that are run, and the result. The backend answers each line
in turn. -/
def gitCommit (message : String) (added committed revision : CommandResult) :
    List String × GitCommitResult :=
  let message := Text.strip message
  if message = "" then ([], .error "commit message is required" none)
  else
    let add := git ["add", "-A"]
    if added.exitCode ≠ 0 then ([add], .error "git add failed" (some added.stderr))
    else
      let commit := git ["commit", "-m", message]
      if committed.exitCode ≠ 0 then
        ([add, commit], .error "git commit failed" (some committed.stderr))
      else
        ([add, commit, git ["rev-parse", "--short", "HEAD"]],
          .committed message (Text.strip revision.stdout))

/-! ## What the shell runs -/

theorem git_commit (message : String) :
    git ["commit", "-m", message] = Shell.joined ["git", "commit", "-m"] message := by
  simp [git, Shell.joined, String.intercalate_cons_cons, ← String.append_assoc]

/-- The line of the commit runs `git commit -m` with the message as the only further argument,
whatever is in the workspace. -/
def CommitsWith (message : String) : Prop :=
  ∀ paths, Shell.argv paths (git ["commit", "-m", message]) = some ["git", "commit", "-m", message]

theorem safe_git : ∀ w ∈ ["git", "commit", "-m"], Shell.Safe w := by
  unfold Shell.Safe
  decide +kernel

end UniversalAgent.Domains
