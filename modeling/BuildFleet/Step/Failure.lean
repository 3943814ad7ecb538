import BuildFleet.Document.Datum
import BuildFleet.Document.Source
import BuildFleet.Span

/-!
# Failures of a step

A step fails for one of four reasons. The reason decides the exit status of the program, and the
text of a failure says what exactly was wrong.
-/

namespace BuildFleet

/-- The reason of a failure, without its particulars. -/
inductive FailureKind where
  | configuration
  | targetUnreachable
  | installFailure
  | installTimeout
  deriving DecidableEq, Repr, Inhabited

namespace FailureKind

/-- The name that is shown to people. -/
def displayName : FailureKind → String
  | configuration => "ConfigurationError"
  | targetUnreachable => "TargetUnreachable"
  | installFailure => "InstallFailure"
  | installTimeout => "InstallTimeout"

/-- The name in documents. -/
def name : FailureKind → String
  | configuration => "configuration"
  | targetUnreachable => "target_unreachable"
  | installFailure => "install_failure"
  | installTimeout => "install_timeout"

/-- The kind with a name. -/
def ofName? (s : String) : Option FailureKind :=
  [configuration, targetUnreachable, installFailure, installTimeout].find? (·.name == s)

/-- The exit status of the program after such a failure. -/
def exitCode : FailureKind → Nat
  | configuration => 2
  | targetUnreachable => 3
  | installFailure => 4
  | installTimeout => 5

/-- A kind as written in a document. -/
def toDatum (k : FailureKind) : Datum := .text k.name

/-- Reads a kind. -/
def read {ν : Type} (S : Source ν) (n : ν) : Reading FailureKind := S.nameOf ofName? n

end FailureKind

/-- A failure of a step. -/
inductive Failure where
  /-- The request itself is unusable; nothing has been asked of any device. -/
  | configuration (detail : String)
  /-- The device, or the worker, could not be addressed. -/
  | targetUnreachable (detail : String)
  /-- The device refused the install. -/
  | installFailure (detail : String)
  /-- The install did not finish within a limit. -/
  | installTimeout (limit : Span)
  deriving DecidableEq, Repr, Inhabited

namespace Failure

/-- The reason of a failure. -/
def kind : Failure → FailureKind
  | configuration _ => .configuration
  | targetUnreachable _ => .targetUnreachable
  | installFailure _ => .installFailure
  | installTimeout _ => .installTimeout

/-- The text of a failure. -/
def message : Failure → String
  | configuration detail => "Configuration error: " ++ detail
  | targetUnreachable detail => "Target unreachable: " ++ detail
  | installFailure detail => "Install failed: " ++ detail
  | installTimeout limit => "Install timed out after " ++ limit.text

end Failure

end BuildFleet
