import BuildFleet.Document.Datum
import BuildFleet.Document.Source
import BuildFleet.Path
import BuildFleet.Step.Failure

/-!
# Build hosts

A host carries workers, each of them an identity that a build runs as. Names and indices of workers
share one space of selectors: a selector is matched with all names before it is matched with any
index, so a worker whose name is another one's index takes that selector over.
-/

namespace BuildFleet

/-- An identity that builds run as. -/
structure Worker where
  name : String
  /-- An opaque index; gaps between indices mean nothing. -/
  index : String
  /-- Whether an install for this worker brings the launcher along. -/
  elevatedInstall : Bool
  deriving DecidableEq, Repr, Inhabited

/-- A file to be placed before a worker can operate. -/
structure CopyRule where
  source : String
  destination : String
  deriving DecidableEq, Repr, Inhabited

/-- The rules that every ordinary checkout receives. -/
def CopyRule.standardSet : List CopyRule := [⟨".bot_password", "build/site_config"⟩]

/-- The network address of a host. -/
inductive NetworkAddress where
  /-- A fixed address. -/
  | static (address : String)
  /-- The host is known to have no fixed address. -/
  | noStatic
  /-- Nothing is known about it. -/
  | unknown
  deriving DecidableEq, Repr, Inhabited

/-- The address as it is shown. -/
def NetworkAddress.display : NetworkAddress → String
  | static address => address
  | noStatic => "(no static IP)"
  | unknown => "unknown"

/-- The place of a host on a KVM switch. -/
inductive KvmAttachment where
  | attached (switch port : String)
  | notAttached
  /-- Nothing is known about it. -/
  | unknown
  deriving DecidableEq, Repr, Inhabited

/-- The place on a switch as it is shown. -/
def KvmAttachment.display : KvmAttachment → String
  | attached switch port => switch ++ " / " ++ port
  | notAttached => "(not on KVM)"
  | unknown => "not present"

/-- The family of systems that starts the workers of a host. -/
inductive LaunchPlatform where
  | unix
  | windows
  deriving DecidableEq, Repr, Inhabited

namespace LaunchPlatform

/-- The name in documents. -/
def name : LaunchPlatform → String
  | unix => "unix"
  | windows => "windows"

/-- The platform with a name. -/
def ofName? (s : String) : Option LaunchPlatform :=
  [unix, windows].find? (·.name == s)

/-- The platform that the program runs on. -/
def current : LaunchPlatform := unix

/-- The segments of the script that is launched at boot, below the automation root. -/
def launchScript : LaunchPlatform → List String
  | unix => ["scripts", "skiabot-slave-start-on-boot.sh"]
  | windows => ["scripts", "skiabot-slave-start-on-boot.bat"]

end LaunchPlatform

/-- A build host. -/
structure Host where
  hostname : String
  /-- The workers, in the order of their declaration. -/
  workers : List Worker
  /-- The rules that apply to the host, or nothing if none can. -/
  copies : Option (List CopyRule)
  network : NetworkAddress
  kvm : KvmAttachment
  /-- The segments of the automation checkout, if there is one. -/
  automationRoot : Option (List String)
  launchScript : List String
  deriving DecidableEq, Repr, Inhabited

namespace Host

/-- The first worker with a name. -/
def worker? (h : Host) (name : String) : Option Worker :=
  h.workers.find? (·.name == name)

/-- The first worker with an index. -/
def workerByIndex? (h : Host) (index : String) : Option Worker :=
  h.workers.find? (·.index == index)

/-- The worker that a run acts as: the first one named by the selector, else the first one with that
index. Without a selector it is the first one named after the host, else the first of all. -/
def selectWorker (h : Host) (selector : Option String) : Except Failure Worker :=
  match h.workers with
  | [] => .error (.configuration ("host '" ++ h.hostname ++ "' has no provisioned workers"))
  | first :: _ =>
    match selector with
    | none => .ok ((h.worker? h.hostname).getD first)
    | some s =>
      match (h.worker? s).or (h.workerByIndex? s) with
      | some w => .ok w
      | none =>
        .error (.configuration
          ("host '" ++ h.hostname ++ "' has no worker named or indexed '" ++ s ++ "'"))

/-- A selection that fails is the caller's mistake. -/
theorem kind_of_selectWorker {h : Host} {selector : Option String} {f : Failure}
    (hf : h.selectWorker selector = .error f) : f.kind = .configuration := by
  rw [selectWorker] at hf
  split at hf
  · cases hf
    rfl
  · split at hf
    · cases hf
    · split at hf
      · cases hf
      · cases hf
        rfl

/-- Whether the host is reserved but carries no worker yet. -/
def isUnprovisioned (h : Host) : Bool := h.workers.isEmpty

/-- The path of the launch script. -/
def launchScriptPath (h : Host) : String := Path.ofSegments h.launchScript

end Host

end BuildFleet
