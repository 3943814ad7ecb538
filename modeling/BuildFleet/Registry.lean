import BuildFleet.Json.Printer
import BuildFleet.Table.Document

/-!
# The registry of hosts

The registry answers for every name. A host of the table is answered from the table; for any other
name a host is made up that describes the machine at hand, with one worker of the same name. The two
kinds cannot be confused, since network and switch are unknown of a made-up host and of no other.
Either way the host that is answered has the name that was asked for.
-/

namespace BuildFleet

/-- The registry of hosts. -/
structure Registry where
  /-- The hosts of the table. -/
  hosts : Dictionary Host
  /-- Each host stands under its own name. -/
  named : ∀ e ∈ hosts.entries, e.2.hostname = e.1
  /-- The segments of the automation root of unknown hosts. -/
  localRoot : List String
  /-- The platform of unknown hosts. -/
  localPlatform : LaunchPlatform
  deriving DecidableEq

namespace Registry

/-- The registry of a table, for a machine whose current directory is given. -/
def ofTable (t : HostTable) (currentDirectory : String) : Registry where
  hosts := t.toHosts
  named := t.hostname_of_mem_toHosts
  localRoot := Path.segments currentDirectory
  localPlatform := .current

instance : Inhabited Registry := ⟨ofTable default ""⟩

/-- The registry with another automation root for unknown hosts. -/
def withLocalRoot (r : Registry) (root : String) : Registry :=
  { r with localRoot := Path.segments root }

/-- The registry with another platform for unknown hosts. -/
def withLocalPlatform (r : Registry) (platform : LaunchPlatform) : Registry :=
  { r with localPlatform := platform }

/-- The index of the one worker of an unknown host. -/
def defaultIndex : String := "0"

/-- The host that is made up for a name. -/
def defaultHost (r : Registry) (hostname : String) : Host where
  hostname := hostname
  workers := [⟨hostname, defaultIndex, true⟩]
  copies := some CopyRule.standardSet
  network := .unknown
  kvm := .unknown
  automationRoot := some r.localRoot
  launchScript := r.localPlatform.launchScript

/-- The host of the table with a name. -/
def get? (r : Registry) (hostname : String) : Option Host := r.hosts.get? hostname

/-- Whether the table has a host of that name. -/
def isKnown (r : Registry) (hostname : String) : Bool := r.hosts.contains hostname

/-- The host with a name: from the table, or made up. -/
def resolve (r : Registry) (hostname : String) : Host :=
  (r.get? hostname).getD (r.defaultHost hostname)

@[simp] theorem hostname_resolve (r : Registry) (hostname : String) :
    (r.resolve hostname).hostname = hostname := by
  rw [resolve]
  cases h : r.get? hostname with
  | none => rfl
  | some host => exact r.named _ (Dictionary.mem_entries_of_get? h)

/-- The names of the hosts of the table, in order. -/
def hostnames (r : Registry) : List String := r.hosts.keys

/-- The first host of the table that carries a worker of that name, with the worker. -/
def findWorker? (r : Registry) (name : String) : Option (Host × Worker) :=
  r.hosts.values.findSome? fun h ↦ (h.worker? name).map (h, ·)

/-- The hosts of the table as a JSON text. -/
def toJson (r : Registry) : String := r.hosts.hostsToDatum.toJson.pretty

/-- The hosts of the table as a YAML text. -/
def toYaml (r : Registry) : String := Yaml.render r.hosts.hostsToDatum.toYaml

end Registry

/-- The registry of a table, with what is to be told of unknown hosts. -/
def HostTable.registryFor (t : HostTable) (directory root : String) (platform : LaunchPlatform) :
    Registry :=
  ((Registry.ofTable t directory).withLocalRoot root).withLocalPlatform platform

end BuildFleet
