import BuildFleet.Dictionary
import BuildFleet.Host.Basic
import BuildFleet.Text.Blank

/-!
# The host table

The table is what operators write: one entry for a host, with everything left out that is ordinary.
A host is made from an entry by filling in what the omissions mean. Leaving the copy rules out and
saying that there are none are two different things, so an entry keeps absent, standard and explicit
rules apart.

Checking a table goes through the hosts in the order of their names and reports the first thing that
is wrong.
-/

namespace BuildFleet

/-- A worker as a row of three: name, index, and whether its installs are elevated. -/
structure WorkerEntry where
  name : String
  index : String
  elevated : Bool
  deriving DecidableEq, Repr, Inhabited

/-- The copy rules of an entry. -/
inductive CopiesEntry where
  /-- The rules of an ordinary checkout. -/
  | standard
  | rules (rules : List CopyRule)
  deriving DecidableEq, Repr, Inhabited

/-- The place of a host on a KVM switch. -/
structure KvmEntry where
  switch : String
  port : String
  deriving DecidableEq, Repr, Inhabited

/-- An entry of the table. The defaults are what an entry means that says nothing. -/
structure HostEntry where
  workers : List WorkerEntry := []
  /-- The copy rules; nothing if none can apply. -/
  copies : Option CopiesEntry := some .standard
  /-- The fixed address, if the host has one. -/
  ip : Option String := none
  kvm : Option KvmEntry := none
  automationRoot : Option (List String) := none
  launch : LaunchPlatform := .unix
  deriving DecidableEq, Repr, Inhabited

/-- The table of hosts. -/
structure HostTable where
  hosts : Dictionary HostEntry := .empty
  deriving DecidableEq, Inhabited

/-- The worker that a row stands for. -/
def WorkerEntry.toWorker (w : WorkerEntry) : Worker := ⟨w.name, w.index, w.elevated⟩

/-- The rules that an entry stands for. -/
def CopiesEntry.toRules : CopiesEntry → List CopyRule
  | standard => CopyRule.standardSet
  | rules rs => rs

/-- The host that an entry under a name stands for. -/
def HostEntry.toHost (hostname : String) (e : HostEntry) : Host where
  hostname := hostname
  workers := e.workers.map WorkerEntry.toWorker
  copies := e.copies.map CopiesEntry.toRules
  network :=
    match e.ip with
    | some ip => .static ip
    | none => .noStatic
  kvm :=
    match e.kvm with
    | some k => .attached k.switch k.port
    | none => .notAttached
  automationRoot := e.automationRoot
  launchScript := e.launch.launchScript

/-- The hosts of a table by their names. -/
def HostTable.toHosts (t : HostTable) : Dictionary Host :=
  t.hosts.mapEntries HostEntry.toHost

theorem HostTable.hostname_of_mem_toHosts (t : HostTable) :
    ∀ e ∈ t.toHosts.entries, e.2.hostname = e.1 := by
  intro e he
  obtain ⟨entry, -, rfl⟩ := List.mem_map.1 he
  rfl

/-! ## Checking -/

/-- What can be wrong with a table. -/
inductive TableFault where
  | blankHostname
  | blankWorkerName (hostname : String)
  | repeatedIndex (hostname index : String)
  | incompleteRule (hostname : String)
  deriving DecidableEq, Repr

/-- The text of a fault. -/
def TableFault.message : TableFault → String
  | blankHostname => "Host table contains an empty hostname"
  | blankWorkerName hostname =>
    "Host '" ++ hostname ++ "' declares a worker with an empty name"
  | repeatedIndex hostname index =>
    "Host '" ++ hostname ++ "' declares worker index '" ++ index ++ "' more than once"
  | incompleteRule hostname =>
    "Host '" ++ hostname ++ "' has a copy rule with an empty source or destination"

/-- The first fault in the workers of a host; `seen` are the indices of the workers before them. -/
def workersFault? (hostname : String) (seen : List String) : List WorkerEntry → Option TableFault
  | [] => none
  | w :: ws =>
    if Text.allBlank w.name then some (.blankWorkerName hostname)
    else if seen.contains w.index then some (.repeatedIndex hostname w.index)
    else workersFault? hostname (w.index :: seen) ws

/-- Whether a copy rule lacks one of its two ends. -/
def CopyRule.isIncomplete (r : CopyRule) : Bool :=
  r.source.isEmpty || r.destination.isEmpty

/-- The fault in the copy rules of a host. -/
def copiesFault? (hostname : String) : Option CopiesEntry → Option TableFault
  | some (.rules rs) =>
    if rs.any CopyRule.isIncomplete then some (.incompleteRule hostname) else none
  | _ => none

/-- The first fault of an entry. -/
def HostEntry.fault? (hostname : String) (e : HostEntry) : Option TableFault :=
  if Text.allBlank hostname then some .blankHostname
  else (workersFault? hostname [] e.workers).or (copiesFault? hostname e.copies)

/-- The first fault of a table. -/
def HostTable.fault? (t : HostTable) : Option TableFault :=
  t.hosts.entries.findSome? fun e ↦ e.2.fault? e.1

end BuildFleet
