import BuildFleet.Host.Basic

/-!
# Hosts in documents

How hosts and their parts are written into documents and read from them.
-/

namespace BuildFleet

variable {ν : Type}

namespace Worker

/-- A worker as written in a document. -/
def toDatum (w : Worker) : Datum :=
  .record [("name", .text w.name), ("index", .text w.index),
    ("elevated_install", .flag w.elevatedInstall)]

/-- Reads a worker. -/
def read (S : Source ν) (n : ν) : Reading Worker := do
  let fs ← S.fields n
  let name ← fs.required 0 "name" S.text
  let index ← fs.required 1 "index" S.text
  let elevatedInstall ← fs.required 2 "elevated_install" S.flag
  fs.whole 3 { name, index, elevatedInstall }

end Worker

namespace CopyRule

/-- A copy rule as written in a document. -/
def toDatum (r : CopyRule) : Datum :=
  .record [("source", .text r.source), ("destination", .text r.destination)]

/-- Reads a copy rule. -/
def read (S : Source ν) (n : ν) : Reading CopyRule := do
  let fs ← S.fields n
  let source ← fs.required 0 "source" S.text
  let destination ← fs.required 1 "destination" S.text
  fs.whole 2 { source, destination }

end CopyRule

namespace NetworkAddress

/-- An address as written in a document. -/
def toDatum : NetworkAddress → Datum
  | static address => .variant "static" (.text address)
  | noStatic => .text "no_static"
  | unknown => .text "unknown"

/-- Reads an address. -/
def read (S : Source ν) (n : ν) : Reading NetworkAddress := do
  let (name, payload) ← S.choice n
  if name == "static" then return static (← S.text (← Reading.ofOption payload))
  else if payload.all S.isVoid then
    if name == "no_static" then return noStatic
    else if name == "unknown" then return unknown
    else failure
  else failure

end NetworkAddress

namespace KvmAttachment

/-- A place on a switch as written in a document. -/
def toDatum : KvmAttachment → Datum
  | attached switch port =>
    .variant "attached" (.record [("switch", .text switch), ("port", .text port)])
  | notAttached => .text "not_attached"
  | unknown => .text "unknown"

/-- Reads a place on a switch. -/
def read (S : Source ν) (n : ν) : Reading KvmAttachment := do
  let (name, payload) ← S.choice n
  if name == "attached" then
    let fs ← S.payloadFields (← Reading.ofOption payload)
    let switch ← fs.required 0 "switch" S.text
    let port ← fs.required 1 "port" S.text
    fs.whole 2 (attached switch port)
  else if payload.all S.isVoid then
    if name == "not_attached" then return notAttached
    else if name == "unknown" then return unknown
    else failure
  else failure

end KvmAttachment

namespace LaunchPlatform

/-- A platform as written in a document. -/
def toDatum (p : LaunchPlatform) : Datum := .text p.name

/-- Reads a platform. -/
def read (S : Source ν) (n : ν) : Reading LaunchPlatform := S.nameOf ofName? n

end LaunchPlatform

namespace Host

/-- A host as written in a document. -/
def toDatum (h : Host) : Datum :=
  .record [("hostname", .text h.hostname), ("workers", .ofList Worker.toDatum h.workers),
    ("copies", .ofOption (.ofList CopyRule.toDatum) h.copies), ("network", h.network.toDatum),
    ("kvm", h.kvm.toDatum), ("automation_root", .ofOption (.ofList .text) h.automationRoot),
    ("launch_script", .ofList .text h.launchScript)]

/-- Reads a host. -/
def read (S : Source ν) (n : ν) : Reading Host := do
  let fs ← S.fields n
  let hostname ← fs.required 0 "hostname" S.text
  let workers ← fs.required 1 "workers" (S.listOf (Worker.read S))
  let copies ← fs.optional S 2 "copies" (S.listOf (CopyRule.read S))
  let network ← fs.required 3 "network" (NetworkAddress.read S)
  let kvm ← fs.required 4 "kvm" (KvmAttachment.read S)
  let automationRoot ← fs.optional S 5 "automation_root" (S.listOf S.text)
  let launchScript ← fs.required 6 "launch_script" (S.listOf S.text)
  fs.whole 7 { hostname, workers, copies, network, kvm, automationRoot, launchScript }

end Host

end BuildFleet
