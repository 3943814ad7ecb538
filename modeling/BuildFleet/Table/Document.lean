import BuildFleet.Host.Document
import BuildFleet.Json.Source
import BuildFleet.Table.Basic
import BuildFleet.Yaml.Printer
import BuildFleet.Yaml.Source

/-!
# Host tables in documents

How tables are written into documents and read from them. The copy rules of an entry are either the
name of the standard set or a list, so they are read without a type first and then matched with each
of the two. This makes them stricter than the rest about numbers and words, and more lenient about
the shape of a rule, which may be a list of two texts.
-/

namespace BuildFleet

variable {ν : Type}

namespace WorkerEntry

/-- A row as written in a document. -/
def toDatum (w : WorkerEntry) : Datum :=
  .list [.text w.name, .text w.index, .flag w.elevated]

/-- Reads a row. -/
def read (S : Source ν) (n : ν) : Reading WorkerEntry := do
  match ← S.items n with
  | [name, index, elevated] =>
    return { name := ← S.text name, index := ← S.text index, elevated := ← S.flag elevated }
  | _ => failure

end WorkerEntry

namespace CopiesEntry

/-- Copy rules as written in a document. -/
def toDatum : CopiesEntry → Datum
  | standard => .text "standard"
  | rules rs => .ofList CopyRule.toDatum rs

/-- Whether an untyped value is the name of the standard set, also when it is written as a variant
that carries nothing. A position may stand for a name. -/
def isStandard : Untyped → Bool
  | .text s => s == "standard"
  | .map [(.text s, .null)] => s == "standard"
  | .map [(.index n, .null)] => n == 0
  | _ => false

/-- The field of a rule that a key stands for. -/
inductive RuleKey where
  | source
  | destination
  /-- A key that is no field's. -/
  | other
  deriving DecidableEq

/-- The field of a rule that a key stands for; only a text or a position can be a key. -/
def RuleKey.ofUntyped? : Untyped → Option RuleKey
  | .text s =>
    some (if s == "source" then source else if s == "destination" then destination else other)
  | .index n => some (if n == 0 then source else if n == 1 then destination else other)
  | _ => none

/-- What an untyped map gives for a field: exactly one text. -/
def ruleField? (key : RuleKey) (entries : List (RuleKey × Untyped)) : Option String :=
  match entries.filter (·.1 == key) with
  | [e] => e.2.text?
  | _ => none

/-- The rule that an untyped value is. -/
def ruleOfUntyped? : Untyped → Option CopyRule
  | .list [source, destination] => do
    some { source := ← source.text?, destination := ← destination.text? }
  | .map entries => do
    let entries ← entries.mapM fun e ↦ (RuleKey.ofUntyped? e.1).map (·, e.2)
    some
      { source := ← ruleField? .source entries, destination := ← ruleField? .destination entries }
  | _ => none

/-- The copy rules that an untyped value is. -/
def ofUntyped? (u : Untyped) : Option CopiesEntry :=
  if isStandard u then some standard
  else
    match u with
    | .list items => (items.mapM ruleOfUntyped?).map rules
    | _ => none

/-- Reads copy rules. -/
def read (S : Source ν) (n : ν) : Reading CopiesEntry := do
  .ofOption (ofUntyped? (← S.untyped n))

end CopiesEntry

namespace KvmEntry

/-- A place on a switch as written in a document. -/
def toDatum (k : KvmEntry) : Datum :=
  .record [("switch", .text k.switch), ("port", .text k.port)]

/-- Reads a place on a switch. -/
def read (S : Source ν) (n : ν) : Reading KvmEntry := do
  let fs ← S.fields n
  let switch ← fs.required 0 "switch" S.text
  let port ← fs.required 1 "port" S.text
  fs.whole 2 { switch, port }

end KvmEntry

namespace HostEntry

/-- An entry as written in a document. -/
def toDatum (e : HostEntry) : Datum :=
  .record [("workers", .ofList WorkerEntry.toDatum e.workers),
    ("copies", .ofOption CopiesEntry.toDatum e.copies), ("ip", .ofOption .text e.ip),
    ("kvm", .ofOption KvmEntry.toDatum e.kvm),
    ("automation_root", .ofOption (.ofList .text) e.automationRoot), ("launch", e.launch.toDatum)]

/-- Reads an entry; every field may be left out. -/
def read (S : Source ν) (n : ν) : Reading HostEntry := do
  let fs ← S.fields n
  let usual : HostEntry := {}
  let workers ← fs.defaulted 0 "workers" usual.workers (S.listOf (WorkerEntry.read S))
  let copies ← fs.defaulted 1 "copies" usual.copies (S.optionOf (CopiesEntry.read S))
  let ip ← fs.defaulted 2 "ip" usual.ip (S.optionOf S.text)
  let kvm ← fs.defaulted 3 "kvm" usual.kvm (S.optionOf (KvmEntry.read S))
  let automationRoot ←
    fs.defaulted 4 "automation_root" usual.automationRoot (S.optionOf (S.listOf S.text))
  let launch ← fs.defaulted 5 "launch" usual.launch (LaunchPlatform.read S)
  fs.whole 6 { workers, copies, ip, kvm, automationRoot, launch }

end HostEntry

namespace HostTable

/-- A table as written in a document. -/
def toDatum (t : HostTable) : Datum :=
  .record [("hosts", .record (t.hosts.mapEntries fun _ e ↦ e.toDatum).entries)]

/-- Reads the entries of a table; of those with one name the last one counts. -/
def readHosts (S : Source ν) (n : ν) : Reading (Dictionary HostEntry) := do
  let hosts ← (← S.entries n).mapM fun e ↦ return (e.1, ← HostEntry.read S e.2)
  return .ofList hosts

/-- Reads a table. -/
def read (S : Source ν) (n : ν) : Reading HostTable := do
  let fs ← S.fields n
  let hosts ← fs.defaulted 0 "hosts" .empty (readHosts S)
  fs.whole 1 { hosts }

end HostTable

/-- Hosts by their names, as written in a document. -/
def Dictionary.hostsToDatum (hosts : Dictionary Host) : Datum :=
  .record (hosts.mapEntries fun _ h ↦ h.toDatum).entries

/-- Reads hosts by their names. -/
def Dictionary.readHosts (S : Source ν) (n : ν) : Reading (Dictionary Host) := do
  let hosts ← (← S.entries n).mapM fun e ↦ return (e.1, ← Host.read S e.2)
  return .ofList hosts

/-! ## Loading -/

/-- Why a table cannot be used. -/
inductive TableError where
  /-- The text is no table; the format's own words for that are not kept. -/
  | unreadable
  /-- The table is faulty. -/
  | faulty (fault : TableFault)
  deriving DecidableEq, Repr

namespace HostTable

/-- The table, if nothing is wrong with it. -/
def checked (t : HostTable) : Except TableError HostTable :=
  match t.fault? with
  | some fault => .error (.faulty fault)
  | none => .ok t

/-- The table in a YAML text. -/
def ofYaml (text : String) : Except TableError HostTable :=
  match Yaml.readText? read text with
  | some t => t.checked
  | none => .error .unreadable

end HostTable

end BuildFleet
