import BuildFleet.Span
import BuildFleet.Table.Basic

/-!
# The built-in table

The hosts that the program knows when no table is given. Most of them carry a run of workers with
consecutive numbers, whose index is the number without its leading zeros.
-/

namespace BuildFleet.HostTable

/-- The automation checkout on a compute host. -/
private def computeRoot : Option (List String) := some ["storage", "skia-repo", "buildbot"]

/-- A number in three digits. -/
private def threeDigits (n : Nat) : String := String.ofList (Span.paddedDigits 3 n)

/-- The worker of the Linux swarm with a number. -/
private def swarmWorker (n : Nat) : WorkerEntry :=
  ⟨"skiabot-linux-swarm-" ++ threeDigits n, toString n, false⟩

/-- A compute host with some workers. -/
private def computeHost (workers : List WorkerEntry) : HostEntry :=
  { workers, automationRoot := computeRoot }

/-- A compute host with workers of the swarm: so many numbers from the first one on, less the
retired ones. -/
private def swarmHost (first count : Nat) (retired : List Nat) : HostEntry :=
  computeHost (((List.range' first count).filter (!retired.contains ·)).map swarmWorker)

/-- The worker of the Android framework with a number; it comes after the canary. -/
private def androidWorker (n : Nat) : WorkerEntry :=
  ⟨"skia-android-build-" ++ threeDigits n, toString (n + 1), true⟩

/-- The built-in table. -/
def builtin : HostTable where
  hosts := .ofList
    [("skiabot-shuttle-ubuntu13-xxx",
      { ip := some "192.168.1.120"
        kvm := some ⟨"OFFICE", "H"⟩
        automationRoot := some ["buildbot"] }),
     ("skia-vm-001", swarmHost 112 16 []),
     ("skia-vm-002", swarmHost 128 8 []),
     ("skia-vm-003", swarmHost 96 16 []),
     ("skia-vm-004", swarmHost 64 16 []),
     ("skia-vm-005", swarmHost 48 16 [57]),
     ("skia-vm-006", swarmHost 32 16 []),
     ("skia-vm-007", swarmHost 16 16 [30]),
     ("skia-vm-008", swarmHost 0 16 []),
     ("skia-vm-009", swarmHost 80 16 []),
     ("skia-vm-013",
      computeHost [⟨"skiabot-ct-dm-000", "0", false⟩, ⟨"skiabot-ct-dm-001", "1", false⟩,
        ⟨"skiabot-ct-dm-003", "2", false⟩]),
     ("skia-vm-014",
      computeHost (⟨"skia-android-canary", "0", true⟩ :: (List.range 8).map androidWorker)),
     ("skia-vm-015",
      computeHost [⟨"skiabot-ct-dm-002", "3", false⟩, ⟨"skiabot-ct-dm-004", "4", false⟩]),
     ("skia-vm-024", computeHost []),
     ("slave11-c3", { workers := [⟨"slave11-c3", "0", false⟩], copies := none })]

end BuildFleet.HostTable
