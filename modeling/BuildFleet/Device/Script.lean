import BuildFleet.Device.Bridge

/-!
# Scripted devices

A device whose replies are known beforehand, for rehearsing runs without one. Each of its two calls
has a list of replies; the last one is given again when the list is over, and a call without any
list succeeds at once.
-/

namespace BuildFleet

/-- The replies of a device to come. -/
structure DeviceScript where
  reachable : List (Reply (Except DeviceError Bool)) := []
  install : List (Reply (Except DeviceError InstallReport)) := []

namespace DeviceScript

/-- The next reply of a list, and the list after it: the last reply stays. -/
def next {α : Type} (usual : Reply α) : List (Reply α) → Reply α × List (Reply α)
  | [] => (usual, [])
  | [r] => (r, [r])
  | r :: rs => (r, rs)

/-- The bridge to a scripted device. -/
def bridge : Bridge DeviceScript where
  isReachable _ := fun s ↦
    let (r, rest) := next (.now (.ok true)) s.reachable
    (r, { s with reachable := rest })
  install _ _ _ := fun s ↦
    let (r, rest) := next (.now (.ok ⟨[], ""⟩)) s.install
    (r, { s with install := rest })

end DeviceScript

end BuildFleet
