import BuildFleet.Device.Error
import BuildFleet.Device.Reply

/-!
# Bridges to devices

A bridge asks whether a device can be reached and places a build on it. A bridge can be made to keep
a record of the calls that reach it; the record is part of the world that it acts on.
-/

namespace BuildFleet

/-- A way to talk to devices. -/
structure Bridge (σ : Type) where
  /-- Asks whether the device with a serial answers and is ready. -/
  isReachable : (serial : String) → Call σ (Except DeviceError Bool)
  /-- Places the build for a configuration on a device, and the launcher if that is wanted. -/
  install : (serial : String) → (release launcher : Bool) →
    Call σ (Except DeviceError InstallReport)

/-- A call that reaches a device. -/
inductive DeviceCall where
  | isReachable (serial : String)
  | install (serial : String) (release launcher : Bool)
  deriving DecidableEq, Repr

/-- The bridge that also records the calls, oldest first. -/
def Bridge.recording {σ : Type} (b : Bridge σ) : Bridge (σ × List DeviceCall) where
  isReachable serial := fun (w, calls) ↦
    let (r, w) := b.isReachable serial w
    (r, w, calls ++ [.isReachable serial])
  install serial release launcher := fun (w, calls) ↦
    let (r, w) := b.install serial release launcher w
    (r, w, calls ++ [.install serial release launcher])

end BuildFleet
