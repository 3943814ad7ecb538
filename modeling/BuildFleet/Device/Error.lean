import BuildFleet.Document.Datum
import BuildFleet.Document.Source
import BuildFleet.Text.Blank

/-!
# What devices report

The errors of a device call, the report of a completed install, and the check of what the installer
prints: it may end well and still print that the install has failed, so what it prints decides.
-/

namespace BuildFleet

variable {ν : Type}

/-- An error of a device call. -/
inductive DeviceError where
  /-- The program that talks to the device could not be started. -/
  | spawn (program reason : String)
  /-- It ended with a status other than zero. -/
  | commandFailed (code : Int) (stderr : String)
  /-- The device refused the install. -/
  | rejected (reason : String)
  /-- There was no answer in so many seconds. -/
  | timeout (seconds : Nat)
  /-- What was printed could not be read. -/
  | decode (detail : String)
  deriving DecidableEq, Repr, Inhabited

/-- The text of an error. -/
def DeviceError.message : DeviceError → String
  | spawn program reason => "Failed to spawn " ++ program ++ ": " ++ reason
  | commandFailed code stderr =>
    "Device command exited with code " ++ toString code ++ ": " ++ stderr
  | rejected reason => "Install rejected by device: " ++ reason
  | timeout seconds => "Timeout after " ++ toString seconds ++ " seconds"
  | decode detail => "Failed to decode device output: " ++ detail

/-- The report of a completed install. -/
structure InstallReport where
  /-- What was placed on the device, in order. -/
  packages : List String
  /-- What was printed meanwhile. -/
  output : String
  deriving DecidableEq, Repr, Inhabited

namespace InstallReport

/-- A report as written in a document. -/
def toDatum (r : InstallReport) : Datum :=
  .record [("packages", .ofList .text r.packages), ("output", .text r.output)]

/-- Reads a report. -/
def read (S : Source ν) (n : ν) : Reading InstallReport := do
  let fs ← S.fields n
  let packages ← fs.required 0 "packages" (S.listOf S.text)
  let output ← fs.required 1 "output" S.text
  fs.whole 2 { packages, output }

end InstallReport

/-! ## Failure markers -/

namespace InstallOutput

/-- The characters of failure codes. -/
def isCodeChar (c : Char) : Bool :=
  ('A' ≤ c && c ≤ 'Z') || ('0' ≤ c && c ≤ '9') || c == '_'

/-- What a failure marker starts with. -/
def markerStart : List Char := "Failure [".toList

/-- The code of the failure marker that a text starts with: the marker ends with a bracket, and in
front of that there may be a colon or a blank with an explanation after it. -/
def codeAtStart? (cs : List Char) : Option (List Char) :=
  if markerStart.isPrefixOf cs then
    let body := cs.drop markerStart.length
    let code := body.takeWhile isCodeChar
    match body.dropWhile isCodeChar with
    | c :: rest =>
      if code.isEmpty then none
      else if c == ']' then some code
      else if (c == ':' || Text.isBlank c) && rest.contains ']' then some code
      else none
    | [] => none
  else none

/-- The code of the first failure marker in a text. -/
def code? : List Char → Option (List Char)
  | [] => none
  | c :: cs => (codeAtStart? (c :: cs)).or (code? cs)

/-- Checks what an install has printed: the reason why it was rejected is the code of the first
failure marker, or all of the text if it speaks of a failure without a marker. -/
def check (output : String) : Except DeviceError Unit :=
  match code? output.toList with
  | some code => .error (.rejected (String.ofList code))
  | none =>
    if Text.occursIn "Failure".toList output.toList then .error (.rejected (Text.trim output))
    else .ok ()

theorem isInfix_of_code? {cs code : List Char} (h : code? cs = some code) :
    markerStart <:+: cs := by
  induction cs with
  | nil => cases h
  | cons c cs ih =>
    rw [code?, Option.or_eq_some_iff] at h
    rcases h with h | ⟨-, h⟩
    · rw [codeAtStart?] at h
      split at h
      · rename_i hstart
        exact (List.isPrefixOf_iff_prefix.mp hstart).isInfix
      · cases h
    · exact (ih h).trans (List.suffix_cons c cs).isInfix

/-- What speaks of a failure anywhere is rejected. -/
theorem exists_rejected {output : String} (h : "Failure".toList <:+: output.toList) :
    ∃ reason, check output = .error (.rejected reason) := by
  rw [check]
  split
  · exact ⟨_, rfl⟩
  · rw [if_pos (Text.occursIn_iff.mpr h)]
    exact ⟨_, rfl⟩

/-- Nothing else is: a marker speaks of a failure as well. -/
theorem check_eq_ok_iff {output : String} :
    check output = .ok () ↔ ¬ "Failure".toList <:+: output.toList := by
  constructor
  · intro h hfailure
    obtain ⟨reason, hreason⟩ := exists_rejected hfailure
    rw [hreason] at h
    cases h
  · intro h
    have hmarker : "Failure".toList <:+: markerStart := ⟨[], [' ', '['], by decide⟩
    rw [check]
    split
    · rename_i code hcode
      exact absurd (hmarker.trans (isInfix_of_code? hcode)) h
    · rw [if_neg]
      rwa [Text.occursIn_iff]

end InstallOutput

end BuildFleet
