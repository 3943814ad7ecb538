import BuildFleet.Device.Adb
import BuildFleet.Proofs.PathSegments
import BuildFleet.Proofs.Recording
import BuildFleet.Proofs.Utf8Text
import Mathlib.Data.List.Forall2

/-!
# Commands of adb

An install is one command after the other, and a command is issued only if all before it were good.
So a list of the commands that have been issued tells where an install has stopped: either all that
is required has been done, or the last command on the list is the one that went wrong, and nothing
has been issued after it. That an install has been completed and that it has failed can therefore
never both be read off the same commands.

What can go wrong with a command is looked for in a fixed order: that there is no answer, that the
program has not been started, its status, its bytes, and last its text. The rules below name the
cases so that they exclude each other, and say nothing of an order.

## Rules and records

The bridge is a loop with an early end, written with calls that wait for each other. The rules in
`Adb.Installs` relate the files to place, the commands issued for them and what comes of it, and
know no waiting: an install is done, or a command is good and the rest follows, or it stops at a
command that goes wrong. That the loop goes by the rules is shown once, by induction on the files.
Everything else is read off the rules, without opening the bridge again.

The bridge itself keeps no record of its commands. The system that starts them is made to keep one,
as a part of its world, and by `Adb.bridge_recording_follows` this changes nothing else, so what is
found out about the record holds of the bridge over any system.
-/

namespace BuildFleet

variable {σ : Type}

/-! ## Records of commands -/

structure ProcessCommand where
  program : String
  arguments : List String
  deriving DecidableEq, Repr

/-- A command that has been issued, and how the system has replied to it. -/
structure IssuedCommand where
  command : ProcessCommand
  reply : Reply (Except String ProcessResult)

/-- The system that also records the commands that it is given, oldest first. -/
def ProcessSystem.recording (sys : ProcessSystem σ) : ProcessSystem (σ × List IssuedCommand) :=
  fun program arguments (w, issued) ↦
    let (r, w) := sys program arguments w
    (r, w, issued ++ [⟨⟨program, arguments⟩, r⟩])

namespace Call.Follows

variable {τ α β : Type} {f : τ → σ}

theorem pure (a : α) : (Call.pure a : Call τ α).Follows f (Call.pure a) := fun _ ↦ rfl

theorem within {c' : Call τ α} {c : Call σ α} (h : c'.Follows f c) (t : Timer) (limit : Span) :
    (c'.within t limit).Follows f (c.within t limit) := by
  intro w
  simp only [Call.within]
  rw [h.fst, h.snd]

theorem andThen {c' : Call τ α} {c : Call σ α} {next' : α → Call τ β} {next : α → Call σ β}
    (h : c'.Follows f c) (hnext : ∀ a, (next' a).Follows f (next a)) :
    (c'.andThen next').Follows f (c.andThen next) := by
  intro w
  have hw := h w
  rw [Call.andThen, Call.andThen, ← hw]
  rcases c' w with ⟨_ | ⟨delay, a⟩, w'⟩
  · rfl
  · dsimp only
    rw [← (hnext a).fst, ← (hnext a).snd]

end Call.Follows

namespace Adb

variable (t : Timer) (sys : ProcessSystem σ) (c : AdbConfig) (serial : String)

theorem run_follows (command : List String) :
    (run t sys.recording c serial command).Follows Prod.fst (run t sys c serial command) := by
  have hsys : (sys.recording c.program (arguments serial command)).Follows Prod.fst
      (sys c.program (arguments serial command)) := fun _ ↦ rfl
  exact (hsys.within _ _).map _

theorem installFiles_follows (paths done : List String) (output : String) :
    (installFiles t sys.recording c serial done output paths).Follows Prod.fst
      (installFiles t sys c serial done output paths) := by
  induction paths generalizing done output with
  | nil => exact .pure _
  | cons path paths ih =>
    refine (run_follows t sys c serial _).andThen fun r ↦ ?_
    cases r with
    | error e => exact .pure _
    | ok text =>
      dsimp only
      split
      · exact .pure _
      · exact ih _ _

/-- Keeping a record of the commands does not change what the bridge does. -/
theorem bridge_recording_follows :
    (bridge t sys.recording c).Follows Prod.fst (bridge t sys c) where
  isReachable := fun serial ↦ ((run_follows t sys c serial _).map _).map _
  install := fun serial _ _ ↦ installFiles_follows t sys c serial _ _ _

end Adb

/-! ## What comes of a command

A command prints a text or fails, never both, and whichever it does fixes the text or the error.
Both are said of status and bytes directly: bytes are a text if they are the spelling of one, and if
they are not, the error names the fault at which strict reading stops. The message of a program that
has failed is read leniently, so that a byte which is no character does not get in the way of it. -/

/-- What has come of a command within the limit on one command. -/
def IssuedCommand.answer (t : Timer) (c : AdbConfig) (i : IssuedCommand) :
    Option (Except String ProcessResult) :=
  i.reply.answerBy (t.lasts c.limit)

def IssuedCommand.waited (t : Timer) (c : AdbConfig) (i : IssuedCommand) : Span :=
  (i.reply.awaited (t.lasts c.limit)).2

namespace IssuedCommand

/-- The command has ended with status 0, and what it has printed spells this text. -/
def Prints (t : Timer) (c : AdbConfig) (i : IssuedCommand) (text : String) : Prop :=
  ∃ stderr, i.answer t c = some (.ok ⟨.exited 0, Text.Utf8.encode text, stderr⟩)

/-- The ways in which a command can fail. -/
inductive Fails (t : Timer) (c : AdbConfig) (i : IssuedCommand) : DeviceError → Prop
  /-- There is no answer within the limit. -/
  | late (h : i.answer t c = none) : Fails t c i (.timeout c.timeoutSeconds)
  /-- The program cannot be started. -/
  | unstarted {reason : String} (h : i.answer t c = some (.error reason)) :
    Fails t c i (.spawn (c.adbPath.getD "adb") reason)
  /-- The program ends with a status other than 0. -/
  | exited {code : Int} (hcode : code ≠ 0) {stdout stderr : List UInt8}
    (h : i.answer t c = some (.ok ⟨.exited code, stdout, stderr⟩)) :
    Fails t c i (.commandFailed code (Text.trim (Text.Utf8.decodeLenient stderr)))
  /-- The program is ended by a signal. -/
  | killed {stdout stderr : List UInt8} (h : i.answer t c = some (.ok ⟨.killed, stdout, stderr⟩)) :
    Fails t c i (.commandFailed (-1) (Text.trim (Text.Utf8.decodeLenient stderr)))
  /-- The program ends with status 0, and what it has printed spells no text. -/
  | garbled {stdout stderr : List UInt8} (hstdout : ∀ text, stdout ≠ Text.Utf8.encode text)
    {fault : Text.Utf8.Fault} (hfault : Text.Utf8.decode stdout = .error fault)
    (h : i.answer t c = some (.ok ⟨.exited 0, stdout, stderr⟩)) :
    Fails t c i (.decode fault.message)

variable {t : Timer} {c : AdbConfig} {i : IssuedCommand}

theorem resultOf_of_prints {text : String} (h : i.Prints t c text) :
    Adb.resultOf c (i.answer t c) = .ok text := by
  obtain ⟨stderr, h⟩ := h
  rw [h, Adb.resultOf, Adb.outputOf, if_pos rfl, Text.Utf8.decode_eq_ok_iff.mpr rfl]

theorem resultOf_of_fails {e : DeviceError} (h : i.Fails t c e) :
    Adb.resultOf c (i.answer t c) = .error e := by
  cases h with
  | late h | unstarted h | killed h =>
    rw [h]
    rfl
  | @exited code hcode stdout stderr h =>
    have hending : ¬ ProcessEnd.exited code = .exited 0 := by
      rw [ProcessEnd.exited.injEq]
      exact hcode
    rw [h, Adb.resultOf, Adb.outputOf, if_neg hending]
    rfl
  | garbled _ hfault h => rw [h, Adb.resultOf, Adb.outputOf, if_pos rfl, hfault]

theorem prints_or_fails (t : Timer) (c : AdbConfig) (i : IssuedCommand) :
    (∃ text, i.Prints t c text) ∨ ∃ e, i.Fails t c e := by
  match ha : i.answer t c with
  | none => exact .inr ⟨_, .late ha⟩
  | some (.error reason) => exact .inr ⟨_, .unstarted ha⟩
  | some (.ok ⟨.killed, stdout, stderr⟩) => exact .inr ⟨_, .killed ha⟩
  | some (.ok ⟨.exited code, stdout, stderr⟩) =>
    by_cases hcode : code = 0
    · rw [hcode] at ha
      by_cases htext : ∃ text, stdout = Text.Utf8.encode text
      · obtain ⟨text, rfl⟩ := htext
        exact .inl ⟨text, stderr, ha⟩
      · cases hdecode : Text.Utf8.decode stdout with
        | ok text => exact absurd ⟨text, Text.Utf8.decode_eq_ok_iff.mp hdecode⟩ htext
        | error fault => exact .inr ⟨_, .garbled (not_exists.mp htext) hdecode ha⟩
    · exact .inr ⟨_, .exited hcode ha⟩

theorem Prints.iff_eq {text text' : String} (h : i.Prints t c text) :
    i.Prints t c text' ↔ text' = text := by
  constructor
  · intro h'
    exact Except.ok.inj ((resultOf_of_prints h').symm.trans (resultOf_of_prints h))
  · rintro rfl
    exact h

theorem Fails.iff_eq {e e' : DeviceError} (h : i.Fails t c e) : i.Fails t c e' ↔ e' = e := by
  constructor
  · intro h'
    exact Except.error.inj ((resultOf_of_fails h').symm.trans (resultOf_of_fails h))
  · rintro rfl
    exact h

theorem Fails.not_prints {e : DeviceError} (h : i.Fails t c e) (text : String) :
    ¬ i.Prints t c text := by
  intro hprints
  cases (resultOf_of_prints hprints).symm.trans (resultOf_of_fails h)

/-- A command of an install is good: it prints a text that does not speak of a failure. -/
def IsGood (t : Timer) (c : AdbConfig) (i : IssuedCommand) (text : String) : Prop :=
  i.Prints t c text ∧ ¬ "Failure".toList <:+: text.toList

/-- A command of an install goes wrong: it fails, or its text speaks of a failure. -/
inductive GoesWrong (t : Timer) (c : AdbConfig) (i : IssuedCommand) : DeviceError → Prop
  | failed {e : DeviceError} (h : i.Fails t c e) : GoesWrong t c i e
  | rejected {text reason : String} (h : i.Prints t c text) (hf : "Failure".toList <:+: text.toList)
    (hreason : InstallOutput.check text = .error (.rejected reason)) :
    GoesWrong t c i (.rejected reason)

theorem GoesWrong.not_isGood {e : DeviceError} (h : i.GoesWrong t c e) (text : String) :
    ¬ i.IsGood t c text := by
  intro hgood
  cases h with
  | failed h => exact h.not_prints text hgood.1
  | rejected h hf _ =>
    rw [← h.iff_eq.mp hgood.1] at hf
    exact hgood.2 hf

end IssuedCommand

/-! ## Installs

What has been placed and printed so far is carried along by the loop, and the rules know only what
is still to come. So the induction is over all that can have been carried along. It also counts the
time: the wait for an install is the sum of the waits for its commands, and this sum is what a limit
on the whole of the install will be compared with. -/

namespace Adb

/-- How far an install of files gets: the commands that are issued for them, and what is printed by
them or goes wrong. -/
inductive Installs (t : Timer) (c : AdbConfig) (serial : String) :
    List String → List IssuedCommand → Except DeviceError String → Prop
  | done : Installs t c serial [] [] (.ok "")
  | next {path : String} {paths : List String} {i : IssuedCommand} {is : List IssuedCommand}
    {text : String} {r : Except DeviceError String}
    (hi : i.command = ⟨c.program, arguments serial ["install", "-r", path]⟩)
    (h : i.IsGood t c text) (hrest : Installs t c serial paths is r) :
    Installs t c serial (path :: paths) (i :: is) (r.map (text ++ ·))
  | stopped {path : String} {paths : List String} {i : IssuedCommand} {e : DeviceError}
    (hi : i.command = ⟨c.program, arguments serial ["install", "-r", path]⟩)
    (h : i.GoesWrong t c e) : Installs t c serial (path :: paths) [i] (.error e)

/-- How long the commands of a phase have been waited for, one after the other. -/
def spent (t : Timer) (c : AdbConfig) : List IssuedCommand → Span
  | [] => ⟨0⟩
  | i :: is => ⟨(i.waited t c).nanoseconds + (spent t c is).nanoseconds⟩

theorem spent_cons (t : Timer) (c : AdbConfig) (i : IssuedCommand) (is : List IssuedCommand) :
    spent t c (i :: is) = ⟨(i.waited t c).nanoseconds + (spent t c is).nanoseconds⟩ := rfl

variable (t : Timer) (sys : ProcessSystem σ) (c : AdbConfig) (serial : String)

theorem exists_run_waited (command : List String) (w : σ) (earlier : List IssuedCommand) :
    ∃ (i : IssuedCommand) (w' : σ),
      i.command = ⟨c.program, arguments serial command⟩ ∧
        run t sys.recording c serial command (w, earlier) =
          (.after (i.waited t c) (resultOf c (i.answer t c)), (w', earlier ++ [i])) := by
  let answered := sys c.program (arguments serial command) w
  refine ⟨⟨⟨c.program, arguments serial command⟩, answered.1⟩, answered.2, rfl, ?_⟩
  rw [IssuedCommand.answer, ← Reply.awaited_fst]
  rfl

theorem exists_run (command : List String) (w : σ) (earlier : List IssuedCommand) :
    ∃ (i : IssuedCommand) (delay : Span) (w' : σ),
      i.command = ⟨c.program, arguments serial command⟩ ∧
        run t sys.recording c serial command (w, earlier) =
          (.after delay (resultOf c (i.answer t c)), (w', earlier ++ [i])) := by
  obtain ⟨i, w', h⟩ := exists_run_waited t sys c serial command w earlier
  exact ⟨i, i.waited t c, w', h⟩

/-- Files are placed as the rules tell, and it takes as long as the waits for the commands. What has
been placed and printed before only stands in front of what the rules tell of the files to come. -/
theorem exists_installFiles_spent (paths done : List String) (output : String) (w : σ)
    (earlier : List IssuedCommand) :
    ∃ (is : List IssuedCommand) (r : Except DeviceError String) (w' : σ),
      Installs t c serial paths is r ∧
        installFiles t sys.recording c serial done output paths (w, earlier) =
          (.after (spent t c is) (r.map fun text ↦ ⟨done ++ paths, output ++ text⟩),
            (w', earlier ++ is)) := by
  induction paths generalizing done output w earlier with
  | nil =>
    refine ⟨[], .ok "", w, .done, ?_⟩
    simp only [installFiles, Call.pure, Reply.now, Except.map, List.append_nil,
      String.append_empty]
    rfl
  | cons path paths ih =>
    obtain ⟨i, w', hi, hrun⟩ := exists_run_waited t sys c serial ["install", "-r", path] w earlier
    rw [installFiles, installFile, Call.andThen, hrun]
    dsimp only
    rcases i.prints_or_fails t c with ⟨text, hprints⟩ | ⟨e, hfails⟩
    · rw [IssuedCommand.resultOf_of_prints hprints]
      dsimp only
      by_cases hf : "Failure".toList <:+: text.toList
      · obtain ⟨reason, hreason⟩ := InstallOutput.exists_rejected hf
        rw [hreason]
        exact ⟨[i], .error _, w', .stopped hi (.rejected hprints hf hreason), rfl⟩
      · obtain ⟨is, r, w'', hinstalls, hrest⟩ :=
          ih (done ++ [path]) (output ++ text) w' (earlier ++ [i])
        rw [InstallOutput.check_eq_ok_iff.mpr hf]
        dsimp only
        rw [hrest]
        refine ⟨i :: is, r.map (text ++ ·), w'', .next hi ⟨hprints, hf⟩ hinstalls, ?_⟩
        rw [spent_cons]
        cases r <;> simp [Except.map, Reply.delayed, String.append_assoc]
    · rw [IssuedCommand.resultOf_of_fails hfails]
      exact ⟨[i], .error e, w', .stopped hi (.failed hfails), rfl⟩

theorem exists_installFiles (paths done : List String) (output : String) (w : σ)
    (earlier : List IssuedCommand) :
    ∃ (is : List IssuedCommand) (r : Except DeviceError String) (delay : Span) (w' : σ),
      Installs t c serial paths is r ∧
        installFiles t sys.recording c serial done output paths (w, earlier) =
          (.after delay (r.map fun text ↦ ⟨done ++ paths, output ++ text⟩),
            (w', earlier ++ is)) := by
  obtain ⟨is, r, w', h⟩ := exists_installFiles_spent t sys c serial paths done output w earlier
  exact ⟨is, r, spent t c is, w', h⟩

namespace Installs

variable {t : Timer} {c : AdbConfig} {serial : String} {paths : List String}
  {is : List IssuedCommand} {r : Except DeviceError String}

theorem isPrefix_issued (h : Installs t c serial paths is r) :
    is.map IssuedCommand.command <+:
      paths.map fun path ↦ ⟨c.program, arguments serial ["install", "-r", path]⟩ := by
  induction h with
  | done => exact List.prefix_rfl
  | next hi _ _ ih =>
    rw [List.map_cons, List.map_cons, hi]
    exact (List.prefix_cons_inj _).mpr ih
  | stopped hi _ =>
    rw [List.map_cons, List.map_cons, hi]
    exact (List.prefix_cons_inj _).mpr List.nil_prefix

theorem good_of_mem_dropLast (h : Installs t c serial paths is r) :
    ∀ i ∈ is.dropLast, ∃ text, i.IsGood t c text := by
  induction h with
  | done => simp
  | @next path paths i is printed r hi h hrest ih =>
    intro j hj
    cases is with
    | nil => simp at hj
    | cons k is =>
      rw [List.dropLast_cons_cons] at hj
      rcases List.mem_cons.mp hj with rfl | hj
      · exact ⟨printed, h⟩
      · exact ih j hj
  | stopped => simp

theorem of_ok {text : String} (h : Installs t c serial paths is (.ok text)) :
    is.length = paths.length ∧ (∀ i ∈ is, ∃ text, i.IsGood t c text) ∧
      ∃ texts, List.Forall₂ (IssuedCommand.IsGood t c) is texts ∧ text = String.join texts := by
  generalize hr : Except.ok text = r at h
  induction h generalizing text with
  | done =>
    cases hr
    exact ⟨rfl, by simp, [], .nil, String.join_nil.symm⟩
  | @next path paths i is printed r hi h hrest ih =>
    cases r with
    | error e => cases hr
    | ok more =>
      cases hr
      obtain ⟨hlength, hgood, texts, htexts, hmore⟩ := ih rfl
      refine ⟨by rw [List.length_cons, List.length_cons, hlength], ?_, printed :: texts,
        .cons h htexts, ?_⟩
      · exact List.forall_mem_cons.mpr ⟨⟨printed, h⟩, hgood⟩
      · rw [hmore, String.join_cons]
  | stopped => cases hr

/-- An install that fails does so with the last command that it has issued. -/
theorem of_error {e : DeviceError} (h : Installs t c serial paths is (.error e)) :
    ∃ last, is.getLast? = some last ∧ last.GoesWrong t c e := by
  generalize hr : Except.error e = r at h
  induction h generalizing e with
  | done => cases hr
  | @next path paths i is printed r hi h hrest ih =>
    cases r with
    | ok more => cases hr
    | error e' =>
      cases hr
      obtain ⟨last, hlast, hwrong⟩ := ih rfl
      refine ⟨last, ?_, hwrong⟩
      rw [List.getLast?_cons, hlast, Option.getD_some]
  | @stopped path paths i e' hi h =>
    cases hr
    exact ⟨i, rfl, h⟩

end Installs

end Adb

namespace AdbConfig

/-- The packages that an install places: the application, and the launcher if it is wanted, each out
of the directory of the configuration. -/
def packages (c : AdbConfig) (release launcher : Bool) : List String :=
  let directory := Path.join c.apkDir (if release then "Release" else "Debug")
  Path.join directory c.apkName :: if launcher then [Path.join directory c.launcherApkName] else []

theorem installPaths_eq_packages (c : AdbConfig) (release launcher : Bool) :
    c.installPaths release launcher = c.packages release launcher := by
  cases release <;> rfl

/-- A package lies in the directory of the configuration, unless its name is an absolute path. -/
theorem segments_of_mem_packages {c : AdbConfig} {release launcher : Bool} {path : String}
    (hdirectory : c.apkDir ≠ "") (hapk : Path.isAbsolute c.apkName = false)
    (hlauncher : Path.isAbsolute c.launcherApkName = false)
    (h : path ∈ c.packages release launcher) :
    ∃ file, (file = c.apkName ∨ launcher = true ∧ file = c.launcherApkName) ∧
      Path.segments path = Path.segments c.apkDir ++
        (if release then "Release" else "Debug") :: (Path.segments file).filter (· ≠ ".") := by
  have hjoined : ∀ {file}, Path.isAbsolute file = false →
      Path.segments (Path.join (Path.join c.apkDir (if release then "Release" else "Debug")) file) =
        Path.segments c.apkDir ++
          (if release then "Release" else "Debug") :: (Path.segments file).filter (· ≠ ".") := by
    intro file hfile
    rw [Path.segments_join (Path.join_ne_empty hdirectory _) hfile,
      Path.segments_join hdirectory (by cases release <;> rfl), List.append_assoc]
    cases release <;> rfl
  rw [packages] at h
  rcases List.mem_cons.mp h with rfl | h
  · exact ⟨_, .inl rfl, hjoined hapk⟩
  · cases launcher with
    | false => cases h
    | true =>
      cases List.mem_singleton.mp h
      exact ⟨_, .inr ⟨rfl, rfl⟩, hjoined hlauncher⟩

def installCommands (c : AdbConfig) (serial : String) (release launcher : Bool) :
    List ProcessCommand :=
  (c.packages release launcher).map fun path ↦
    ⟨c.adbPath.getD "adb", ["-s", serial, "install", "-r", path]⟩

/-- What an install answers, by the commands that it has issued. -/
structure InstallsBy (t : Timer) (c : AdbConfig) (serial : String) (release launcher : Bool)
    (issued : List IssuedCommand) (answer : Except DeviceError InstallReport) : Prop where
  /-- The commands are those that are required, up to some point. -/
  inOrder : issued.map IssuedCommand.command <+: c.installCommands serial release launcher
  /-- After a command that is not good, no other one is issued. -/
  earlier : ∀ i ∈ issued.dropLast, ∃ text, i.IsGood t c text
  /-- The install is completed if all commands that are required are issued and good. -/
  ok_iff : (∃ report, answer = .ok report) ↔
    issued.map IssuedCommand.command = c.installCommands serial release launcher ∧
      ∀ i ∈ issued, ∃ text, i.IsGood t c text
  /-- What has been placed and printed is reported in the order of the commands. -/
  report : ∀ report, answer = .ok report → report.packages = c.packages release launcher ∧
    ∃ texts, List.Forall₂ (IssuedCommand.IsGood t c) issued texts ∧
      report.output = String.join texts
  /-- What went wrong is told of the last command, which is the first one that is not good. -/
  error : ∀ e, answer = .error e → ∃ last, issued.getLast? = some last ∧ last.GoesWrong t c e

/-- What asking for a device answers, by the command that it has issued. -/
structure ReachesBy (t : Timer) (c : AdbConfig) (serial : String) (i : IssuedCommand)
    (answer : Except DeviceError Bool) : Prop where
  command : i.command = ⟨c.adbPath.getD "adb", ["-s", serial, "get-state"]⟩
  ready : answer = .ok true ↔ ∃ text, i.Prints t c text ∧ Text.trim text = "device"
  /-- Another state is no error, and neither is a program that ends badly. -/
  notReady : answer = .ok false ↔ (∃ text, i.Prints t c text ∧ Text.trim text ≠ "device") ∨
    ∃ code stderr, i.Fails t c (.commandFailed code stderr)
  error : ∀ e, answer = .error e ↔
    i.Fails t c e ∧ ∀ code stderr, e ≠ .commandFailed code stderr

variable {t : Timer} {c : AdbConfig} {serial : String} {release launcher : Bool}
  {issued : List IssuedCommand}

theorem installsBy_of_installs {r : Except DeviceError String}
    (h : Adb.Installs t c serial (c.packages release launcher) issued r) :
    c.InstallsBy t serial release launcher issued
      (r.map fun text ↦ ⟨c.packages release launcher, text⟩) := by
  have hinOrder : issued.map IssuedCommand.command <+: c.installCommands serial release launcher :=
    h.isPrefix_issued
  refine ⟨hinOrder, h.good_of_mem_dropLast, ?_, ?_, ?_⟩
  case refine_1 =>
    cases r with
    | ok text =>
      obtain ⟨hlength, hgood, -⟩ := h.of_ok
      have hall : issued.map IssuedCommand.command = c.installCommands serial release launcher := by
        refine hinOrder.eq_of_length ?_
        rw [List.length_map, installCommands, List.length_map, hlength]
      exact ⟨fun _ ↦ ⟨hall, hgood⟩, fun _ ↦ ⟨_, rfl⟩⟩
    | error e =>
      obtain ⟨last, hlast, hwrong⟩ := h.of_error
      constructor
      · rintro ⟨report, hreport⟩
        cases hreport
      · rintro ⟨-, hgood⟩
        obtain ⟨text, htext⟩ := hgood last (List.mem_of_getLast? hlast)
        exact absurd htext (hwrong.not_isGood text)
  case refine_2 =>
    intro report hreport
    cases r with
    | error e => cases hreport
    | ok text =>
      cases hreport
      exact ⟨rfl, h.of_ok.2.2⟩
  case refine_3 =>
    intro e he
    cases r with
    | ok text => cases he
    | error e' =>
      cases he
      exact h.of_error

variable {i : IssuedCommand}

theorem reachesBy_readiness (hi : i.command = ⟨c.program, Adb.arguments serial ["get-state"]⟩) :
    c.ReachesBy t serial i (Adb.readiness ((Adb.resultOf c (i.answer t c)).map Text.trim)) := by
  rcases i.prints_or_fails t c with ⟨text, h⟩ | ⟨e, h⟩
  · have hprints : ∀ text', i.Prints t c text' ↔ text' = text := fun _ ↦ h.iff_eq
    have hfails : ∀ e, ¬ i.Fails t c e := fun e he ↦ he.not_prints text h
    rw [IssuedCommand.resultOf_of_prints h, Except.map, Adb.readiness]
    refine ⟨hi, ?_, ?_, ?_⟩ <;> simp [hprints, hfails]
  · have hprints := h.not_prints
    have hfails : ∀ e', i.Fails t c e' ↔ e' = e := fun _ ↦ h.iff_eq
    rw [IssuedCommand.resultOf_of_fails h, Except.map]
    by_cases hended : ∃ code stderr, e = .commandFailed code stderr
    · obtain ⟨code, stderr, rfl⟩ := hended
      rw [Adb.readiness]
      refine ⟨hi, ?_, ?_, ?_⟩ <;> simp [hprints, hfails]
    · have herror : Adb.readiness (.error e) = .error e := by
        cases e with
        | commandFailed code stderr => exact absurd ⟨code, stderr, rfl⟩ hended
        | spawn | rejected | timeout | decode => rfl
      rw [herror]
      refine ⟨hi, by simp [hprints], ?_, ?_⟩
      · simp only [hprints, hfails, false_and, exists_false, false_or, reduceCtorEq, false_iff]
        rintro ⟨code, stderr, he⟩
        exact hended ⟨code, stderr, he.symm⟩
      · intro e'
        rw [hfails, Except.error.injEq]
        constructor
        · rintro rfl
          exact ⟨rfl, fun code stderr he ↦ hended ⟨code, stderr, he⟩⟩
        · exact fun he ↦ he.1.symm

end AdbConfig

/-- However the system replies to its commands, the bridge always answers, and its answers go by the
commands that it has issued. -/
theorem Adb.bridge_answers (t : Timer) (sys : ProcessSystem σ) (c : AdbConfig) (serial : String)
    (w : σ) :
    (∀ release launcher, ∃ issued answer delay w',
      (bridge t sys c).install serial release launcher w = (.after delay answer, w') ∧
        (bridge t sys.recording c).install serial release launcher (w, []) =
          (.after delay answer, (w', issued)) ∧
        c.InstallsBy t serial release launcher issued answer) ∧
      ∃ i answer delay w',
        (bridge t sys c).isReachable serial w = (.after delay answer, w') ∧
          (bridge t sys.recording c).isReachable serial (w, []) =
            (.after delay answer, (w', [i])) ∧
          c.ReachesBy t serial i answer := by
  have hfollows := bridge_recording_follows t sys c
  constructor
  · intro release launcher
    obtain ⟨issued, r, delay, w', hinstalls, hrun⟩ :=
      exists_installFiles t sys c serial (c.packages release launcher) [] "" w []
    have hinstall : (bridge t sys.recording c).install serial release launcher (w, []) =
        (.after delay (r.map fun text ↦ ⟨c.packages release launcher, text⟩), (w', issued)) := by
      change installFiles t sys.recording c serial [] "" (c.installPaths release launcher)
        (w, []) = _
      rw [c.installPaths_eq_packages, hrun]
      simp
    have hplain := hfollows.install serial release launcher (w, [])
    rw [hinstall] at hplain
    exact ⟨issued, _, delay, w', hplain.symm, hinstall, AdbConfig.installsBy_of_installs hinstalls⟩
  · obtain ⟨i, delay, w', hi, hrun⟩ := exists_run t sys c serial ["get-state"] w []
    have hreach : (bridge t sys.recording c).isReachable serial (w, []) =
        (.after delay (readiness ((resultOf c (i.answer t c)).map Text.trim)), (w', [i])) := by
      change (((run t sys.recording c serial ["get-state"]).map _).map readiness) (w, []) = _
      simp only [Call.map, hrun]
      rfl
    have hplain := hfollows.isReachable serial (w, [])
    rw [hreach] at hplain
    exact ⟨i, _, delay, w', hplain.symm, hreach, AdbConfig.reachesBy_readiness hi⟩

/-- A system with a device that is ready, and on which an install fails if it is one of the
launcher: the message has a byte in it that is no character. -/
def Adb.withoutLauncher : ProcessSystem Unit := fun _ arguments w ↦
  if arguments.contains "get-state" then
    (.now (.ok ⟨.exited 0, Text.Utf8.encode "device\r\n", []⟩), w)
  else if arguments.contains "/builds/Release/launcher.apk" then
    let stderr := Text.Utf8.encode "no file " ++ 0xFF :: Text.Utf8.encode ".apk\n"
    (.now (.ok ⟨.exited 1, [], stderr⟩), w)
  else (.now (.ok ⟨.exited 0, Text.Utf8.encode "Success\n", []⟩), w)

/-- On that system the application is placed and the launcher is not, so the install has failed. -/
theorem Adb.bridge_answers_without_launcher :
    (∃ issued,
      issued.map IssuedCommand.command =
          [⟨"adb", ["-s", "a", "install", "-r", "/builds/Release/app.apk"]⟩,
            ⟨"adb", ["-s", "a", "install", "-r", "/builds/Release/launcher.apk"]⟩] ∧
        AdbConfig.InstallsBy .ticking { apkDir := "/builds/" } "a" true true issued
          (.error (.commandFailed 1 "no file \uFFFD.apk"))) ∧
      ∃ i, AdbConfig.ReachesBy .ticking { apkDir := "/builds/" } "a" i (.ok true) := by
  let b := bridge .ticking withoutLauncher { apkDir := "/builds/" }
  let b' := bridge .ticking withoutLauncher.recording { apkDir := "/builds/" }
  obtain ⟨hinstalls, i, _, _, _, hreach, -, hreaches⟩ :=
    bridge_answers .ticking withoutLauncher { apkDir := "/builds/" } "a" ()
  obtain ⟨issued, _, _, _, hinstall, hrecord, hinstallsBy⟩ := hinstalls true true
  constructor
  · have hanswer : (b.install "a" true true ()).1 =
        .after ⟨0⟩ (.error (.commandFailed 1 "no file \uFFFD.apk")) := by decide
    have hissued : (b'.install "a" true true ((), [])).2.2.map IssuedCommand.command =
        [⟨"adb", ["-s", "a", "install", "-r", "/builds/Release/app.apk"]⟩,
          ⟨"adb", ["-s", "a", "install", "-r", "/builds/Release/launcher.apk"]⟩] := by decide
    rw [hinstall] at hanswer
    rw [hrecord] at hissued
    cases hanswer
    exact ⟨issued, hissued, hinstallsBy⟩
  · have hready : (b.isReachable "a" ()).1 = .after ⟨0⟩ (.ok true) := by decide
    rw [hreach] at hready
    cases hready
    exact ⟨i, hreaches⟩

end BuildFleet
