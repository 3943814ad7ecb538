import BuildFleet.Proofs.KnownHosts
import BuildFleet.Proofs.PathSegments
import BuildFleet.Report

/-!
# Automation roots as they are shown

A host that is not in the table has the automation root that the registry was given as a path. The
path is kept in its segments, and shown as the segments with slashes between them. So what is shown
need not be what was given, and it is asked whether it means the same: whether it has the same
segments, and whether it leads to the same place in every tree of files.

It does for every path that does not stop at the root. The root by itself is shown as nothing at
all, which is what an empty path is shown as, and leads nowhere.
-/

namespace BuildFleet

/-! ## Lines about a host -/

namespace Host

def linesAboveRoot (h : Host) (known : Bool) : List StyledText :=
  h.headline known :: h.workerLines ++ h.copyLines ++
    [[.plain ("  IP: " ++ h.network.display)], [.plain ("  KVM: " ++ h.kvm.display)]]

/-- The automation root of a host as it is shown. -/
def rootText (h : Host) : String := (h.automationRoot.map shownRoot).getD "-"

theorem report_eq (h : Host) (known : Bool) :
    h.report known = .ofLines (h.linesAboveRoot known ++
      [[.plain ("  Automation root: " ++ h.rootText)],
       [.plain ("  Launch script: " ++ h.launchScriptPath)]]) := by
  rw [linesAboveRoot, List.append_assoc]
  rfl

theorem render_report (h : Host) (known : Bool) (look : Look) :
    (h.report known).render look =
      (StyledText.ofLines (h.linesAboveRoot known)).render look ++ "\n" ++
        ("  Automation root: " ++ h.rootText) ++ "\n" ++
          ("  Launch script: " ++ h.launchScriptPath) := by
  have habove : h.linesAboveRoot known ≠ [] := List.cons_ne_nil _ _
  have hend (s : String) : StyledText.render look [.plain s] = s := by
    rw [StyledText.render_plain]
    exact String.append_empty
  rw [report_eq, StyledText.ofLines_append habove (List.cons_ne_nil _ _),
    StyledText.ofLines_cons _ (List.cons_ne_nil _ _), StyledText.ofLines, StyledText.render_append,
    StyledText.render_plain, StyledText.render_append, hend, StyledText.render_plain, hend]
  simp only [String.append_assoc]

end Host

/-! ## What is shown against what was given -/

/-- The segments that are kept of a path and the text that they are shown as, against the path. -/
structure Path.IsShownAs (path : String) (kept : List String) (shown : String) : Prop where
  tidy : AreTidy (isAbsolute path) kept
  /-- The segments of the text are those that are kept, but for the root. -/
  segments_iff : segments shown = kept ↔ ¬ IsRoot path
  /-- The text leads where the path leads, but for the root. -/
  walk_iff : ∀ (t : FileTree) (current place : List String),
    t.walk current path = .ok place → (t.walk current shown = .ok place ↔ ¬ IsRoot path)
  /-- The root is shown as nothing. -/
  root : IsRoot path → shown = ""

theorem Path.isShownAs_segments (path : String) :
    IsShownAs path (segments path) (shownRoot (segments path)) := by
  have hempty : IsRoot path → shownRoot (segments path) = "" := fun hroot ↦
    (joined_eq_empty_iff hroot.ne_empty).mpr hroot
  constructor
  case tidy => exact areTidy_segments path
  case segments_iff => exact segments_joined_iff
  case walk_iff =>
    intro t current place h
    refine ⟨fun hshown hroot ↦ ?_, FileTree.walk_joined h⟩
    rw [hempty hroot] at hshown
    exact (FileTree.walk_eq_ok_iff.mp hshown).2.1 rfl
  case root => exact hempty

/-- The automation root of a host that is not in the table is kept in tidy segments, and shown as a
path that means the one that was given, unless that is the root. Nothing else of what is shown of
the host depends on it. -/
theorem Registry.shown_root_leads_back {r : Registry} {hostname : String}
    (h : r.isKnown hostname = false) (known : Bool) (look : Look) :
    ∃ above below : String, ∀ root : String, ∃ kept shown,
      ((r.withLocalRoot root).resolve hostname).automationRoot = some kept ∧
        (((r.withLocalRoot root).resolve hostname).report known).render look =
          above ++ "\n" ++ ("  Automation root: " ++ shown) ++ "\n" ++ below ∧
        Path.IsShownAs root kept shown := by
  refine ⟨(StyledText.ofLines ((r.resolve hostname).linesAboveRoot known)).render look,
    "  Launch script: " ++ (r.resolve hostname).launchScriptPath, fun root ↦ ?_⟩
  have hresolve : (r.withLocalRoot root).resolve hostname =
      { r.resolve hostname with automationRoot := some (Path.segments root) } := by
    rw [r.resolve_withLocalRoot, h]
    rfl
  rw [hresolve]
  exact ⟨Path.segments root, shownRoot (Path.segments root), rfl, Host.render_report _ known look,
    Path.isShownAs_segments root⟩

/-- A path with slashes and dots that say nothing is shown as one that has the same segments and
leads to the same directory. -/
theorem Registry.shown_root_leads_back_of_untidy :
    (HostTable.twoHosts.registryFor "/" "/" .unix).isKnown "box" = false ∧
      (⟨[], [["home", "bot"]]⟩ : FileTree).walk [] "//home/./bot/" = .ok ["home", "bot"] ∧
      ∃ above below shown,
        ((((HostTable.twoHosts.registryFor "/" "/" .unix).withLocalRoot "//home/./bot/").resolve
          "box").report false).render {} =
            above ++ "\n" ++ ("  Automation root: " ++ shown) ++ "\n" ++ below ∧
        Path.segments shown = ["", "home", "bot"] ∧
        (⟨[], [["home", "bot"]]⟩ : FileTree).walk [] shown = .ok ["home", "bot"] := by
  have hunknown : (HostTable.twoHosts.registryFor "/" "/" .unix).isKnown "box" = false := by decide
  have hwalk : (⟨[], [["home", "bot"]]⟩ : FileTree).walk [] "//home/./bot/" =
      .ok ["home", "bot"] := by decide
  have hroot : ¬ Path.IsRoot "//home/./bot/" := by
    intro hroot
    exact absurd (hroot.bare ['b', 'o', 't'] (by decide)) (by decide)
  obtain ⟨above, below, hroots⟩ := Registry.shown_root_leads_back hunknown false {}
  obtain ⟨kept, shown, hkept, hreport, hshown⟩ := hroots "//home/./bot/"
  have hsegments : kept = ["", "home", "bot"] := by
    rw [Registry.resolve_withLocalRoot, hunknown] at hkept
    exact (Option.some.inj hkept).symm
  refine ⟨hunknown, hwalk, above, below, shown, hreport, ?_, ?_⟩
  · rw [hshown.segments_iff.mpr hroot, hsegments]
  · exact (hshown.walk_iff _ _ _ hwalk).mpr hroot

/-- The root is kept as one segment and shown as nothing, which has none. -/
theorem Registry.not_shown_root_leads_back_to_root :
    ¬ ∀ (root : String) (kept : List String),
      (((default : Registry).withLocalRoot root).resolve "box").automationRoot = some kept →
        Path.segments (((default : Registry).withLocalRoot root).resolve "box").rootText =
          kept := by
  intro h
  have hroot := h "/" [""] (by decide)
  revert hroot
  decide

end BuildFleet
