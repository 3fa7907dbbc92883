import ContainerAudit.Proofs.Audit.Displacement
import ContainerAudit.Proofs.Rule.Anchoring

/-!
# The findings on a Dockerfile

Findings of one rule in one file on one line count as one.  On a Dockerfile this never happens,
since a rule reports no instruction twice and no two instructions start on one line: every match is
in the report, and nothing else is (`report_has_every_match`).
-/

namespace ContainerAudit

open ContainerAudit.Dockerfile (Document)

section Parsed

variable {text : String} {d : Document} (hparse : Dockerfile.parse text = .ok d)

include hparse

/-- On a document that was read, a rule gives matches that stand at its instructions. -/
theorem Rule.check_anchored {rule : Rule} (hrule : rule ∈ Registry.standard.ofKind .dockerfile)
    (path : String) (p : Patterns) :
    ∃ found, rule.check ⟨path, .dockerfile d⟩ p = .ok found ∧
      Rule.Anchored d.instructions found := by
  obtain ⟨f, hcheck, hanchors⟩ := Rule.anchors_of_mem_ofKind hrule
  refine ⟨f d p, ?_, hanchors d p (Dockerfile.parse_wellStaged hparse)⟩
  rw [hcheck]
  rfl

theorem Rule.found_anchored {rule : Rule} (hrule : rule ∈ Registry.standard.ofKind .dockerfile)
    (path : String) (p : Patterns) :
    Rule.Anchored d.instructions (rule.found p ⟨path, .dockerfile d⟩) := by
  obtain ⟨found, hcheck, hanchored⟩ := Rule.check_anchored hparse hrule path p
  rwa [Rule.found_of_check hcheck]

theorem findings_report_dockerfile {path : String}
    (hkind : Kind.ofPath (.ofText path) = .dockerfile) {config : Config}
    (hknown : Audit.unknownRules .standard config.suppressed = []) :
    ∃ r, Audit.report .standard config [⟨path, text⟩] = .ok r ∧
      r.findings = sortBy Finding.order (Registry.standard.run config.patterns config.suppressed
        [⟨path, .dockerfile d⟩]).findings := by
  obtain ⟨r, hr, hfindings⟩ :=
    Audit.report_single (Manifest.parse_dockerfile_ok hkind hparse) hknown
  refine ⟨r, hr, ?_⟩
  rw [hfindings, distinctBy_of_nodup]
  refine nodup_key_run_single _ _ _ _ fun rule hrule => ?_
  have hanchored := Rule.found_anchored hparse (List.mem_of_mem_filter hrule) path config.patterns
  exact (hanchored.pairwise_line (Dockerfile.parse_pairwise_line hparse)).imp Int.ne_of_lt

end Parsed

/-- **Every match is reported.**  On a Dockerfile that can be read, the matches of each rule stand
at instructions, on lines that increase.  So the report on the file has one finding for each match
of each rule that is not suppressed and no other, and every finding is on a line of the file. -/
theorem Audit.report_has_every_match {text : String} {d : Document}
    (hparse : Dockerfile.parse text = .ok d) (path : String) :
    (∀ rule ∈ Registry.standard.ofKind .dockerfile, ∀ p, ∃ found,
      rule.check ⟨path, .dockerfile d⟩ p = .ok found ∧
      (found.map (·.line)).Pairwise (· < ·) ∧
      ∀ m ∈ found, ∃ i ∈ d.instructions, m.line = i.line ∧ m.text = i.text) ∧
    (Kind.ofPath (.ofText path) = .dockerfile →
      ∀ config : Config, unknownRules .standard config.suppressed = [] →
      ∃ r, report .standard config [⟨path, text⟩] = .ok r ∧
        r.findings.Perm
          (((Registry.standard.ofKind .dockerfile).filter fun rule =>
              !config.suppressed.contains rule.id).flatMap fun rule =>
            (rule.found config.patterns ⟨path, .dockerfile d⟩).map (Finding.ofMatch rule path)) ∧
        ∀ f ∈ r.findings, 1 ≤ f.line ∧ f.line ≤ (Text.lines text.toList).length) := by
  constructor
  · intro rule hrule p
    obtain ⟨found, hcheck, hanchored⟩ := Rule.check_anchored hparse hrule path p
    exact ⟨found, hcheck, hanchored.pairwise_line (Dockerfile.parse_pairwise_line hparse),
      hanchored.exists_instruction⟩
  · intro hkind config hknown
    obtain ⟨r, hr, hfindings⟩ := findings_report_dockerfile hparse hkind hknown
    rw [findings_run_single] at hfindings
    refine ⟨r, hr, hfindings ▸ sortBy_perm _, ?_⟩
    intro f hf
    rw [hfindings, mem_sortBy] at hf
    obtain ⟨rule, hrule, hf⟩ := List.mem_flatMap.mp hf
    obtain ⟨m, hm, rfl⟩ := List.mem_map.mp hf
    have hanchored := Rule.found_anchored hparse (List.mem_of_mem_filter hrule) path config.patterns
    obtain ⟨i, hi, hline, -⟩ := hanchored.exists_instruction m hm
    obtain ⟨hlow, hhigh⟩ := Dockerfile.parse_line_bounds hparse i hi
    have hfinding : (Finding.ofMatch rule path m).line = i.line := hline
    rw [hfinding]
    omega

/-- Two secret files are copied and removed by one command, and two ports are exposed by one
instruction: each is one match.  Two rules report line 7, and both findings stay. -/
theorem Audit.report_has_every_match_on_shared_line :
    let text := "FROM node AS build\nCOPY .env id_rsa ./\nRUN rm .env \\\n  id_rsa\nRUN make\n" ++
      "FROM scratch\nEXPOSE 22 23\nCMD run\n"
    ∃ r, report .standard {} [⟨"Dockerfile", text⟩] = .ok r ∧
      (r.findings.map fun f => (f.rule, f.line)).Perm [("SEC-002", 6), ("SEC-006", 8),
        ("SEC-009", 7), ("SEC-010", 2), ("OPT-001", 1), ("OPT-008", 5), ("OPT-010", 7)] ∧
      ∀ f ∈ r.findings, 1 ≤ f.line ∧ f.line ≤ 8 := by
  intro text
  have hparse : Dockerfile.parse text = .ok ⟨[⟨"FROM", "node AS build", 1, 0⟩,
      ⟨"COPY", ".env id_rsa ./", 2, 0⟩, ⟨"RUN", "rm .env id_rsa", 3, 0⟩, ⟨"RUN", "make", 5, 0⟩,
      ⟨"FROM", "scratch", 6, 1⟩, ⟨"EXPOSE", "22 23", 7, 1⟩, ⟨"CMD", "run", 8, 1⟩], 2⟩ := by
    decide +kernel
  have hcount : (Text.lines text.toList).length = 8 := by decide +kernel
  obtain ⟨-, hreport⟩ := report_has_every_match hparse "Dockerfile"
  obtain ⟨r, hr, hperm, hlines⟩ := hreport (by decide) {} rfl
  rw [hcount] at hlines
  refine ⟨r, hr, (hperm.map fun f => (f.rule, f.line)).trans (.of_eq ?_), hlines⟩
  decide +kernel

end ContainerAudit
