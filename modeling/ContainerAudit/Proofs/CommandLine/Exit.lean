import ContainerAudit.CommandLine.Run
import ContainerAudit.Proofs.Audit.Anchoring
import ContainerAudit.Proofs.Report.Canonical
import ContainerAudit.Proofs.Workspace

/-!
# How a run ends

A run that is refused ends with exit code two and leaves no trace but its complaint; any other run
that comes to an end has delivered a report, and its exit code says whether a finding reaches the
threshold (`run_exits`).  There is no third way to come to an end, and the two do not mix: all that
can refuse a run comes before anything is written.
-/

namespace ContainerAudit

namespace CommandLine

/-- A run is refused: a path that it names is not there, or there is a message why its configuration
cannot be loaded or why it cannot be audited. -/
inductive Refused (r : Request) (w : Workspace) : Prop
  | path {path : String} (hpath : path ∈ r.paths) (hmissing : w.has (.ofText path) = false)
  | config {e : Config.LoadError} {message : String}
      (hload : Config.load w r.configPath? = .error e) (hmessage : e.text? = some message)
  | audit {config : Config} {e : Audit.Error} {message : String}
      (hload : Config.load w r.configPath? = .ok config)
      (haudit : Audit.report .standard (config.suppress r.suppressedIds) (r.sources w) = .error e)
      (hmessage : e.text? = some message)

/-- What a run leaves behind that delivers a report. -/
structure Delivers (r : Request) (w : Workspace) (config : Config) (report : Report) (f : Finish) :
    Prop where
  fails : f.exitCode = 1 ↔
    ∃ x ∈ report.findings, (r.failOn.getD config.failOn).rank ≤ x.severity.rank
  passes : f.exitCode = 0 ↔
    ∀ x ∈ report.findings, x.severity.rank < (r.failOn.getD config.failOn).rank
  /-- The report goes to one place: to the output, and then no file changes, or to its file. -/
  delivered :
    r.outPath? = none ∧ f.stdout = report.render r.format config.recommendations ∧
        f.workspace = w ∨
      ∃ path, r.outPath? = some path ∧ f.stdout = "" ∧
        Workspace.Wrote w (.ofText path)
          (utf8Bytes (report.render r.format config.recommendations)) f.workspace

namespace Request

/-! ## Delivering a report -/

theorem delivers_of_deliver {r : Request} {w : Workspace} (hw : w.Grounded) {config : Config}
    {log : String} {report : Report} {f : Finish}
    (h : r.deliver w config log report = .finished f) : Delivers r w config report f := by
  unfold deliver at h
  cases hout : r.outPath? with
  | none =>
      rw [hout] at h
      cases h
      exact ⟨Report.exitCode_eq_one_iff, Report.exitCode_eq_zero_iff, .inl ⟨hout, rfl, rfl⟩⟩
  | some path =>
      rw [hout] at h
      simp only at h
      cases hwrite : w.write (.ofText path)
          (utf8Bytes (report.render r.format config.recommendations)) with
      | error e =>
          rw [hwrite] at h
          exact absurd h (by simp)
      | ok written =>
          rw [hwrite] at h
          cases h
          exact ⟨Report.exitCode_eq_one_iff, Report.exitCode_eq_zero_iff,
            .inr ⟨path, hout, rfl, Workspace.write_ok hw hwrite⟩⟩

/-- A report can be delivered unless its file cannot be written. -/
theorem exists_deliver {r : Request} {w : Workspace} {config : Config} {report : Report}
    (h : ∀ path, r.outPath? = some path → ∃ written, w.write (.ofText path)
      (utf8Bytes (report.render r.format config.recommendations)) = .ok written) (log : String) :
    ∃ f, r.deliver w config log report = .finished f := by
  unfold deliver
  cases hout : r.outPath? with
  | none => exact ⟨_, rfl⟩
  | some path =>
      obtain ⟨written, hwrite⟩ := h path hout
      simp only [hwrite]
      exact ⟨_, rfl⟩

/-! ## What comes before -/

/-- Without paths it is the directory of the run that is audited, and it is there. -/
theorem missing_eq_nil_iff {r : Request} {w : Workspace} (hw : w.Grounded) :
    Discovery.missing w r.roots = [] ↔ ∀ path ∈ r.paths, w.has (.ofText path) = true := by
  rw [Discovery.missing, List.filter_eq_nil_iff, roots]
  cases hpaths : r.paths with
  | nil => simp [hw.has_here]
  | cons path paths => simp

theorem perform_of_missing {r : Request} {w : Workspace} (hlist : r.listRules = false)
    (hmissing : Discovery.missing w r.roots ≠ []) :
    ∃ stderr, r.perform w = .finished ⟨2, "", stderr, w⟩ := by
  unfold perform
  rw [if_neg (by simp [hlist]), if_pos (by simpa using hmissing)]
  exact ⟨_, rfl⟩

section Present

variable {r : Request} {w : Workspace} (hlist : r.listRules = false)
  (hpresent : Discovery.missing w r.roots = [])
include hlist hpresent

theorem perform_of_unloaded {e : Config.LoadError}
    (hload : Config.load w r.configPath? = .error e) :
    ∃ log, r.perform w = endWith w log e.text? (.config e) := by
  unfold perform
  rw [if_neg (by simp [hlist]), if_neg (by simp [hpresent]), hload]
  exact ⟨_, rfl⟩

theorem perform_of_loaded {config : Config} (hload : Config.load w r.configPath? = .ok config) :
    r.perform w = r.audit w (config.suppress r.suppressedIds) := by
  unfold perform
  rw [if_neg (by simp [hlist]), if_neg (by simp [hpresent]), hload]

end Present

theorem audit_of_error {r : Request} {w : Workspace} {config : Config} {e : Audit.Error}
    (h : Audit.report .standard config (r.sources w) = .error e) :
    ∃ log, r.audit w config = endWith w log e.text? (.audit e) := by
  have hrun : Audit.run .standard config (r.sources w) = .error e := by
    rw [Audit.report] at h
    cases hrun : Audit.run .standard config (r.sources w) with
    | error e' =>
        rw [hrun] at h
        cases h
        rfl
    | ok run =>
        rw [hrun] at h
        exact absurd h (by simp [Except.map])
  simp only [audit, hrun]
  exact ⟨_, rfl⟩

theorem audit_of_report {r : Request} {w : Workspace} {config : Config} {report : Report}
    (h : Audit.report .standard config (r.sources w) = .ok report) :
    ∃ log, r.audit w config = r.deliver w config log report := by
  rw [Audit.report] at h
  cases hrun : Audit.run .standard config (r.sources w) with
  | error e =>
      rw [hrun] at h
      exact absurd h (by simp [Except.map])
  | ok run =>
      rw [hrun] at h
      cases h
      simp only [audit, hrun]
      exact ⟨_, rfl⟩

end Request

/-! ## Whole runs -/

theorem endWith_some (w : Workspace) (log message : String) (cause : Break) :
    ∃ stderr, endWith w log (some message) cause = .finished ⟨2, "", stderr, w⟩ :=
  ⟨_, rfl⟩

/-- A run that ends with an error for which there is no message does not come to its end. -/
theorem exists_message_of_finished {w : Workspace} {log : String} {message? : Option String}
    {cause : Break} {f : Finish} (h : endWith w log message? cause = .finished f) :
    ∃ message, message? = some message := by
  cases message? with
  | some message => exact ⟨message, rfl⟩
  | none => exact absurd h (by simp [endWith])

theorem run_of_parse {line : List String} {r : Request} (h : Request.parse line = .ok r)
    (w : Workspace) : run w line = r.perform w := by
  unfold run
  rw [h]

section Perform

variable {r : Request} {w : Workspace} (hw : w.Grounded) (hlist : r.listRules = false)
include hw hlist

theorem Refused.perform (h : Refused r w) :
    ∃ stderr, r.perform w = .finished ⟨2, "", stderr, w⟩ := by
  by_cases hmissing : Discovery.missing w r.roots = []
  · cases h with
    | path hpath hgone =>
        have hthere := (Request.missing_eq_nil_iff hw).mp hmissing _ hpath
        exact absurd (hthere.symm.trans hgone) (by decide)
    | config hload hmessage =>
        obtain ⟨log, hperform⟩ := Request.perform_of_unloaded hlist hmissing hload
        rw [hperform, hmessage]
        exact endWith_some w log _ _
    | audit hload haudit hmessage =>
        obtain ⟨log, hperform⟩ := Request.audit_of_error haudit
        rw [Request.perform_of_loaded hlist hmissing hload, hperform, hmessage]
        exact endWith_some w log _ _
  · exact Request.perform_of_missing hlist hmissing

variable (hrefused : ¬Refused r w)
include hrefused

omit hlist in
theorem missing_eq_nil_of_not_refused : Discovery.missing w r.roots = [] := by
  refine (Request.missing_eq_nil_iff hw).mpr fun path hpath => ?_
  by_contra hgone
  exact hrefused (.path hpath (Bool.eq_false_iff.mpr hgone))

/-- A run that is not refused and has a report comes down to delivering it. -/
theorem perform_of_report {config : Config} {report : Report}
    (hload : Config.load w r.configPath? = .ok config)
    (hreport : Audit.report .standard (config.suppress r.suppressedIds) (r.sources w) =
      .ok report) :
    ∃ log, r.perform w = r.deliver w (config.suppress r.suppressedIds) log report := by
  rw [Request.perform_of_loaded hlist (missing_eq_nil_of_not_refused hw hrefused) hload]
  exact Request.audit_of_report hreport

/-- A run that is not refused comes to its end by delivering a report. -/
theorem exists_delivers_of_perform {f : Finish} (h : r.perform w = .finished f) :
    ∃ config report, Config.load w r.configPath? = .ok config ∧
      Audit.report .standard (config.suppress r.suppressedIds) (r.sources w) = .ok report ∧
        Delivers r w config report f := by
  have hpresent := missing_eq_nil_of_not_refused hw hrefused
  cases hload : Config.load w r.configPath? with
  | error e =>
      obtain ⟨log, hperform⟩ := Request.perform_of_unloaded hlist hpresent hload
      obtain ⟨message, hmessage⟩ := exists_message_of_finished (hperform.symm.trans h)
      exact absurd (.config hload hmessage) hrefused
  | ok config =>
      cases hreport : Audit.report .standard (config.suppress r.suppressedIds) (r.sources w) with
      | error e =>
          obtain ⟨log, haudit⟩ := Request.audit_of_error hreport
          rw [Request.perform_of_loaded hlist hpresent hload] at h
          obtain ⟨message, hmessage⟩ := exists_message_of_finished (haudit.symm.trans h)
          exact absurd (.audit hload hreport hmessage) hrefused
      | ok report =>
          obtain ⟨log, hdeliver⟩ := perform_of_report hw hlist hrefused hload hreport
          exact ⟨config, report, rfl, hreport,
            Request.delivers_of_deliver hw (hdeliver.symm.trans h)⟩

end Perform

/-- A run that is refused ends with exit code two, prints nothing and changes no file.  Any other
run that comes to its end delivers its report, with exit code one if a finding reaches the threshold
and zero if none does; and it does come to its end if its configuration is loaded, there is a
report, and the report's file, if there is one, can be written. -/
theorem run_exits {w : Workspace} (hw : w.Grounded) {line : List String} {r : Request}
    (hparse : Request.parse line = .ok r) (hlist : r.listRules = false) :
    (Refused r w → ∃ stderr, run w line = .finished ⟨2, "", stderr, w⟩) ∧
      (¬Refused r w →
        (∀ f, run w line = .finished f →
          ∃ config report, Config.load w r.configPath? = .ok config ∧
            Audit.report .standard (config.suppress r.suppressedIds) (r.sources w) = .ok report ∧
              Delivers r w config report f) ∧
        ∀ config report, Config.load w r.configPath? = .ok config →
          Audit.report .standard (config.suppress r.suppressedIds) (r.sources w) = .ok report →
            (∀ path, r.outPath? = some path → ∃ written, w.write (.ofText path)
              (utf8Bytes (report.render r.format config.recommendations)) = .ok written) →
                ∃ f, run w line = .finished f) := by
  rw [run_of_parse hparse]
  refine ⟨Refused.perform hw hlist, fun hrefused => ⟨fun f h => ?_, ?_⟩⟩
  · exact exists_delivers_of_perform hw hlist hrefused h
  · intro config report hload hreport hwrite
    obtain ⟨log, hdeliver⟩ := perform_of_report hw hlist hrefused hload hreport
    rw [hdeliver]
    exact Request.exists_deliver hwrite log

def appDirectory : Workspace :=
  ⟨.directory [("srv", .directory [("app", .directory
    [("Dockerfile", .file ("FROM node\nCMD run\n".toList.map Char.toNat))])])], ["srv", "app"]⟩

/-- A report on it that goes to a missing directory beside it. -/
def besideRequest : Request :=
  { paths := ["Dockerfile"], out := some "../reports/audit.md", failOn := some .medium }

theorem load_besideRequest : Config.load appDirectory besideRequest.configPath? = .ok {} :=
  rfl

theorem report_besideRequest :
    ∃ report, Audit.report .standard (({} : Config).suppress besideRequest.suppressedIds)
        (besideRequest.sources appDirectory) = .ok report ∧
      ∃ x ∈ report.findings, Severity.medium.rank ≤ x.severity.rank := by
  have hconfig : ({} : Config).suppress besideRequest.suppressedIds = {} := by
    simp [Config.suppress, Request.suppressedIds, besideRequest, sortedSet, distinct, distinctBy,
      distinctFrom]
  have hsources : besideRequest.sources appDirectory =
      [⟨"Dockerfile", "FROM node\nCMD run\n"⟩] := by
    decide +kernel
  have hparse : Dockerfile.parse "FROM node\nCMD run\n" =
      .ok ⟨[⟨"FROM", "node", 1, 0⟩, ⟨"CMD", "run", 2, 0⟩], 1⟩ := by
    decide +kernel
  have hkind : Kind.ofPath (.ofText "Dockerfile") = .dockerfile := by decide
  have hknown : Audit.unknownRules .standard ({} : Config).suppressed = [] := rfl
  obtain ⟨report, hreport, hfindings⟩ := findings_report_dockerfile hparse hkind hknown
  refine ⟨report, by rw [hconfig, hsources, hreport], ?_⟩
  have hfinding : ∃ x ∈ (Registry.standard.run ({} : Config).patterns ({} : Config).suppressed
      [⟨"Dockerfile", .dockerfile ⟨[⟨"FROM", "node", 1, 0⟩, ⟨"CMD", "run", 2, 0⟩], 1⟩⟩]).findings,
      Severity.medium.rank ≤ x.severity.rank := by
    decide +kernel
  obtain ⟨x, hx, hrank⟩ := hfinding
  exact ⟨x, by rwa [hfindings, mem_sortBy], hrank⟩

theorem not_refused_besideRequest : ¬Refused besideRequest appDirectory := by
  obtain ⟨report, hreport, -⟩ := report_besideRequest
  intro h
  cases h with
  | path hpath hmissing =>
      rw [List.mem_singleton.mp hpath] at hmissing
      exact absurd hmissing (by decide)
  | config hload _ => exact absurd (load_besideRequest.symm.trans hload) (by simp)
  | audit hload haudit _ =>
      cases load_besideRequest.symm.trans hload
      exact absurd (hreport.symm.trans haudit) (by simp)

/-- A report goes to a missing directory beside that of the run: the directory is made, the
Dockerfile stays, and its findings reach the threshold.  For a file that is not there the run is
refused, and then no report is written. -/
theorem run_exits_beside_and_refused :
    (∃ f bytes, run appDirectory
        ["Dockerfile", "--out", "../reports/audit.md", "--fail-on", "medium"] = .finished f ∧
      f.exitCode = 1 ∧ f.stdout = "" ∧
      f.workspace.find? (.ofText "../reports/audit.md") = some (.file bytes) ∧
      f.workspace.tree.sight ["srv", "app", "Dockerfile"] =
        .file ("FROM node\nCMD run\n".toList.map Char.toNat)) ∧
    ∃ stderr, run appDirectory ["Containerfile", "--out", "audit.md"] =
      .finished ⟨2, "", stderr, appDirectory⟩ := by
  have hw : appDirectory.Grounded := by decide
  constructor
  · have hparse : Request.parse
        ["Dockerfile", "--out", "../reports/audit.md", "--fail-on", "medium"] =
          .ok besideRequest := by
      decide +kernel
    obtain ⟨report, hreport, hfails⟩ := report_besideRequest
    obtain ⟨hdelivers, hends⟩ := (run_exits hw hparse rfl).2 not_refused_besideRequest
    obtain ⟨f, hf⟩ := hends {} report load_besideRequest hreport fun path hpath => by
      cases hpath
      exact ⟨_, rfl⟩
    obtain ⟨config, report', hload, hreport', hdelivers⟩ := hdelivers f hf
    cases load_besideRequest.symm.trans hload
    cases hreport.symm.trans hreport'
    rcases hdelivers.delivered with ⟨hnone, _⟩ | ⟨path, hpath, hstdout, hwrote⟩
    · exact absurd hnone (by decide)
    · have hpath : "../reports/audit.md" = path := Option.some.inj hpath
      subst hpath
      refine ⟨f, _, hf, hdelivers.fails.mpr hfails, hstdout, hwrote.find?_eq, ?_⟩
      rcases hwrote.elsewhere ["srv", "app", "Dockerfile"] (by decide) with hsame | ⟨hnothing, _⟩
      · rw [hsame]
        rfl
      · exact absurd hnothing (by decide)
  · have hparse : Request.parse ["Containerfile", "--out", "audit.md"] = .ok
        { paths := ["Containerfile"], out := some "audit.md" } := by
      decide +kernel
    exact (run_exits hw hparse rfl).1 (.path List.mem_cons_self (by decide))

end CommandLine

end ContainerAudit
