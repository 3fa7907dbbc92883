import ContainerAudit.Proofs.Audit.Sources

/-!
# Audits of files apart

Files do not influence each other.  Lists of sources without a common path may be audited apart and
their reports merged (`report_append`): nothing that counts as one, and nothing that ties, is
reported on both sides.

A file that does not parse is the case of this in which one side has a single source.  It is
reported once, and the rest of the report is that on the other files.
-/

namespace ContainerAudit

/-- What bears the paths of manifests apart is itself apart. -/
theorem file_ne_of_bear {α : Type} {file : α → String} {l l' : List α} {ms ns : List Manifest}
    (hapart : ∀ m ∈ ms, ∀ n ∈ ns, m.path ≠ n.path) (hl : ∀ a ∈ l, ∃ m ∈ ms, file a = m.path)
    (hl' : ∀ a ∈ l', ∃ n ∈ ns, file a = n.path) : ∀ a ∈ l, ∀ b ∈ l', file a ≠ file b := by
  intro a ha b hb
  obtain ⟨m, hm, ham⟩ := hl a ha
  obtain ⟨n, hn, hbn⟩ := hl' b hb
  rw [ham, hbn]
  exact hapart m hm n hn

namespace Audit

/-- No source of one list has the path of a source of the other. -/
def Apart (sources sources' : List Source) : Prop :=
  ∀ s ∈ sources, ∀ t ∈ sources', s.path ≠ t.path

instance (sources sources' : List Source) : Decidable (Apart sources sources') :=
  inferInstanceAs (Decidable (∀ s ∈ sources, ∀ t ∈ sources', s.path ≠ t.path))

section Apart

variable {sources sources' : List Source}

theorem OneText.append (h : OneText sources) (h' : OneText sources')
    (hapart : Apart sources sources') : OneText (sources ++ sources') := by
  intro s hs t ht hpath
  rcases List.mem_append.mp hs with hs | hs <;> rcases List.mem_append.mp ht with ht | ht
  · exact h s hs t ht hpath
  · exact absurd hpath (hapart s hs t ht)
  · exact absurd hpath.symm (hapart t ht s hs)
  · exact h' s hs t ht hpath

theorem Apart.manifests (hapart : Apart sources sources') :
    ∀ m ∈ (readings sources).manifests, ∀ n ∈ (readings sources').manifests,
      m.path ≠ n.path := by
  intro m hm n hn
  obtain ⟨s, hs, hsm⟩ := List.mem_filterMap.mp hm
  obtain ⟨t, ht, htn⟩ := List.mem_filterMap.mp hn
  rw [Source.path_of_manifest? hsm, Source.path_of_manifest? htn]
  exact hapart s hs t ht

theorem Apart.failures (hapart : Apart sources sources') :
    ∀ f ∈ (readings sources).failures, ∀ g ∈ (readings sources').failures, f.path ≠ g.path := by
  intro f hf g hg
  obtain ⟨s, hs, hsf⟩ := List.mem_filterMap.mp hf
  obtain ⟨t, ht, htg⟩ := List.mem_filterMap.mp hg
  rw [Source.path_of_failure? hsf, Source.path_of_failure? htg]
  exact hapart s hs t ht

theorem readings_append (sources sources' : List Source) :
    readings (sources ++ sources') =
      ⟨(readings sources).manifests ++ (readings sources').manifests,
        (readings sources).failures ++ (readings sources').failures⟩ := by
  simp only [readings, List.filterMap_append]

theorem reportOn_append (registry : Registry) (config : Config)
    (h : OneText (sources ++ sources')) (hapart : Apart sources sources') :
    reportOn registry config (sources ++ sources') =
      (reportOn registry config sources).merge (reportOn registry config sources') := by
  have hfailures := h.untied_failures
  have hruns := untied_run_failures registry config.patterns config.suppressed h.onePerPath
  rw [readings_append] at hfailures hruns
  rw [run_append] at hruns
  obtain ⟨hfindings, hchecks, hrules⟩ :=
    run_file registry config.patterns config.suppressed (readings sources).manifests
  obtain ⟨hfindings', hchecks', hrules'⟩ :=
    run_file registry config.patterns config.suppressed (readings sources').manifests
  rw [reportOn, readings_append, run_append]
  exact Report.aggregate_append
    (file_ne_of_bear hapart.manifests hfindings hfindings')
    (file_ne_of_bear hapart.manifests hchecks hchecks')
    hapart.failures hfailures
    (file_ne_of_bear hapart.manifests hrules hrules') hruns

end Apart

/-! ## Files that do not parse -/

section Failing

variable {sources : List Source} {s : Source} {failure : ParseFailure}

-- The lemmas below need no more of a parser than its result.
attribute [local irreducible] Manifest.parse

theorem reportOn_failing (registry : Registry) (config : Config)
    (hparse : Manifest.parse s.path s.text = .error (.parse failure)) :
    reportOn registry config [s] = { parseFailures := [failure] } := by
  have hreadings : readings [s] = ⟨[], [failure]⟩ := by
    simp only [readings, List.filterMap_cons, Source.manifest?, Source.failure?, hparse]
    rfl
  rw [reportOn, hreadings]
  exact Report.aggregate_failure failure

theorem mem_parseFailures_reportOn {registry : Registry} {config : Config} {f : ParseFailure} :
    f ∈ (reportOn registry config sources).parseFailures ↔ ∃ s ∈ sources, s.failure? = some f := by
  rw [reportOn, Run.report, Report.aggregate, mem_sortBy, mem_distinct]
  exact List.mem_filterMap

/-- The sources are the one of a path and those of other paths. -/
theorem OneText.mem_iff (h : OneText sources) (hs : s ∈ sources) (t : Source) :
    t ∈ sources ↔ t ∈ [s] ++ sources.filter (·.path != s.path) := by
  rw [List.singleton_append, List.mem_cons, List.mem_filter, bne_iff_ne]
  constructor
  · intro ht
    by_cases hpath : t.path = s.path
    · exact .inl (h.eq ht hs hpath)
    · exact .inr ⟨ht, hpath⟩
  · rintro (rfl | ⟨ht, -⟩)
    · exact hs
    · exact ht

theorem path_ne_of_mem_filter {t : Source} (ht : t ∈ sources.filter (·.path != s.path)) :
    t.path ≠ s.path :=
  bne_iff_ne.mp (List.mem_filter.mp ht).2

/-- The report on sources one of which fails: that on the others, with the failure. -/
theorem reportOn_of_mem_failing (registry : Registry) (config : Config) (h : OneText sources)
    (hs : s ∈ sources) (hparse : Manifest.parse s.path s.text = .error (.parse failure)) :
    let r := reportOn registry config (sources.filter (·.path != s.path))
    reportOn registry config sources =
      { r with parseFailures := sortBy ParseFailure.order (failure :: r.parseFailures) } := by
  have hsame := h.mem_iff hs
  have htexts := h.of_subset fun t ht => (hsame t).mpr ht
  have hapart : Apart [s] (sources.filter (·.path != s.path)) := by
    intro a ha t ht
    rw [List.mem_singleton.mp ha]
    exact (path_ne_of_mem_filter ht).symm
  rw [reportOn_congr registry config hsame h, reportOn_append registry config htexts hapart,
    reportOn_failing registry config hparse]
  exact Report.merge_failure failure _ _ _ _

end Failing

/-- **Files are audited independently.**  Sources without a common path may be audited apart.  In
particular, a file that does not parse is reported once, and nothing else changes: the rest is the
report on the other files. -/
theorem report_append (registry : Registry) (config : Config) :
    (∀ {sources sources' : List Source} {r r' : Report},
      OneText sources → OneText sources' → Apart sources sources' →
      report registry config sources = .ok r → report registry config sources' = .ok r' →
        report registry config (sources ++ sources') = .ok (r.merge r')) ∧
    (∀ {sources : List Source} {s : Source} {failure : ParseFailure} {r : Report},
      OneText sources → s ∈ sources →
      Manifest.parse s.path s.text = .error (.parse failure) →
      report registry config (sources.filter (·.path != s.path)) = .ok r →
        failure.path = s.path ∧ (∀ f ∈ r.parseFailures, f.path ≠ s.path) ∧
        report registry config sources =
          .ok { r with
            parseFailures := sortBy ParseFailure.order (failure :: r.parseFailures) }) := by
  refine ⟨?_, ?_⟩
  · intro sources sources' r r' h h' hapart hr hr'
    obtain ⟨hknown, hreadable, rfl⟩ := report_eq_ok_iff.mp hr
    obtain ⟨-, hreadable', rfl⟩ := report_eq_ok_iff.mp hr'
    refine report_eq_ok_iff.mpr ⟨hknown, List.forall_mem_append.mpr ⟨hreadable, hreadable'⟩, ?_⟩
    exact (reportOn_append registry config (h.append h' hapart) hapart).symm
  · intro sources s failure r h hs hparse hr
    obtain ⟨hknown, hreadable, rfl⟩ := report_eq_ok_iff.mp hr
    have hreadable' : s.Readable := by simp [Source.Readable, hparse]
    refine ⟨Source.path_of_failure? (Source.failure?_eq_some.mpr hparse), ?_, ?_⟩
    · intro f hf
      obtain ⟨t, ht, htf⟩ := mem_parseFailures_reportOn.mp hf
      rw [Source.path_of_failure? htf]
      exact path_ne_of_mem_filter ht
    · refine report_eq_ok_iff.mpr
        ⟨hknown, ?_, (reportOn_of_mem_failing registry config h hs hparse).symm⟩
      intro t ht
      rcases List.mem_append.mp ((h.mem_iff hs t).mp ht) with ht | ht
      · rwa [List.mem_singleton.mp ht]
      · exact hreadable t ht

/-- A file that parses is audited beside one that does not, which is given once and twice. -/
theorem report_append_failing :
    let good : Source := ⟨"web/Dockerfile", "FROM debian\nUSER root\n"⟩
    let bad : Source := ⟨"Dockerfile", "FROM debian\nRUN <<END\n"⟩
    let failure : ParseFailure := ⟨"Dockerfile", some 2, "unterminated heredoc <<END"⟩
    ∃ r r', report .standard {} [good] = .ok r ∧ report .standard {} [bad] = .ok r' ∧
      report .standard {} [good, bad] = .ok (r.merge r') ∧
      report .standard {} [bad, good, bad] =
        .ok { r with parseFailures := sortBy ParseFailure.order (failure :: r.parseFailures) } := by
  intro good bad failure
  have hknown : unknownRules .standard ({} : Config).suppressed = [] := by decide
  have hgood : report .standard {} [good] = .ok (reportOn .standard {} [good]) :=
    report_eq_ok_iff.mpr ⟨hknown, by decide, rfl⟩
  have hbad : report .standard {} [bad] = .ok (reportOn .standard {} [bad]) :=
    report_eq_ok_iff.mpr ⟨hknown, by decide, rfl⟩
  have hother : [bad, good, bad].filter (·.path != bad.path) = [good] := by decide
  have hparse : Manifest.parse bad.path bad.text = .error (.parse failure) :=
    Source.failure?_eq_some.mp (by decide)
  obtain ⟨hmerge, hfailing⟩ := report_append .standard {}
  have hboth := hmerge (by decide) (by decide) (by decide) hgood hbad
  have hrest := hfailing (by decide) List.mem_cons_self hparse (hother ▸ hgood)
  exact ⟨_, _, hgood, hbad, hboth, hrest.2.2⟩

end Audit

end ContainerAudit
