import ContainerAudit.Audit
import ContainerAudit.Proofs.Report.Evaluation

/-!
# Audits of sets of sources

A report says nothing about the order in which sources were given or how often.  If no two sources
give one path different texts, lists with the same sources in them get the same report
(`report_eq_of_same_sources`).

Without the condition this fails: of two findings that count as one the first is kept, and two
failures with different reasons may tie.  With it, a path names a source, and thereby the manifest
or the failure that is read from it; this is all that the report needs (`OnePerPath`, `Untied`).
-/

namespace ContainerAudit

/-! ## Reading sources -/

/-- The failure that a parser gives, unless it gives a manifest or stops the audit. -/
def Manifest.failure? : Except Manifest.Failure Manifest → Option ParseFailure
  | .error (.parse f) => some f
  | _ => none

def Source.manifest? (s : Source) : Option Manifest :=
  (Manifest.parse s.path s.text).toOption

/-- The failure of a source that holds no manifest. -/
def Source.failure? (s : Source) : Option ParseFailure :=
  Manifest.failure? (Manifest.parse s.path s.text)

/-- The source does not stop an audit: no YAML scalar in it misfits its tag. -/
def Source.Readable (s : Source) : Prop :=
  ∀ kind, Manifest.parse s.path s.text ≠ .error (.mismatch kind)

instance (s : Source) : Decidable s.Readable :=
  match hparse : Manifest.parse s.path s.text with
  | .error (.mismatch kind) => .isFalse fun h => h kind hparse
  | .error (.parse _) => .isTrue fun _ h => nomatch hparse.symm.trans h
  | .ok _ => .isTrue fun _ h => nomatch hparse.symm.trans h

/-- What is read from a file bears its path. -/
theorem Manifest.path_of_parse (path text : String) :
    (∀ m, Manifest.parse path text = .ok m → m.path = path) ∧
    (∀ f, Manifest.parse path text = .error (.parse f) → f.path = path) := by
  unfold Manifest.parse
  split
  · split
    · exact ⟨by rintro m ⟨⟩; rfl, by rintro f ⟨⟩⟩
    · exact ⟨by rintro m ⟨⟩, by rintro f ⟨⟩; rfl⟩
  · split
    · exact ⟨by rintro m ⟨⟩; rfl, by rintro f ⟨⟩⟩
    · exact ⟨by rintro m ⟨⟩, by rintro f ⟨⟩; rfl⟩
    · exact ⟨by rintro m ⟨⟩, by rintro f ⟨⟩⟩

section Reading

-- The lemmas on reading take the parsers as they are; opening them makes the equations slow.
attribute [local irreducible] Manifest.parse

theorem Source.manifest?_eq_some {s : Source} {m : Manifest} :
    s.manifest? = some m ↔ Manifest.parse s.path s.text = .ok m := by
  rw [Source.manifest?]
  rcases Manifest.parse s.path s.text with failure | n <;> simp [Except.toOption]

theorem Source.failure?_eq_some {s : Source} {f : ParseFailure} :
    s.failure? = some f ↔ Manifest.parse s.path s.text = .error (.parse f) := by
  rw [Source.failure?]
  rcases Manifest.parse s.path s.text with (g | kind) | m <;> simp [Manifest.failure?]

theorem Source.path_of_manifest? {s : Source} {m : Manifest} (h : s.manifest? = some m) :
    m.path = s.path :=
  (Manifest.path_of_parse s.path s.text).1 m (Source.manifest?_eq_some.mp h)

theorem Source.path_of_failure? {s : Source} {f : ParseFailure} (h : s.failure? = some f) :
    f.path = s.path :=
  (Manifest.path_of_parse s.path s.text).2 f (Source.failure?_eq_some.mp h)

namespace Audit

/-- What sources that do not stop the audit are read as. -/
def readings (sources : List Source) : Reading :=
  ⟨sources.filterMap (·.manifest?), sources.filterMap (·.failure?)⟩

theorem read_cons (s : Source) (sources : List Source) :
    read (s :: sources) =
      match Manifest.parse s.path s.text with
      | .ok m => (read sources).map fun r => { r with manifests := m :: r.manifests }
      | .error (.parse f) => (read sources).map fun r => { r with failures := f :: r.failures }
      | .error (.mismatch kind) => .error kind :=
  rfl

theorem read_eq_ok {sources : List Source} (h : ∀ s ∈ sources, s.Readable) :
    read sources = .ok (readings sources) := by
  induction sources with
  | nil => rfl
  | cons s sources ih =>
      have hs := h s List.mem_cons_self
      have hrest := ih fun t ht => h t (List.mem_cons_of_mem s ht)
      rw [read_cons, hrest]
      simp only [readings, List.filterMap_cons, Source.manifest?, Source.failure?]
      rcases hparse : Manifest.parse s.path s.text with (f | kind) | m
      · rfl
      · exact absurd hparse (hs kind)
      · rfl

theorem readable_of_read {sources : List Source} {r : Reading} (h : read sources = .ok r) :
    ∀ s ∈ sources, s.Readable := by
  induction sources generalizing r with
  | nil => exact fun s hs => absurd hs List.not_mem_nil
  | cons s sources ih =>
      rw [read_cons] at h
      have hs : s.Readable := by
        intro kind hparse
        rw [hparse] at h
        exact nomatch h
      have hrest : ∃ r', read sources = .ok r' := by
        cases hread : read sources with
        | ok r' => exact ⟨r', rfl⟩
        | error kind =>
            rw [hread] at h
            split at h <;> exact nomatch h
      obtain ⟨r', hread⟩ := hrest
      exact List.forall_mem_cons.mpr ⟨hs, ih hread⟩

/-! ## Reports on sources -/

/-- The report on sources that do not stop the audit. -/
def reportOn (registry : Registry) (config : Config) (sources : List Source) : Report :=
  Run.report ⟨readings sources,
    registry.run config.patterns config.suppressed (readings sources).manifests⟩

theorem run_eq_ok_iff {registry : Registry} {config : Config} {sources : List Source} {r : Run} :
    run registry config sources = .ok r ↔
      unknownRules registry config.suppressed = [] ∧ (∀ s ∈ sources, s.Readable) ∧
        r = ⟨readings sources,
          registry.run config.patterns config.suppressed (readings sources).manifests⟩ := by
  rw [run]
  constructor
  · intro h
    split at h
    · next hknown =>
        cases hread : read sources with
        | error kind =>
            rw [hread] at h
            exact nomatch h
        | ok reading =>
            have hreadable := readable_of_read hread
            rw [read_eq_ok hreadable] at h
            exact ⟨List.isEmpty_iff.mp hknown, hreadable, (Except.ok.inj h).symm⟩
    · exact nomatch h
  · rintro ⟨hknown, hreadable, rfl⟩
    rw [if_pos (List.isEmpty_iff.mpr hknown), read_eq_ok hreadable]

theorem report_eq_ok_iff {registry : Registry} {config : Config} {sources : List Source}
    {r : Report} :
    report registry config sources = .ok r ↔
      unknownRules registry config.suppressed = [] ∧ (∀ s ∈ sources, s.Readable) ∧
        r = reportOn registry config sources := by
  rw [report]
  constructor
  · intro h
    cases hrun : run registry config sources with
    | error e =>
        rw [hrun] at h
        exact nomatch h
    | ok audit =>
        obtain ⟨hknown, hreadable, rfl⟩ := run_eq_ok_iff.mp hrun
        rw [hrun] at h
        exact ⟨hknown, hreadable, (Except.ok.inj h).symm⟩
  · rintro ⟨hknown, hreadable, rfl⟩
    rw [run_eq_ok_iff.mpr ⟨hknown, hreadable, rfl⟩]
    rfl

/-- The audit of one source that holds a manifest gives a report: on what the rules find there. -/
theorem report_single {registry : Registry} {config : Config} {path text : String} {m : Manifest}
    (hparse : Manifest.parse path text = .ok m)
    (hknown : unknownRules registry config.suppressed = []) :
    ∃ r, report registry config [⟨path, text⟩] = .ok r ∧
      r.findings = sortBy Finding.order (distinctBy Finding.key
        (registry.run config.patterns config.suppressed [m]).findings) := by
  have hreadable : ∀ s ∈ [(⟨path, text⟩ : Source)], s.Readable := by
    intro s hs kind hkind
    rw [List.mem_singleton.mp hs, hparse] at hkind
    exact nomatch hkind
  have hmanifest : (⟨path, text⟩ : Source).manifest? = some m := Source.manifest?_eq_some.mpr hparse
  refine ⟨_, report_eq_ok_iff.mpr ⟨hknown, hreadable, rfl⟩, ?_⟩
  have hmanifests : (readings [⟨path, text⟩]).manifests = [m] := by
    rw [readings, List.filterMap_cons_some hmanifest, List.filterMap_nil]
  simp only [reportOn, Run.report, Report.aggregate, hmanifests]

theorem mem_unknownRules {registry : Registry} {ids : List String} {id : String} :
    id ∈ unknownRules registry ids ↔ id ∈ ids ∧ ¬registry.contains id := by
  rw [unknownRules, List.mem_filter, Bool.not_eq_true', Bool.not_eq_true]

theorem unknownRules_eq_nil {registry : Registry} {ids : List String} :
    unknownRules registry ids = [] ↔ ∀ id ∈ ids, registry.contains id := by
  simp only [List.eq_nil_iff_forall_not_mem, mem_unknownRules, not_and, not_not]

/-- Suppressing rules that the registry does not have fails before any source is looked at. -/
theorem report_of_unknown {registry : Registry} {config : Config} (sources : List Source)
    (h : unknownRules registry config.suppressed ≠ []) :
    report registry config sources =
      .error (.unknownRules (unknownRules registry config.suppressed)) := by
  rw [report, run, if_neg (by rwa [List.isEmpty_iff])]
  rfl

/-- No two sources give one path different texts. -/
def OneText (sources : List Source) : Prop :=
  ∀ s ∈ sources, ∀ t ∈ sources, s.path = t.path → s.text = t.text

instance (sources : List Source) : Decidable (OneText sources) :=
  inferInstanceAs (Decidable (∀ s ∈ sources, ∀ t ∈ sources, s.path = t.path → s.text = t.text))

theorem OneText.eq {sources : List Source} (h : OneText sources) {s t : Source}
    (hs : s ∈ sources) (ht : t ∈ sources) (hpath : s.path = t.path) : s = t := by
  have htext := h s hs t ht hpath
  cases s
  cases t
  simp_all only

theorem OneText.of_subset {sources sources' : List Source} (h : OneText sources')
    (hsub : ∀ s ∈ sources, s ∈ sources') : OneText sources :=
  fun s hs t ht => h s (hsub s hs) t (hsub t ht)

section OneText

variable {sources : List Source} (h : OneText sources)

include h

theorem OneText.onePerPath : OnePerPath (readings sources).manifests := by
  intro m hm n hn hpath
  obtain ⟨s, hs, hsm⟩ := List.mem_filterMap.mp hm
  obtain ⟨t, ht, htn⟩ := List.mem_filterMap.mp hn
  obtain rfl : s = t := h.eq hs ht
    (by rw [← Source.path_of_manifest? hsm, ← Source.path_of_manifest? htn, hpath])
  exact Option.some.inj (hsm.symm.trans htn)

theorem OneText.untied_failures : Untied ParseFailure.order (readings sources).failures := by
  intro f hf g hg htie
  obtain ⟨s, hs, hsf⟩ := List.mem_filterMap.mp hf
  obtain ⟨t, ht, htg⟩ := List.mem_filterMap.mp hg
  obtain rfl : s = t := h.eq hs ht
    (by rw [← Source.path_of_failure? hsf, ← Source.path_of_failure? htg,
      ParseFailure.path_eq_of_order_eq htie])
  exact Option.some.inj (hsf.symm.trans htg)

end OneText

theorem reportOn_congr (registry : Registry) (config : Config) {sources sources' : List Source}
    (hsame : ∀ s, s ∈ sources ↔ s ∈ sources') (h : OneText sources) :
    reportOn registry config sources = reportOn registry config sources' := by
  have h' : OneText sources' := h.of_subset fun s hs => (hsame s).mpr hs
  have hmanifests (m : Manifest) :
      m ∈ (readings sources).manifests ↔ m ∈ (readings sources').manifests := by
    simp only [readings, List.mem_filterMap, hsame]
  have htasks (t : Manifest × Rule) :
      t ∈ registry.tasks config.suppressed (readings sources).manifests ↔
        t ∈ registry.tasks config.suppressed (readings sources').manifests :=
    tasks_congr hmanifests t
  refine Report.aggregate_congr (fun f => ?_) (fun c => ?_) (fun f => ?_) h.untied_failures
    (fun f => ?_) (untied_run_failures registry config.patterns config.suppressed h.onePerPath)
  · rw [mem_distinctBy_run_findings _ _ _ h.onePerPath,
      mem_distinctBy_run_findings _ _ _ h'.onePerPath]
    simp only [htasks]
  · simp only [run_eq, List.mem_flatMap, htasks]
  · simp only [readings, List.mem_filterMap, hsame]
  · simp only [run_eq, List.mem_flatMap, htasks]

/-- **An audit is a function of the set of its sources.**  Neither their order nor their repetition
shows in the report, and the audit does give a report, unless it is told to suppress rules that do
not exist. -/
theorem report_eq_of_same_sources (registry : Registry) (config : Config)
    {sources sources' : List Source} (hsame : ∀ s, s ∈ sources ↔ s ∈ sources')
    (htexts : OneText sources) (hreadable : ∀ s ∈ sources, s.Readable) :
    report registry config sources = report registry config sources' ∧
      (unknownRules registry config.suppressed = [] →
        ∃ r, report registry config sources = .ok r) := by
  by_cases hknown : unknownRules registry config.suppressed = []
  · have hreport := report_eq_ok_iff.mpr ⟨hknown, hreadable, rfl⟩
    refine ⟨?_, fun _ => ⟨_, hreport⟩⟩
    rw [hreport, reportOn_congr registry config hsame htexts]
    exact (report_eq_ok_iff.mpr
      ⟨hknown, fun s hs => hreadable s ((hsame s).mpr hs), rfl⟩).symm
  · rw [report_of_unknown sources hknown, report_of_unknown sources' hknown]
    exact ⟨rfl, fun h => absurd h hknown⟩

end Audit

end Reading

/-- A file that does not parse, beside one that does: given before it or after it, and twice. -/
theorem Audit.report_eq_of_repeated_sources :
    let broken : Source := ⟨"web/Dockerfile", "FROM debian\nRUN <<END\n"⟩
    let other : Source := ⟨"Dockerfile", "FROM debian\nUSER root\n"⟩
    ∃ r, Audit.report .standard {} [broken, other] = .ok r ∧
      Audit.report .standard {} [other, broken, other, broken] = .ok r := by
  intro broken other
  obtain ⟨hsame, hok⟩ := Audit.report_eq_of_same_sources .standard {}
    (show ∀ s, s ∈ [broken, other] ↔ s ∈ [other, broken, other, broken] from fun s => by
      simp only [List.mem_cons, List.not_mem_nil]
      tauto)
    (by decide) (by decide)
  obtain ⟨r, hr⟩ := hok (by decide)
  exact ⟨r, hr, hsame ▸ hr⟩

end ContainerAudit
