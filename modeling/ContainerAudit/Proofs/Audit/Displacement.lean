import ContainerAudit.Proofs.Audit.Independence
import ContainerAudit.Proofs.Audit.Misfit
import ContainerAudit.Proofs.Rule.Displacement

/-!
# Audits of files below skipped lines

What an audit says of a Dockerfile moves with its text.  Blank lines and comments put above the file
add their number to every line in the report, and to nothing else (`report_below`).

The reports correspond finding by finding, in one order: the line is part of the key by which
findings count as one and of the order in which they are shown, but adding the same number to all
lines changes neither which keys are equal nor which line is the smaller.
-/

namespace ContainerAudit

/-! ## Results that move -/

/-- The finding `k` lines further down. -/
def Finding.shift (k : Nat) (f : Finding) : Finding :=
  { f with line := f.line + k }

/-- `f.Moved k f'`: the finding `f'` is `f`, `k` lines further down.  If its rule quotes the number
of a line, this number is `k` more as well; else the message is the same. -/
inductive Finding.Moved (k : Nat) : Finding → Finding → Prop
  | plain (f : Finding) (hrule : quotation? f.rule = none) : Finding.Moved k f (f.shift k)
  | quoting (f : Finding) (q : Quotation) (quoted : Nat) (hrule : quotation? f.rule = some q)
      (hmessage : f.message = q.message quoted) :
      Finding.Moved k f { f.shift k with message := q.message (quoted + k) }

/-- A finding that moves is one of the same rule in the same file. -/
theorem Finding.Moved.same {k : Nat} {f f' : Finding} (h : f.Moved k f') :
    f'.rule = f.rule ∧ f'.severity = f.severity ∧ f'.file = f.file ∧ f'.line = f.line + k := by
  cases h <;> exact ⟨rfl, rfl, rfl, rfl⟩

def ParseFailure.shift (k : Nat) (f : ParseFailure) : ParseFailure :=
  { f with line := f.line.map (· + k) }

/-- `e.Moved k e'`: the same checks and failures of rules, and the same findings moved. -/
structure Evaluation.Moved (k : Nat) (e e' : Evaluation) : Prop where
  findings : List.Forall₂ (Finding.Moved k) e.findings e'.findings
  checks : e'.checks = e.checks
  failures : e'.failures = e.failures

/-- `r.Moved k r'`: the report `r'` is `r` with `k` added to each line. -/
structure Report.Moved (k : Nat) (r r' : Report) : Prop where
  findings : List.Forall₂ (Finding.Moved k) r.findings r'.findings
  summary : r'.summary = r.summary
  parseFailures : r'.parseFailures = r.parseFailures.map (·.shift k)
  ruleFailures : r'.ruleFailures = r.ruleFailures

/-! ## Runs on a document further down -/

theorem Quotation.isEmpty_message (q : Quotation) (line : Nat) :
    (q.message line).isEmpty = false := by
  rw [Quotation.message, String.isEmpty_eq_false_iff]
  intro h
  rw [String.append_eq_empty_iff, String.append_eq_empty_iff] at h
  exact q.before_ne h.1.1

theorem Finding.moved_ofMatch {k : Nat} {rule : Rule} {path : String} {m m' : Match}
    (h : m.Moved k (quotation? rule.id) m') :
    (Finding.ofMatch rule path m).Moved k (Finding.ofMatch rule path m') := by
  generalize hrule : quotation? rule.id = q? at h
  cases h with
  | plain => exact .plain (Finding.ofMatch rule path m) hrule
  | quoting q quoted _ hmessage =>
      have hown : ∀ line, orText (some (q.message line)) (some rule.message) =
          some (q.message line) := by
        intro line
        simp only [orText, q.isEmpty_message line, Bool.false_eq_true, if_false]
      have hmoved := Finding.Moved.quoting (k := k) (Finding.ofMatch rule path m) q quoted hrule
        (by simp only [Finding.ofMatch, hmessage, hown, Option.getD_some])
      simpa only [Finding.ofMatch, Finding.shift, Match.shift, hown, Option.getD_some] using hmoved

theorem evaluate_moved {k : Nat} {rule : Rule} (hrule : rule.MovesWithText) (p : Patterns)
    (path : String) (d : Dockerfile.Document) :
    (rule.evaluate p ⟨path, .dockerfile d⟩).Moved k
      (rule.evaluate p ⟨path, .dockerfile (d.shift k)⟩) := by
  obtain ⟨f, hcheck, hf⟩ := hrule
  have hfindings : List.Forall₂ (Finding.Moved k) ((f d p).map (Finding.ofMatch rule path))
      ((f (d.shift k) p).map (Finding.ofMatch rule path)) := by
    rw [List.forall₂_map_left_iff, List.forall₂_map_right_iff]
    exact (hf k d p).imp fun _ _ => Finding.moved_ofMatch
  have hempty : (f (d.shift k) p).isEmpty = (f d p).isEmpty := by
    have hlength := (hf k d p).length_eq
    rw [Bool.eq_iff_iff, List.isEmpty_iff_length_eq_zero, List.isEmpty_iff_length_eq_zero, hlength]
  simp only [Rule.evaluate, hcheck, Check.ofDockerfile]
  refine ⟨hfindings, ?_, rfl⟩
  simp only [List.isEmpty_map, hempty]

theorem Evaluation.Moved.append {k : Nat} {a a' b b' : Evaluation} (ha : a.Moved k a')
    (hb : b.Moved k b') : (a.append b).Moved k (a'.append b') :=
  ⟨List.rel_append ha.findings hb.findings,
    by rw [Evaluation.append, Evaluation.append, ha.checks, hb.checks],
    by rw [Evaluation.append, Evaluation.append, ha.failures, hb.failures]⟩

theorem run_moved (k : Nat) (p : Patterns) (suppressed : List String) (path : String)
    (d : Dockerfile.Document) :
    (Registry.standard.run p suppressed [⟨path, .dockerfile d⟩]).Moved k
      (Registry.standard.run p suppressed [⟨path, .dockerfile (d.shift k)⟩]) := by
  have hrules : ∀ rule ∈ Registry.standard.applicable suppressed ⟨path, .dockerfile d⟩,
      rule.MovesWithText :=
    fun rule hrule => Rule.movesWithText_of_mem_ofKind (List.mem_of_mem_filter hrule)
  have hsame : Registry.standard.applicable suppressed ⟨path, .dockerfile (d.shift k)⟩ =
      Registry.standard.applicable suppressed ⟨path, .dockerfile d⟩ := rfl
  simp only [Registry.run, Registry.tasks, List.flatMap_singleton, hsame, List.map_map]
  generalize Registry.standard.applicable suppressed ⟨path, .dockerfile d⟩ = rules at hrules
  induction rules with
  | nil => exact ⟨.nil, rfl, rfl⟩
  | cons rule rules ih =>
      obtain ⟨hrule, hrest⟩ := List.forall_mem_cons.mp hrules
      exact (evaluate_moved hrule p path d).append (ih hrest)

/-! ## Reports on a document further down -/

theorem Finding.Moved.key_eq {k : Nat} {f f' : Finding} (h : f.Moved k f') :
    f'.key = (f.key.1, f.key.2.1, f.key.2.2 + k) := by
  obtain ⟨hrule, -, hfile, hline⟩ := h.same
  rw [Finding.key, hrule, hfile, hline]
  rfl

theorem Finding.Moved.order_eq {k : Nat} {f f' g g' : Finding} (hf : f.Moved k f')
    (hg : g.Moved k g') : Finding.order f' g' = Finding.order f g := by
  obtain ⟨hfrule, hfseverity, hffile, hfline⟩ := hf.same
  obtain ⟨hgrule, hgseverity, hgfile, hgline⟩ := hg.same
  have hlines : compare (f.line + k) (g.line + k) = compare f.line g.line := by
    simp only [compare, compareOfLessAndEq, Int.add_lt_add_iff_right, Int.add_left_inj]
  rw [Finding.order, hfrule, hfseverity, hffile, hfline, hgrule, hgseverity, hgfile, hgline, hlines]
  rfl

theorem Report.countOf_moved {k : Nat} {fs fs' : List Finding}
    (h : List.Forall₂ (Finding.Moved k) fs fs') (severity : Severity) :
    countOf fs' severity = countOf fs severity := by
  induction h with
  | nil => rfl
  | cons hf _ ih =>
      rw [countOf, countOf] at ih
      rw [countOf, List.countP_cons, ih, hf.same.2.1, countOf, List.countP_cons]

theorem Report.moved_aggregate {k : Nat} {e e' : Evaluation} (h : e.Moved k e') :
    (aggregate e.findings e.checks [] e.failures).Moved k
      (aggregate e'.findings e'.checks [] e'.failures) := by
  have hinjective : Function.Injective fun key : String × String × Int =>
      (key.1, key.2.1, key.2.2 + (k : Int)) := by
    rintro ⟨rule, file, line⟩ ⟨rule', file', line'⟩ hkey
    simpa using hkey
  have hfindings : List.Forall₂ (Finding.Moved k)
      (sortBy Finding.order (distinctBy Finding.key e.findings))
      (sortBy Finding.order (distinctBy Finding.key e'.findings)) :=
    forall₂_sortBy (fun f f' g g' hf hg => hf.order_eq hg)
      (forall₂_distinctBy hinjective (fun f f' hf => hf.key_eq) h.findings)
  refine ⟨hfindings, ?_, ?_, ?_⟩
  · simp only [aggregate, countOf_moved hfindings, h.checks]
  · simp [aggregate, sortBy, distinct, distinctBy, distinctFrom]
  · simp only [aggregate, h.failures]

/-! ## Audits -/

section Audit

attribute [local irreducible] Dockerfile.parse

section Parse

variable {path text : String} (hkind : Kind.ofPath (.ofText path) = .dockerfile)

include hkind

theorem Manifest.parse_dockerfile_ok {d : Dockerfile.Document}
    (hparse : Dockerfile.parse text = .ok d) :
    Manifest.parse path text = .ok ⟨path, .dockerfile d⟩ := by
  unfold Manifest.parse
  rw [hkind]
  dsimp only
  rw [hparse]

theorem Manifest.parse_dockerfile_error {e : Dockerfile.Error}
    (hparse : Dockerfile.parse text = .error e) :
    Manifest.parse path text = .error (.parse (.ofDockerfile path e)) := by
  unfold Manifest.parse
  rw [hkind]
  dsimp only
  rw [hparse]

theorem Audit.readings_dockerfile {d : Dockerfile.Document}
    (hparse : Dockerfile.parse text = .ok d) :
    readings [⟨path, text⟩] = ⟨[⟨path, .dockerfile d⟩], []⟩ := by
  simp only [readings, List.filterMap_cons, Source.manifest?, Source.failure?,
    Manifest.parse_dockerfile_ok hkind hparse]
  rfl

end Parse

namespace Audit

theorem reportOn_below (config : Config) (path above text : String)
    (hkind : Kind.ofPath (.ofText path) = .dockerfile)
    (hend : above = "" ∨ above.toList.getLast? = some '\n')
    (hskip : ∀ l ∈ Text.lines above.toList, Dockerfile.isSkipped l = true)
    (hescape : Dockerfile.escapeChar (Text.lines (above ++ text).toList) =
      Dockerfile.escapeChar (Text.lines text.toList)) :
    (reportOn .standard config [⟨path, text⟩]).Moved (Text.lines above.toList).length
      (reportOn .standard config [⟨path, above ++ text⟩]) := by
  have hbelow := Dockerfile.parse_below hend hskip hescape
  cases hparse : Dockerfile.parse text with
  | ok d =>
      rw [hparse] at hbelow
      rw [reportOn, reportOn, readings_dockerfile hkind hparse, readings_dockerfile hkind hbelow]
      exact Report.moved_aggregate (run_moved _ config.patterns config.suppressed path d)
  | error e =>
      rw [hparse] at hbelow
      have htext : Manifest.parse path text = _ := Manifest.parse_dockerfile_error hkind hparse
      have habove : Manifest.parse path (above ++ text) = _ :=
        Manifest.parse_dockerfile_error hkind hbelow
      rw [reportOn_failing .standard config (s := ⟨path, text⟩) htext,
        reportOn_failing .standard config (s := ⟨path, above ++ text⟩) habove]
      refine ⟨.nil, rfl, ?_, rfl⟩
      simp only [List.map_cons, List.map_nil, ParseFailure.shift, ParseFailure.ofDockerfile,
        e.line_shift, e.reason_shift, Option.map_some, Int.natCast_add]

end Audit

end Audit

/-- **Findings move with the text.**  Blank lines and comments above a Dockerfile, if they leave its
escape character as it is, add their number to every line of the report, also to those that messages
quote.  There is a report on the one text and on the other, unless the configuration suppresses
rules that do not exist. -/
theorem Audit.report_below (config : Config) (path above text : String)
    (hkind : Kind.ofPath (.ofText path) = .dockerfile)
    (hend : above = "" ∨ above.toList.getLast? = some '\n')
    (hskip : ∀ l ∈ Text.lines above.toList, Dockerfile.isSkipped l = true)
    (hescape : Dockerfile.escapeChar (Text.lines (above ++ text).toList) =
      Dockerfile.escapeChar (Text.lines text.toList)) :
    let unknown := unknownRules .standard config.suppressed
    (unknown = [] → ∃ r r', report .standard config [⟨path, text⟩] = .ok r ∧
      report .standard config [⟨path, above ++ text⟩] = .ok r' ∧
      r.Moved (Text.lines above.toList).length r') ∧
    (unknown ≠ [] → report .standard config [⟨path, text⟩] = .error (.unknownRules unknown) ∧
      report .standard config [⟨path, above ++ text⟩] = .error (.unknownRules unknown)) := by
  intro unknown
  have hreadable : ∀ t, ∀ s ∈ [(⟨path, t⟩ : Source)], s.Readable := by
    intro t s hs
    rw [List.mem_singleton.mp hs]
    exact Source.readable_of_dockerfile hkind
  refine ⟨fun hknown => ⟨_, _, report_eq_ok_iff.mpr ⟨hknown, hreadable text, rfl⟩,
    report_eq_ok_iff.mpr ⟨hknown, hreadable (above ++ text), rfl⟩,
    reportOn_below config path above text hkind hend hskip hescape⟩, fun hunknown => ?_⟩
  exact ⟨report_of_unknown _ hunknown, report_of_unknown _ hunknown⟩

/-- A directive is put above one that sets the escape character.  The second command is reported
behind the first, whose line its message quotes. -/
theorem Audit.report_below_directive :
    let text := "# escape=`\nFROM a:1\nRUN x `\n\n y\nRUN z\n"
    ∃ r r', report .standard {} [⟨"Dockerfile", text⟩] = .ok r ∧
      report .standard {} [⟨"Dockerfile", "# syntax=docker/dockerfile:1\n" ++ text⟩] = .ok r' ∧
      r.Moved 1 r' ∧ ∃ f ∈ r.findings, f.rule = "OPT-008" ∧ f.line = 6 ∧
        f.message = "RUN follows the RUN on line 3." := by
  intro text
  obtain ⟨hmoved, -⟩ := report_below {} "Dockerfile" "# syntax=docker/dockerfile:1\n" text
    (by decide) (Or.inr (by decide)) (by decide) (by decide)
  obtain ⟨r, r', hr, hr', hmoved⟩ := hmoved (by decide)
  refine ⟨r, r', hr, hr', hmoved, ?_⟩
  obtain ⟨-, -, rfl⟩ := report_eq_ok_iff.mp hr
  have hfound : ∃ f ∈ distinctBy Finding.key (Registry.standard.run Patterns.standard []
      (readings [⟨"Dockerfile", text⟩]).manifests).findings, f.rule = "OPT-008" ∧ f.line = 6 ∧
        f.message = "RUN follows the RUN on line 3." := by
    decide +kernel
  obtain ⟨f, hf, hfacts⟩ := hfound
  exact ⟨f, mem_sortBy.mpr hf, hfacts⟩

end ContainerAudit
