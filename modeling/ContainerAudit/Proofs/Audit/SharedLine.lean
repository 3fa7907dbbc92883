import ContainerAudit.Proofs.Audit.Sources
import ContainerAudit.Proofs.Rule.Service

/-!
# Services on shared lines

Findings of one rule on one line of a file count as one, and the first is kept.  In a compose file
two matches of a rule can share a line: two services on one line, two items of a list on one line,
or two services that inherit a key from one anchor, which keeps the line of the anchor.  Then only
the first of them is told by its own message (`report_loses_inherited_privilege`).

Nothing else is lost.  Each match has a finding of its rule on its line, and this is the finding of
the first match there, in the order of the names of services (`report_represents_services`).
-/

namespace ContainerAudit

section Parse

attribute [local irreducible] Compose.parse

theorem Manifest.parse_compose_ok {path text : String} {d : Compose.Document}
    (hkind : Kind.ofPath (.ofText path) = .compose) (hparse : Compose.parse text = .ok d) :
    Manifest.parse path text = .ok ⟨path, .compose d⟩ := by
  unfold Manifest.parse
  rw [hkind]
  dsimp only
  rw [hparse]

end Parse

section Service

variable {path text : String} {d : Compose.Document}
  (hkind : Kind.ofPath (.ofText path) = .compose) (hparse : Compose.parse text = .ok d)

include hkind hparse

/-- The findings on a compose file: of each rule and on each line, the first match. -/
theorem findings_report_compose (config : Config)
    (hknown : Audit.unknownRules .standard config.suppressed = []) :
    ∃ r, Audit.report .standard config [⟨path, text⟩] = .ok r ∧ ∀ f, f ∈ r.findings ↔
      ∃ rule ∈ Rule.serviceRules, rule.id ∉ config.suppressed ∧ ∃ first,
        (d.sorted.flatMap (rule.foundFor config.patterns)).find? (·.line == first.line) =
          some first ∧ f = Finding.ofMatch rule path first := by
  obtain ⟨r, hr, hfindings⟩ := Audit.report_single (Manifest.parse_compose_ok hkind hparse) hknown
  refine ⟨r, hr, fun f => ?_⟩
  rw [hfindings, mem_sortBy, mem_distinctBy_run_single]
  have happlicable : ∀ rule, rule ∈ Registry.standard.applicable config.suppressed
      ⟨path, .compose d⟩ ↔ rule ∈ Rule.serviceRules ∧ rule.id ∉ config.suppressed := by
    intro rule
    rw [Registry.applicable, List.mem_filter, Content.kind, Registry.standard_ofKind_compose]
    simp
  have hfound : ∀ rule ∈ Rule.serviceRules, rule.found config.patterns ⟨path, .compose d⟩ =
      d.sorted.flatMap (rule.foundFor config.patterns) := by
    intro rule hrule
    exact Rule.found_of_check ((Rule.serviceRules_perService rule hrule).check_eq _ path d)
  constructor
  · rintro ⟨rule, happ, first, hfirst, rfl⟩
    obtain ⟨hrule, hsuppressed⟩ := (happlicable rule).mp happ
    exact ⟨rule, hrule, hsuppressed, first, hfound rule hrule ▸ hfirst, rfl⟩
  · rintro ⟨rule, hrule, hsuppressed, first, hfirst, rfl⟩
    exact ⟨rule, (happlicable rule).mpr ⟨hrule, hsuppressed⟩, first,
      (hfound rule hrule).symm ▸ hfirst, rfl⟩

end Service

/-- Rules of the catalogue with the same id are the same. -/
theorem Rule.eq_of_mem_serviceRules {rule rule' : Rule} (h : rule ∈ Rule.serviceRules)
    (h' : rule' ∈ Rule.serviceRules) (hid : rule.id = rule'.id) : rule = rule' := by
  rw [← Registry.standard_ofKind_compose] at h h'
  exact List.inj_on_of_nodup_map Registry.standard.nodup_ids (List.mem_of_mem_filter h)
    (List.mem_of_mem_filter h') hid

/-- **No violating service goes unreported.**  On a compose file that can be read, each match that a
rule has for a service is represented by exactly one finding of the rule on the line of the match.
This finding tells the first match of the rule on that line, services taken in the order of their
names: with its own message, which is that of the match itself unless another match comes before it
on its line. -/
theorem Audit.report_represents_services {path text : String} {d : Compose.Document}
    (hkind : Kind.ofPath (.ofText path) = .compose) (hparse : Compose.parse text = .ok d)
    (config : Config) (hknown : unknownRules .standard config.suppressed = []) :
    ∃ r, report .standard config [⟨path, text⟩] = .ok r ∧
      ∀ rule ∈ Rule.serviceRules, rule.id ∉ config.suppressed → ∃ raw,
        rule.check ⟨path, .compose d⟩ config.patterns = .ok raw ∧
        raw = d.sorted.flatMap (rule.foundFor config.patterns) ∧
        ∀ s ∈ d.services, ∀ m ∈ rule.foundFor config.patterns s,
          ∃ first, raw.find? (·.line == m.line) = some first ∧
            ∃ f ∈ r.findings, f.rule = rule.id ∧ f.file = path ∧ f.line = m.line ∧
              f.text = first.text ∧ first.message = some f.message ∧
              ∀ g ∈ r.findings, g.rule = rule.id → g.line = m.line → g = f := by
  obtain ⟨r, hr, hfindings⟩ := findings_report_compose hkind hparse config hknown
  refine ⟨r, hr, fun rule hrule hsuppressed => ?_⟩
  have hper := Rule.serviceRules_perService rule hrule
  refine ⟨_, hper.check_eq config.patterns path d, rfl, fun s hs m hm => ?_⟩
  have hraw : m ∈ d.sorted.flatMap (rule.foundFor config.patterns) :=
    List.mem_flatMap.mpr ⟨s, List.mem_mergeSort.mpr hs, hm⟩
  cases hfirst : (d.sorted.flatMap (rule.foundFor config.patterns)).find? (·.line == m.line) with
  | none => exact absurd (beq_self_eq_true m.line) (List.find?_eq_none.mp hfirst m hraw)
  | some first =>
      have hline : first.line = m.line := by simpa using List.find?_some hfirst
      obtain ⟨s', -, hs'⟩ := List.mem_flatMap.mp (List.mem_of_find?_eq_some hfirst)
      have hmessage := (hper.speaks config.patterns s' first hs').message_ofMatch rule path
      have hmem : Finding.ofMatch rule path first ∈ r.findings :=
        (hfindings _).mpr ⟨rule, hrule, hsuppressed, first, hline ▸ hfirst, rfl⟩
      refine ⟨first, rfl, _, hmem, rfl, rfl, hline, rfl, hmessage, ?_⟩
      intro g hg hgrule hgline
      obtain ⟨rule', hrule', -, other, hother, rfl⟩ := (hfindings g).mp hg
      obtain rfl := Rule.eq_of_mem_serviceRules hrule' hrule hgrule
      have hotherline : other.line = m.line := hgline
      rw [hotherline, hfirst] at hother
      rw [Option.some.inj hother]

/-! ## Two services with one line -/

/-- Two services inherit a key from one anchor. -/
def inheritedPrivilege : String :=
  "x-base: &base\n  privileged: true\nservices:\n  a:\n    <<: *base\n  b:\n    <<: *base\n"

def privilegeRule : Rule := Rule.serviceRules[0]

/-- What the rule finds in a service that is privileged by the key on line 2. -/
def privilegeMatch (name : String) : Match :=
  ⟨2, "privileged: true", some ("Service '" ++ name ++ "' runs privileged."), none⟩

theorem foundFor_privilegeRule (p : Patterns) {s : Compose.Service}
    (hprivileged : s.privileged = some true) (hline : s.lineOf "privileged" = 2) :
    privilegeRule.foundFor p s = [privilegeMatch s.name] := by
  let g : Patterns → Compose.Service → List Match := fun _ s =>
    if s.privileged = some true then
      [⟨s.lineOf "privileged", "privileged: true",
        some (Rule.serviceName s ++ " runs privileged."), none⟩]
    else []
  have hcheck : privilegeRule.check = .ofCompose fun d p => Rule.eachService (g p) d := rfl
  rw [Rule.foundFor_eq hcheck]
  simp [g, hprivileged, hline, privilegeMatch, Rule.serviceName, String.append_assoc]

theorem parse_inheritedPrivilege :
    ∃ a b, Compose.parse inheritedPrivilege = .ok ⟨[a, b]⟩ ∧
      (⟨[a, b]⟩ : Compose.Document).sorted = [a, b] ∧
      ∀ p, privilegeRule.foundFor p a = [privilegeMatch "a"] ∧
        privilegeRule.foundFor p b = [privilegeMatch "b"] := by
  have hview : ((Compose.parse inheritedPrivilege).toOption.map fun d => d.services.map fun s =>
      (s.name, s.privileged, s.lineOf "privileged")) =
      some [("a", some true, 2), ("b", some true, 2)] := by
    decide +kernel
  cases hparse : Compose.parse inheritedPrivilege with
  | error e =>
      rw [hparse] at hview
      exact nomatch hview
  | ok d =>
      rw [hparse] at hview
      obtain ⟨services⟩ := d
      obtain ⟨a, rest, rfl, ha, hrest⟩ := List.map_eq_cons_iff.mp (Option.some.inj hview)
      obtain ⟨b, rest, rfl, hb, hrest⟩ := List.map_eq_cons_iff.mp hrest
      obtain rfl := List.map_eq_nil_iff.mp hrest
      obtain ⟨haname, haprivileged, haline⟩ : _ ∧ _ ∧ _ := by simpa using ha
      obtain ⟨hbname, hbprivileged, hbline⟩ : _ ∧ _ ∧ _ := by simpa using hb
      refine ⟨a, b, rfl, ?_, fun p => ⟨?_, ?_⟩⟩
      · refine List.mergeSort_of_pairwise (List.pairwise_pair.mpr ?_)
        rw [haname, hbname]
        decide
      · rw [← haname]
        exact foundFor_privilegeRule p haprivileged haline
      · rw [← hbname]
        exact foundFor_privilegeRule p hbprivileged hbline

/-- The finding for the first service also stands for the second, on the line of the anchor. -/
theorem Audit.report_represents_inherited_privilege :
    ∃ r, report .standard {} [⟨"compose.yaml", inheritedPrivilege⟩] = .ok r ∧
      ∃ f ∈ r.findings, f.rule = "COMPOSE-SEC-001" ∧ f.line = 2 ∧
        f.message = "Service 'a' runs privileged." := by
  obtain ⟨a, b, hparse, hsorted, hfound⟩ := parse_inheritedPrivilege
  obtain ⟨r, hr, hrules⟩ :=
    report_represents_services (by decide : Kind.ofPath (.ofText "compose.yaml") = .compose) hparse
      {} rfl
  obtain ⟨raw, -, hraw, hservices⟩ :=
    hrules privilegeRule (List.getElem_mem _) List.not_mem_nil
  obtain ⟨first, hfirst, f, hf, hrule, -, hline, -, hmessage, -⟩ :=
    hservices b (by simp) (privilegeMatch "b") (by simp [hfound])
  have hrawlist : raw = [privilegeMatch "a", privilegeMatch "b"] := by
    simp [hraw, hsorted, hfound]
  rw [hrawlist] at hfirst
  obtain rfl : privilegeMatch "a" = first := by simpa [privilegeMatch] using hfirst
  exact ⟨r, hr, f, hf, hrule, hline, (Option.some.inj hmessage).symm⟩

/-- The second service is privileged too, and no finding of the rule says so. -/
theorem Audit.report_loses_inherited_privilege :
    ∃ d r, Compose.parse inheritedPrivilege = .ok d ∧
      report .standard {} [⟨"compose.yaml", inheritedPrivilege⟩] = .ok r ∧
      ∃ rule ∈ Rule.serviceRules, ∃ s ∈ d.services, ∃ m ∈ rule.foundFor .standard s,
        m.message = some "Service 'b' runs privileged." ∧
        ∀ f ∈ r.findings, f.rule = rule.id → m.message ≠ some f.message := by
  obtain ⟨a, b, hparse, hsorted, hfound⟩ := parse_inheritedPrivilege
  obtain ⟨r, hr, hfindings⟩ := findings_report_compose
    (by decide : Kind.ofPath (.ofText "compose.yaml") = .compose) hparse {} rfl
  refine ⟨_, r, hparse, hr, privilegeRule, List.getElem_mem _, b, by simp, privilegeMatch "b",
    by simp [hfound], rfl, ?_⟩
  intro f hf hrule
  obtain ⟨rule, hmem, -, first, hfirst, rfl⟩ := (hfindings f).mp hf
  obtain rfl := Rule.eq_of_mem_serviceRules hmem (List.getElem_mem _) hrule
  have hraw : (⟨[a, b]⟩ : Compose.Document).sorted.flatMap (privilegeRule.foundFor .standard) =
      [privilegeMatch "a", privilegeMatch "b"] := by
    simp [hsorted, hfound]
  -- both matches stand on line 2, so the first one there is the other one
  obtain rfl : first = privilegeMatch "a" := by
    have hfirst : [privilegeMatch "a", privilegeMatch "b"].find? (·.line == first.line) =
        some first := hraw ▸ hfirst
    have hline : first.line = 2 := by
      have hfirstmem := List.mem_of_find?_eq_some hfirst
      simp only [List.mem_cons, List.not_mem_nil, or_false] at hfirstmem
      rcases hfirstmem with rfl | rfl <;> rfl
    rw [hline] at hfirst
    exact (Option.some.inj hfirst).symm
  decide

end ContainerAudit
