import ContainerAudit.Proofs.Report.Priority
import ContainerAudit.Proofs.Text.Blank
import ContainerAudit.Proofs.Text.Occurrence
import ContainerAudit.Proofs.Text.Words

/-!
# The page of a report

A report in Markdown is cut at its line feeds into the lines of its parts, one after another: title
and summary, the two kinds of failures if there are any, a block for each finding, and the
recommended actions (`markdown_layout`).  No text of a finding, a failure or a rule spills over its
line, as long as these texts have no line feed in them.  The texts that rules have matched may have
any, and whole files may stand in them: they are brought on one line, word by word.
-/

namespace ContainerAudit.Report

/-! ## Lines -/

/-- The text goes on one line. -/
def IsLine (s : String) : Prop :=
  '\n' ∉ s.toList

instance (s : String) : Decidable (IsLine s) :=
  inferInstanceAs (Decidable ('\n' ∉ s.toList))

theorem isLine_append {s t : String} : IsLine (s ++ t) ↔ IsLine s ∧ IsLine t := by
  simp [IsLine, not_or]

theorem isLine_nat (n : Nat) : IsLine (toString n) := by
  intro h
  have hdigit : '\n'.isDigit = true :=
    Nat.isDigit_of_mem_toDigits (by decide) (by decide) (Nat.toList_repr ▸ h)
  exact absurd hdigit (by decide)

theorem isLine_int (n : Int) : IsLine (toString n) := by
  cases n with
  | ofNat n => exact isLine_nat n
  | negSucc n => exact isLine_append.mpr ⟨by decide, isLine_nat (n + 1)⟩

theorem isLine_severity (severity : Severity) : IsLine severity.name := by
  cases severity <;> decide

/-- The texts of a finding, but for the one that was matched, go on one line each. -/
structure FindingOnLines (f : Finding) : Prop where
  title : IsLine f.title
  rule : IsLine f.rule
  file : IsLine f.file
  message : IsLine f.message
  cwe : ∀ s, f.cwe = some s → IsLine s
  fix : ∀ s, f.fix = some s → IsLine s

/-- All texts of a report but those that were matched go on one line each. -/
structure OnLines (r : Report) : Prop where
  findings : ∀ f ∈ r.findings, FindingOnLines f
  parseFailures : ∀ f ∈ r.parseFailures, IsLine f.path ∧ IsLine f.reason
  ruleFailures : ∀ f ∈ r.ruleFailures, IsLine f.file ∧ IsLine f.rule ∧ IsLine f.reason

/-! ## The layout -/

/-- A text in a list, unless it is missing or empty. -/
def present (text : Option String) : List String :=
  (text.filter fun s => !s.isEmpty).toList

/-- Code between backticks: two on each side if there is one in it. -/
def fenced (code : String) : String :=
  if '\x60' ∈ code.toList then "`` " ++ code ++ " ``" else "`" ++ code ++ "`"

/-- The block of a finding: three lines, and one more for each of two texts that may be missing.  Of
the matched text the words are shown, with one space between two of them. -/
structure IsBlock (f : Finding) (block : List String) : Prop where
  length_eq : block.length =
    3 + (if f.cwe.getD "" = "" then 0 else 1) + (if f.fix.getD "" = "" then 0 else 1)
  lines_eq : ∃ words, Text.Spaced words f.text.toList ∧
    block = ["### [" ++ f.severity.name ++ "] " ++ f.title ++ " (" ++ f.rule ++ ")",
        "File: " ++ f.file ++ ":" ++ toString f.line] ++
      (present f.cwe).map ("CWE: " ++ ·) ++
      ["Current: " ++ fenced (String.ofList (Text.joinWith [' '] words))] ++
      (present f.fix).map ("Fix: " ++ ·)

/-- The lines of a page with given blocks and actions. -/
def layout (r : Report) (blocks : List (List String)) (actions : List String) : List String :=
  ["# Docker Security & Optimization Audit", "", "## Summary",
    "- Critical: " ++ toString r.summary.critical, "- High: " ++ toString r.summary.high,
    "- Medium: " ++ toString r.summary.medium, "- Passed: " ++ toString r.summary.passed] ++
  (if r.parseFailures = [] then [] else
    ["", "## Parse Errors"] ++ r.parseFailures.map fun f =>
      "- " ++ f.path ++ f.line.elim "" (fun line => ":" ++ toString line) ++ ": " ++ f.reason) ++
  (if r.ruleFailures = [] then [] else
    ["", "## Rule Errors"] ++ r.ruleFailures.map fun f =>
      "- " ++ f.file ++ ": " ++ f.rule ++ ": " ++ f.reason) ++
  ["", "## Findings"] ++
  (if r.findings = [] then ["", "No findings."] else blocks.flatMap ("" :: ·)) ++
  (if r.findings = [] then [] else
    ["", "## Recommended Actions (Priority Order)"] ++
      actions.mapIdx fun i action => toString (i + 1) ++ ". " ++ action)

/-! ## The parts of the page -/

theorem labelled_eq (label : String) (text : Option String) :
    labelled label text = (present text).map (label ++ ·) := by
  cases text with
  | none => rfl
  | some s =>
      rw [labelled, present, Option.filter_some]
      cases s.isEmpty <;> rfl

theorem inlineCode_eq (text : String) :
    inlineCode text = fenced (String.ofList (Text.joinWith [' '] (Text.words text.toList))) := by
  simp only [inlineCode, fenced, Text.mapChars, Text.squeeze, List.contains_iff_mem]

theorem length_present (text : Option String) :
    (present text).length = if text.getD "" = "" then 0 else 1 := by
  cases text with
  | none => rfl
  | some s =>
      by_cases hs : s = ""
      · subst hs
        rfl
      · simp [present, hs]

theorem isBlock_findingLines (f : Finding) : IsBlock f (findingLines f) where
  length_eq := by
    simp only [findingLines, labelled_eq, List.length_append, List.length_map, length_present,
      List.length_cons, List.length_nil]
    omega
  lines_eq := by
    refine ⟨Text.words f.text.toList, Text.spaced_words _, ?_⟩
    rw [findingLines, labelled_eq, labelled_eq, inlineCode_eq]

theorem parseFailureLine_eq : parseFailureLine = fun f =>
    "- " ++ f.path ++ f.line.elim "" (fun line => ":" ++ toString line) ++ ": " ++ f.reason := by
  funext f
  cases hline : f.line <;> simp [parseFailureLine, hline, String.append_assoc]

theorem titled_map {α : Type} (heading : String) (as : List α) (line : α → String) :
    titled heading (as.map line) = if as = [] then [] else ["", heading] ++ as.map line := by
  cases as <;> rfl

/-- Actions are recommended exactly if there are findings. -/
theorem recommendations_eq_nil_iff (r : Report) {limit : Int} (hlimit : 1 ≤ limit) :
    r.recommendations limit = [] ↔ r.findings = [] := by
  rw [recommendations_eq r hlimit, List.map_eq_nil_iff, ← List.length_eq_zero_iff,
    (introduces_leading r limit).length_eq, Nat.min_eq_zero_iff, Finset.card_eq_zero,
    List.toFinset_eq_empty_iff, List.map_eq_nil_iff]
  have hpos : limit.toNat ≠ 0 := by omega
  exact or_iff_right hpos

theorem summaryLines_eq (s : Summary) :
    summaryLines s =
      ["# Docker Security & Optimization Audit", "", "## Summary",
        "- Critical: " ++ toString s.critical, "- High: " ++ toString s.high,
        "- Medium: " ++ toString s.medium, "- Passed: " ++ toString s.passed] := by
  have hcritical : "- " ++ Severity.critical.label ++ ": " = "- Critical: " := by decide
  have hhigh : "- " ++ Severity.high.label ++ ": " = "- High: " := by decide
  have hmedium : "- " ++ Severity.medium.label ++ ": " = "- Medium: " := by decide
  rw [← hcritical, ← hhigh, ← hmedium]
  rfl

theorem markdownLines_eq (r : Report) {limit : Int} (hlimit : 1 ≤ limit) :
    r.markdownLines limit =
      layout r (r.findings.map findingLines) (r.recommendations limit) := by
  have hactions : titled "## Recommended Actions (Priority Order)"
      (numbered (r.recommendations limit)) =
      if r.findings = [] then [] else ["", "## Recommended Actions (Priority Order)"] ++
        (r.recommendations limit).mapIdx fun i action => toString (i + 1) ++ ". " ++ action := by
    simp only [titled, numbered, List.isEmpty_iff, List.mapIdx_eq_nil_iff,
      recommendations_eq_nil_iff r hlimit]
  have hblocks : findingSection r.findings = ["", "## Findings"] ++
      if r.findings = [] then ["", "No findings."]
      else (r.findings.map findingLines).flatMap ("" :: ·) := by
    simp only [findingSection, List.isEmpty_iff, List.flatMap_map]
  rw [markdownLines, summaryLines_eq, titled_map, titled_map, parseFailureLine_eq, hblocks,
    hactions, layout]
  simp only [List.append_assoc]
  rfl

/-! ## No part spills over -/

theorem isLine_of_mem_present {text : Option String} (h : ∀ s, text = some s → IsLine s)
    {s : String} (hs : s ∈ present text) : IsLine s :=
  h s (Option.filter_eq_some_iff.mp (Option.mem_toList.mp hs)).1

/-- Words with spaces between them go on one line: a line feed is blank. -/
theorem isLine_joinWith {words : List (List Char)} {s : List Char} (h : Text.Spaced words s) :
    IsLine (String.ofList (Text.joinWith [' '] words)) := by
  intro hmem
  rw [String.toList_ofList] at hmem
  rcases Text.mem_joinWith hmem with hspace | ⟨w, hw, hc⟩
  · exact absurd hspace (by decide)
  · have hsolid := h.isBlank_of_mem w hw '\n' hc
    exact absurd hsolid (by decide)

theorem isLine_fenced {code : String} (h : IsLine code) : IsLine (fenced code) := by
  unfold fenced
  split <;> exact isLine_append.mpr ⟨isLine_append.mpr ⟨by decide, h⟩, by decide⟩

theorem IsBlock.isLine {f : Finding} {block : List String} (h : IsBlock f block)
    (hf : FindingOnLines f) : ∀ line ∈ block, IsLine line := by
  obtain ⟨words, hwords, hblock⟩ := h.lines_eq
  have hcode := isLine_fenced (isLine_joinWith hwords)
  have hcwe : ∀ s ∈ present f.cwe, IsLine s := fun s => isLine_of_mem_present hf.cwe
  have hfix : ∀ s ∈ present f.fix, IsLine s := fun s => isLine_of_mem_present hf.fix
  simp +decide only [hblock, List.forall_mem_append, List.forall_mem_cons, List.forall_mem_map,
    isLine_append, isLine_severity, isLine_int, hf.title, hf.rule, hf.file, hcode, true_and,
    and_true]
  exact ⟨hcwe, hfix⟩

theorem isLine_actionText {f : Finding} (hf : FindingOnLines f) (count : Nat) :
    IsLine (actionText f count) := by
  have hcount :
      IsLine (if count = 1 then "1 occurrence" else toString count ++ " occurrences") := by
    split
    · decide
    · exact isLine_append.mpr ⟨isLine_nat count, by decide⟩
  have haction : IsLine ((f.fix.filter fun s => !s.isEmpty).getD f.message) := by
    cases hfix : f.fix.filter fun s => !s.isEmpty with
    | none => exact hf.message
    | some s => exact hf.fix s (Option.filter_eq_some_iff.mp hfix).1
  simp +decide only [actionText, isLine_append, isLine_severity, hf.title, hf.rule, hcount, haction]

theorem isLine_parseFailure {f : ParseFailure} (hpath : IsLine f.path) (hreason : IsLine f.reason) :
    IsLine ("- " ++ f.path ++ f.line.elim "" (fun line => ":" ++ toString line) ++ ": " ++
      f.reason) := by
  have hplace : IsLine (f.line.elim "" fun line => ":" ++ toString line) := by
    cases f.line with
    | none => decide
    | some line => exact isLine_append.mpr ⟨by decide, isLine_int line⟩
  simp +decide only [isLine_append, hpath, hplace, hreason]

/-- A section goes on its lines, whether it is there or not. -/
theorem isLine_section {c : Prop} [Decidable c] {absent lines : List String} {heading : String}
    (habsent : ∀ line ∈ absent, IsLine line) (hheading : IsLine heading)
    (hlines : ∀ line ∈ lines, IsLine line) :
    ∀ line ∈ if c then absent else ["", heading] ++ lines, IsLine line := by
  split
  · exact habsent
  · intro line hline
    rcases List.mem_append.mp hline with hhead | hline
    · rcases List.mem_pair.mp hhead with rfl | rfl
      · decide
      · exact hheading
    · exact hlines line hline

theorem isLine_of_mem_layout {r : Report} (hr : r.OnLines) {blocks : List (List String)}
    (hblocks : ∀ block ∈ blocks, ∀ line ∈ block, IsLine line) {actions : List String}
    (hactions : ∀ action ∈ actions, IsLine action) :
    ∀ line ∈ layout r blocks actions, IsLine line := by
  have hparse : ∀ f ∈ r.parseFailures, IsLine ("- " ++ f.path ++
      f.line.elim "" (fun line => ":" ++ toString line) ++ ": " ++ f.reason) := by
    intro f hf
    obtain ⟨hpath, hreason⟩ := hr.parseFailures f hf
    exact isLine_parseFailure hpath hreason
  have hrule : ∀ f ∈ r.ruleFailures,
      IsLine ("- " ++ f.file ++ ": " ++ f.rule ++ ": " ++ f.reason) := by
    intro f hf
    obtain ⟨hfile, hname, hreason⟩ := hr.ruleFailures f hf
    simp +decide only [isLine_append, hfile, hname, hreason]
  have hnumbered : ∀ line ∈ actions.mapIdx fun i action => toString (i + 1) ++ ". " ++ action,
      IsLine line := by
    intro line hline
    obtain ⟨i, hi, rfl⟩ := List.mem_mapIdx.mp hline
    simp +decide only [isLine_append, isLine_nat, hactions _ (List.getElem_mem hi)]
  have hflat : ∀ line ∈ blocks.flatMap ("" :: ·), IsLine line := by
    intro line hline
    obtain ⟨block, hblock, hmem⟩ := List.mem_flatMap.mp hline
    rcases List.mem_cons.mp hmem with rfl | hmem
    · decide
    · exact hblocks block hblock line hmem
  have hnone : ∀ line ∈ ([] : List String), IsLine line := by simp
  have hfindings : ∀ line ∈ if r.findings = [] then ["", "No findings."]
      else blocks.flatMap ("" :: ·), IsLine line := by
    split
    · decide
    · exact hflat
  simp +decide only [layout, List.forall_mem_append, List.forall_mem_cons, isLine_append,
    isLine_int, true_and, and_true]
  exact ⟨⟨⟨isLine_section hnone (by decide) (List.forall_mem_map.mpr hparse),
    isLine_section hnone (by decide) (List.forall_mem_map.mpr hrule)⟩, hfindings⟩,
    isLine_section hnone (by decide) hnumbered⟩

/-! ## Cutting the page -/

/-- **The page of a report is laid out as its data are.**  Cut at the line feeds, it gives the lines
of the layout, and the empty text behind the last line feed. -/
theorem markdown_layout {r : Report} (hr : r.OnLines) {limit : Int} (hlimit : 1 ≤ limit) :
    ∃ blocks firsts, List.Forall₂ IsBlock r.findings blocks ∧ r.Introduces limit firsts ∧
      Text.splitAt '\n' (r.markdown limit).toList =
        (layout r blocks (firsts.map fun f => actionText f (r.findingsOf f.rule)) ++ [""]).map
          String.toList := by
  have hblocks : List.Forall₂ IsBlock r.findings (r.findings.map findingLines) := by
    rw [List.forall₂_map_right_iff, List.forall₂_same]
    exact fun f _ => isBlock_findingLines f
  refine ⟨r.findings.map findingLines, r.leading limit, hblocks, introduces_leading r limit, ?_⟩
  have hlines : ∀ line ∈ r.markdownLines limit, IsLine line := by
    rw [markdownLines_eq r hlimit]
    refine isLine_of_mem_layout hr ?_ ?_
    · intro block hblock
      obtain ⟨f, hf, rfl⟩ := List.mem_map.mp hblock
      exact (isBlock_findingLines f).isLine (hr.findings f hf)
    · intro action haction
      rw [recommendations_eq r hlimit] at haction
      obtain ⟨f, hf, rfl⟩ := List.mem_map.mp haction
      exact isLine_actionText (hr.findings f (mem_of_mem_leading hf)) _
  have htext : (r.markdown limit).toList =
      Text.joinWith ['\n'] ((r.markdownLines limit ++ [""]).map String.toList) := by
    have hne : (r.markdownLines limit).map String.toList ≠ [] := by
      simp [markdownLines, summaryLines]
    have hfeed : "\n".toList = ['\n'] := by decide
    rw [markdown, String.toList_append, String.toList_intercalate, hfeed, List.map_append,
      List.map_singleton, Text.joinWith_concat hne, Text.joinWith_eq_intercalate,
      String.toList_empty, List.append_nil]
  rw [htext, ← recommendations_eq r hlimit, ← markdownLines_eq r hlimit]
  refine Text.splitAt_joinWith (by simp) ?_
  rw [List.forall_mem_map, List.forall_mem_append]
  exact ⟨hlines, by simp⟩

/-- A report with a text of several lines and backticks, and with a failure that has no place. -/
def severalLines : Report where
  findings :=
    [{ rule := "SEC-010", severity := .high, file := "Dockerfile", line := 2,
       text := "RUN <<E\n\techo `id`\nE\n", message := "Run.", title := "Shell", cwe := some "",
       fix := some "Use exec." }]
  summary := { high := 1 }
  parseFailures := [{ path := "b.yaml", line := none, reason := "empty" }]

theorem onLines_severalLines : severalLines.OnLines where
  findings := by
    simp only [severalLines, List.forall_mem_singleton]
    exact ⟨by decide, by decide, by decide, by decide, by simp [IsLine], by simp [IsLine]⟩
  parseFailures := by
    simp only [severalLines, List.forall_mem_singleton]
    exact ⟨by decide, by decide⟩
  ruleFailures := by
    intro f hf
    exact absurd hf List.not_mem_nil

/-- The page has seven lines for the summary, three for the failure, two over the findings, five for
the one finding, three for the action on it, and the empty text at its end: the text of several
lines takes one of them. -/
theorem markdown_layout_of_several_lines :
    (Text.splitAt '\n' (severalLines.markdown 9).toList).length = 7 + 3 + 2 + 5 + 3 + 1 := by
  obtain ⟨blocks, firsts, hblocks, hfirsts, hsplit⟩ :=
    markdown_layout onLines_severalLines (show (1 : Int) ≤ 9 by decide)
  obtain ⟨block, rest, hblock, hrest, rfl⟩ := List.forall₂_cons_left_iff.mp hblocks
  obtain rfl := List.forall₂_nil_left_iff.mp hrest
  have hlength : block.length = 4 := hblock.length_eq
  have hactions : firsts.length = 1 := hfirsts.length_eq
  rw [hsplit]
  simp [layout, severalLines, hlength, hactions]

end ContainerAudit.Report
