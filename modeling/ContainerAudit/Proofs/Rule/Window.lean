import ContainerAudit.Proofs.Rule.Anchoring
import ContainerAudit.Proofs.Text.Occurrence

/-!
# What a rule sees behind an instruction

Two rules report a copy because of a command that comes later in the same stage: one that removes a
secret file again, and one that installs dependencies behind a copy of the whole context.  Both look
through the rest of the stage for the first such command and quote its line.

The rest of a stage is got by its number.  In terms of the file it is a window: the instructions
behind the copy that have its number, in their order (`mem_stages_withMessage`), and the command
found is the first of its kind in it (`FirstBehind`).  What the two kinds of commands are is said
without patterns, by what stands in the arguments (`Removes`, `Installs`).

Since the window ends with the stage, the matches on a stage depend on that stage alone
(`atStage_stages`).
-/

namespace ContainerAudit.Rule

open ContainerAudit.Text
open ContainerAudit.Dockerfile (Instruction Document Staged parse copySources)

/-! ## Windows -/

/-- The first instruction behind another one in its stage that has a property. -/
def FirstBehind (is : List Instruction) (P : Instruction → Prop) (i j : Instruction) : Prop :=
  ∃ before between after, is = before ++ i :: (between ++ j :: after) ∧ j.stage = i.stage ∧ P j ∧
    ∀ k ∈ between, k.stage = i.stage → ¬P k

theorem FirstBehind.line_lt {is : List Instruction} {P : Instruction → Prop} {i j : Instruction}
    (h : FirstBehind is P i j) (his : is.Pairwise fun i j => i.line < j.line) :
    i.line < j.line := by
  obtain ⟨before, between, after, rfl, -⟩ := h
  have hbehind := (List.pairwise_cons.mp (List.pairwise_append.mp his).2.1).1
  exact hbehind j (by simp)

theorem mem_withMessage {f : Instruction → List Instruction → Option String}
    {is : List Instruction} {m : Match} :
    m ∈ withMessage f is ↔ ∃ before i rest message, is = before ++ i :: rest ∧
      f i rest = some message ∧ m = matchAt i (some message) := by
  induction is with
  | nil => simp [withMessage, withRest]
  | cons i is ih =>
      rw [withMessage_cons, List.mem_append, ih]
      constructor
      · rintro (hm | ⟨before, j, rest, message, rfl, hf, rfl⟩)
        · obtain ⟨message, hf, rfl⟩ := Option.map_eq_some_iff.mp (Option.mem_toList.mp hm)
          exact ⟨[], i, is, message, rfl, hf, rfl⟩
        · exact ⟨i :: before, j, rest, message, rfl, hf, rfl⟩
      · rintro ⟨before, j, rest, message, his, hf, rfl⟩
        cases before with
        | nil =>
            obtain ⟨rfl, rfl⟩ := List.cons.inj his
            exact .inl (Option.mem_toList.mpr (Option.map_eq_some_iff.mpr ⟨message, hf, rfl⟩))
        | cons k before =>
            obtain ⟨rfl, rfl⟩ := List.cons.inj his
            exact .inr ⟨before, j, rest, message, rfl, hf, rfl⟩

/-- What is behind an instruction in its stage is what is behind it in the file and has its
number. -/
theorem mem_stages_withMessage {d : Document} (h : d.WellStaged)
    {f : Instruction → List Instruction → Option String} {m : Match} :
    m ∈ d.stages.flatMap (withMessage f) ↔ ∃ before i rest message,
      d.instructions = before ++ i :: rest ∧
      f i (rest.filter (·.stage == i.stage)) = some message ∧ m = matchAt i (some message) := by
  simp only [Document.stages, List.flatMap_map, List.mem_flatMap, List.mem_range, mem_withMessage,
    Document.stage]
  constructor
  · rintro ⟨k, -, before, i, rest, message, hstage, hf, hm⟩
    obtain ⟨front, back, hd, -, hback⟩ := List.filter_eq_append_iff.mp hstage
    obtain ⟨skipped, rest, rfl, -, hi, rfl⟩ := List.filter_eq_cons_iff.mp hback
    obtain rfl : i.stage = k := beq_iff_eq.mp hi
    exact ⟨front ++ skipped, i, rest, message, by rw [hd, List.append_assoc], hf, hm⟩
  · rintro ⟨before, i, rest, message, hd, hf, hm⟩
    have hi : i ∈ d.instructions := by simp [hd]
    refine ⟨i.stage, Document.stage_lt_stageCount h i hi, before.filter (·.stage == i.stage), i, _,
      message, ?_, hf, hm⟩
    rw [hd, List.filter_append, List.filter_cons_of_pos (by simp)]

/-- A search through the rest of a stage finds the first instruction behind another one. -/
theorem firstBehind_iff {is : List Instruction} {test : Instruction → Bool}
    {P : Instruction → Prop} (htest : ∀ j, test j = true ↔ P j) {i j : Instruction} :
    FirstBehind is P i j ↔ ∃ before rest, is = before ++ i :: rest ∧
      (rest.filter (·.stage == i.stage)).find? test = some j := by
  simp only [FirstBehind, List.find?_filter, List.find?_eq_some_iff_append]
  constructor
  · rintro ⟨before, between, after, his, hstage, hj, hbetween⟩
    refine ⟨before, between ++ j :: after, his, ?_, between, after, rfl, fun k hk => ?_⟩
    · simp [hstage, (htest j).mpr hj]
    · by_cases hk' : k.stage = i.stage
      · simp [Bool.eq_false_iff.mpr fun ht => hbetween k hk hk' ((htest k).mp ht)]
      · simp [hk']
  · rintro ⟨before, rest, his, hj, between, after, rfl, hbetween⟩
    obtain ⟨hstage, hj⟩ : j.stage = i.stage ∧ test j = true := by simpa using hj
    refine ⟨before, between, after, his, hstage, (htest j).mp hj, fun k hk hk' hP => ?_⟩
    simpa [hk', (htest k).mpr hP] using hbetween k hk

/-- A rule that looks behind each instruction of some kind for the first one that has a property in
view of it, and quotes its line. -/
theorem mem_stages_quoting {d : Document} (h : d.WellStaged)
    {f : Instruction → List Instruction → Option String} {starts : Instruction → Bool}
    (test : Instruction → Instruction → Bool) {P : Instruction → Instruction → Prop}
    (quote : Nat → String) (htest : ∀ i j, test i j = true ↔ P i j)
    (hf : ∀ i rest, f i rest =
      if starts i then (rest.find? (test i)).map fun j => quote j.line else none) {m : Match} :
    m ∈ d.stages.flatMap (withMessage f) ↔ ∃ i j, starts i = true ∧
      FirstBehind d.instructions (P i) i j ∧ m = matchAt i (some (quote j.line)) := by
  rw [mem_stages_withMessage h]
  constructor
  · rintro ⟨before, i, rest, message, hd, hmessage, rfl⟩
    rw [hf] at hmessage
    obtain ⟨hstarts, hmessage⟩ := Option.ite_none_right_eq_some.mp hmessage
    obtain ⟨j, hj, rfl⟩ := Option.map_eq_some_iff.mp hmessage
    exact ⟨i, j, hstarts, (firstBehind_iff (htest i)).mpr ⟨before, rest, hd, hj⟩, rfl⟩
  · rintro ⟨i, j, hstarts, hfirst, rfl⟩
    obtain ⟨before, rest, hd, hj⟩ := (firstBehind_iff (htest i)).mp hfirst
    refine ⟨before, i, rest, quote j.line, hd, ?_, rfl⟩
    rw [hf, if_pos hstarts, hj, Option.map_some]

/-! ## The kinds of commands -/

/-- The instruction runs `rm` where a command starts, and has one of the names as a word of its own
or at the end of a path. -/
structure Removes (names : List (List Char)) (j : Instruction) : Prop where
  keyword : j.keyword = "RUN"
  command : ∃ before after, j.arguments.toList = before ++ "rm".toList ++ after ∧
    (∀ c ∈ before.getLast?, isBlank c = true ∨ c ∈ [';', '&', '|', '(']) ∧
    ∃ c ∈ after.head?, isBlank c = true
  file : ∃ name ∈ names, ∃ before after, j.arguments.toList = before ++ name ++ after ∧
    (∀ c ∈ before.getLast?, isBlank c = true ∨ c ∈ ['/', '\'', '"']) ∧
    ∀ c ∈ after.head?, isBlank c = true ∨ c ∈ ['\'', '"', ';', '&', '|', ')']

/-- The instruction runs something with one of the commands in it. -/
structure Installs (commands : List String) (j : Instruction) : Prop where
  keyword : j.keyword = "RUN"
  command : ∃ command ∈ commands, command.toList <:+: j.arguments.toList

theorem finds_removeCommand_iff {j : Instruction} :
    finds removeCommand j = true ↔
      ∃ before after, j.arguments.toList = before ++ "rm".toList ++ after ∧
        (∀ c ∈ before.getLast?, isBlank c = true ∨ c ∈ [';', '&', '|', '(']) ∧
        ∃ c ∈ after.head?, isBlank c = true := by
  have hblank : ∀ p : Place, Pattern.blank.matchesAt p = true ↔
      ∃ c ∈ p.rest.head?, isBlank c = true := by
    rintro ⟨before, text⟩
    cases text <;> simp [Pattern.blank, Pattern.matchesAt, Pattern.leads]
  rw [finds, removeCommand, commandStart, Pattern.foundIn_behind_iff]
  simp only [hblank, Bool.or_eq_true, List.contains_iff_mem]

theorem finds_asFile_iff {name : List Char} {j : Instruction} :
    finds (asFile name) j = true ↔
      ∃ before after, j.arguments.toList = before ++ name ++ after ∧
        (∀ c ∈ before.getLast?, isBlank c = true ∨ c ∈ ['/', '\'', '"']) ∧
        ∀ c ∈ after.head?, isBlank c = true ∨ c ∈ ['\'', '"', ';', '&', '|', ')'] := by
  rw [finds, asFile, Pattern.foundIn_behind_iff]
  have hends := @Pattern.matchesAt_ending_iff
    (fun c => isBlank c || ['\'', '"', ';', '&', '|', ')'].contains c) (by decide)
  simp only [hends, Bool.or_eq_true, List.contains_iff_mem]

theorem removes_iff {names : List (List Char)} {j : Instruction} :
    removes names j = true ↔ Removes names j := by
  rw [removes, Bool.and_eq_true, Bool.and_eq_true, beq_iff_eq, finds_removeCommand_iff,
    List.any_eq_true]
  simp only [finds_asFile_iff]
  exact ⟨fun ⟨⟨hkeyword, hcommand⟩, hfile⟩ => ⟨hkeyword, hcommand, hfile⟩,
    fun ⟨hkeyword, hcommand, hfile⟩ => ⟨⟨hkeyword, hcommand⟩, hfile⟩⟩

theorem installsDependencies_iff {commands : List String} {j : Instruction} :
    installsDependencies commands j = true ↔ Installs commands j := by
  rw [installsDependencies, Bool.and_eq_true, beq_iff_eq, List.any_eq_true]
  simp only [mentions, hasPart_iff]
  exact ⟨fun ⟨hkeyword, hcommand⟩ => ⟨hkeyword, hcommand⟩,
    fun ⟨hkeyword, hcommand⟩ => ⟨hkeyword, hcommand⟩⟩

theorem isCopy_iff {i : Instruction} :
    isCopy i = true ↔ i.keyword = "COPY" ∨ i.keyword = "ADD" := by
  simp [isCopy, hasKeyword]

theorem copiesContext_iff {i : Instruction} :
    copiesContext i = true ↔ (i.keyword = "COPY" ∨ i.keyword = "ADD") ∧
      ¬"--from=".toList <:+: i.arguments.toList ∧
      ∃ source ∈ copySources i.arguments.toList, source ∈ broadSources := by
  rw [copiesContext, Bool.and_eq_true, Bool.and_eq_true, isCopy_iff, Bool.not_eq_true',
    ← Bool.not_eq_true, mentions, hasPart_iff, List.any_eq_true, and_assoc]
  simp only [List.contains_iff_mem]

/-! ## Stages apart -/

def atStage (d : Document) (k : Nat) (found : List Match) : List Match :=
  found.filter fun m => (d.stage k).any fun i => m.line == i.line

theorem flatMap_range_ite {α : Type} (n k : Nat) (l : List α) :
    (List.range n).flatMap (fun j => if j = k then l else []) = if k < n then l else [] := by
  induction n with
  | zero => rfl
  | succ n ih =>
      rw [List.range_succ, List.flatMap_append, ih, List.flatMap_singleton]
      rcases Nat.lt_trichotomy k n with hlt | rfl | hgt
      · rw [if_pos hlt, if_neg (Nat.ne_of_gt hlt), if_pos (Nat.lt_succ_of_lt hlt), List.append_nil]
      · rw [if_neg (Nat.lt_irrefl k), if_pos rfl, if_pos (Nat.lt_succ_self k), List.nil_append]
      · rw [if_neg (Nat.lt_asymm hgt), if_neg (Nat.ne_of_lt hgt),
          if_neg (Nat.not_lt.mpr hgt), List.append_nil]

/-- A rule that goes through the stages one by one reports on a stage what it finds in it. -/
theorem atStage_stages {text : String} {d : Document} (h : parse text = .ok d)
    {g : List Instruction → List Match} (hg : ∀ is, Anchored is (g is)) (k : Nat) :
    atStage d k (d.stages.flatMap g) = g (d.stage k) := by
  have hstaged := Dockerfile.parse_wellStaged h
  -- A match of stage `j` is at a line of stage `j`, and no line belongs to two stages.
  have hblock : ∀ j, atStage d k (g (d.stage j)) = if j = k then g (d.stage k) else [] := by
    intro j
    by_cases hjk : j = k
    · subst hjk
      rw [if_pos rfl]
      refine List.filter_eq_self.mpr fun m hm => ?_
      obtain ⟨i, hi, hline, -⟩ := (hg _).exists_instruction m hm
      exact List.any_eq_true.mpr ⟨i, hi, beq_iff_eq.mpr hline⟩
    · rw [if_neg hjk]
      refine List.filter_eq_nil_iff.mpr fun m hm hany => hjk ?_
      obtain ⟨i, hi, hline, -⟩ := (hg _).exists_instruction m hm
      obtain ⟨i', hi', hline'⟩ := List.any_eq_true.mp hany
      obtain ⟨hi, hij⟩ := List.mem_filter.mp hi
      obtain ⟨hi', hik⟩ := List.mem_filter.mp hi'
      have hsame : i.line = i'.line :=
        Int.ofNat.inj (hline.symm.trans (beq_iff_eq.mp hline'))
      obtain rfl := Dockerfile.eq_of_line_eq h hi hi' hsame
      exact (beq_iff_eq.mp hij).symm.trans (beq_iff_eq.mp hik)
  have hsplit : atStage d k (d.stages.flatMap g) =
      (List.range d.stageCount).flatMap fun j => atStage d k (g (d.stage j)) := by
    rw [Document.stages, List.flatMap_map, atStage, List.filter_flatMap]
    rfl
  rw [hsplit, funext hblock, flatMap_range_ite]
  split
  · rfl
  · next hge =>
      have hempty : d.stage k = [] := by
        refine List.filter_eq_nil_iff.mpr fun i hi hik => hge ?_
        rw [← beq_iff_eq.mp hik]
        exact Document.stage_lt_stageCount hstaged i hi
      rw [hempty]
      exact (List.map_eq_nil_iff.mp (List.sublist_nil.mp (hg []))).symm

/-! ## The two rules -/

section Rules

variable {d : Document} {p : Patterns} {m : Match}

theorem mem_secretRemovedLater (h : d.WellStaged) :
    m ∈ secretRemovedLater d p ↔ ∃ i j, isCopy i = true ∧
      FirstBehind d.instructions
        (Removes (secretNames (p.entries .secretFilePatterns) i.arguments.toList)) i j ∧
      m = matchAt i (some
      s!"Secret file copied here is removed on line {j.line}, but remains in the earlier layer.") :=
  mem_stages_quoting h
    (fun i => removes (secretNames (p.entries .secretFilePatterns) i.arguments.toList))
    (fun line =>
      s!"Secret file copied here is removed on line {line}, but remains in the earlier layer.")
    (fun _ _ => removes_iff) fun _ _ => rfl

theorem mem_contextCopiedFirst (h : d.WellStaged) :
    m ∈ contextCopiedFirst d p ↔ ∃ i j, copiesContext i = true ∧
      FirstBehind d.instructions (Installs (p.entries .dependencyInstallCommands)) i j ∧
      m = matchAt i (some
        s!"Dependencies are installed on line {j.line}, after the full context copy.") :=
  mem_stages_quoting h (fun _ => installsDependencies (p.entries .dependencyInstallCommands))
    (fun line =>
      s!"Dependencies are installed on line {line}, after the full context copy.")
    (fun _ _ => installsDependencies_iff) fun _ _ => rfl

end Rules

/-- A copy of secret files is reported exactly if a command behind it in its stage removes one of
them, and a copy of the context exactly if one behind it installs dependencies; each match quotes
the line of the first such command.  What is reported on a stage depends on no other one. -/
theorem parse_reports_stage_window {text : String} {d : Document} (h : parse text = .ok d)
    (p : Patterns) :
    (Registry.standard.get? "SEC-010").map Rule.check = some (.ofDockerfile secretRemovedLater) ∧
    (Registry.standard.get? "OPT-003").map Rule.check = some (.ofDockerfile contextCopiedFirst) ∧
    (∀ m, m ∈ secretRemovedLater d p ↔ ∃ i j, (i.keyword = "COPY" ∨ i.keyword = "ADD") ∧
      secretNames (p.entries .secretFilePatterns) i.arguments.toList ≠ [] ∧
      FirstBehind d.instructions
        (Removes (secretNames (p.entries .secretFilePatterns) i.arguments.toList)) i j ∧
      i.line < j.line ∧
      m = matchAt i (some
      s!"Secret file copied here is removed on line {j.line}, but remains in the earlier layer.")) ∧
    (∀ m, m ∈ contextCopiedFirst d p ↔ ∃ i j, (i.keyword = "COPY" ∨ i.keyword = "ADD") ∧
      ¬"--from=".toList <:+: i.arguments.toList ∧
      (∃ source ∈ copySources i.arguments.toList, source ∈ broadSources) ∧
      FirstBehind d.instructions (Installs (p.entries .dependencyInstallCommands)) i j ∧
      i.line < j.line ∧
      m = matchAt i (some
        s!"Dependencies are installed on line {j.line}, after the full context copy.")) ∧
    ∀ text' d' k, parse text' = .ok d' → d'.stage k = d.stage k →
      atStage d' k (secretRemovedLater d' p) = atStage d k (secretRemovedLater d p) ∧
      atStage d' k (contextCopiedFirst d' p) = atStage d k (contextCopiedFirst d p) := by
  have hstaged := Dockerfile.parse_wellStaged h
  have hlines := Dockerfile.parse_pairwise_line h
  refine ⟨rfl, rfl, fun m => ?_, fun m => ?_, fun text' d' k h' hk => ?_⟩
  · rw [mem_secretRemovedLater hstaged]
    constructor
    · rintro ⟨i, j, hcopy, hfirst, rfl⟩
      have hnames : secretNames (p.entries .secretFilePatterns) i.arguments.toList ≠ [] := by
        obtain ⟨-, -, -, -, -, hj, -⟩ := hfirst
        obtain ⟨name, hname, -⟩ := hj.file
        exact List.ne_nil_of_mem hname
      exact ⟨i, j, isCopy_iff.mp hcopy, hnames, hfirst, hfirst.line_lt hlines, rfl⟩
    · rintro ⟨i, j, hcopy, -, hfirst, -, rfl⟩
      exact ⟨i, j, isCopy_iff.mpr hcopy, hfirst, rfl⟩
  · rw [mem_contextCopiedFirst hstaged]
    constructor
    · rintro ⟨i, j, hcopies, hfirst, rfl⟩
      obtain ⟨hcopy, hfrom, hbroad⟩ := copiesContext_iff.mp hcopies
      exact ⟨i, j, hcopy, hfrom, hbroad, hfirst, hfirst.line_lt hlines, rfl⟩
    · rintro ⟨i, j, hcopy, hfrom, hbroad, hfirst, -, rfl⟩
      exact ⟨i, j, copiesContext_iff.mpr ⟨hcopy, hfrom, hbroad⟩, hfirst, rfl⟩
  · have hapart : ∀ f : Instruction → List Instruction → Option String,
        atStage d' k (d'.stages.flatMap (withMessage f)) =
          atStage d k (d.stages.flatMap (withMessage f)) := by
      intro f
      rw [atStage_stages h' (anchored_withMessage f), atStage_stages h (anchored_withMessage f), hk]
    exact ⟨hapart _, hapart _⟩

/-- Both copies of the first stage are reported, whatever the second stage copies and removes. -/
theorem parse_reports_stage_window_of_two :
    let first : List Instruction := [⟨"FROM", "a", 1, 0⟩, ⟨"COPY", ".env /app/", 2, 0⟩,
      ⟨"COPY", ". /app", 3, 0⟩, ⟨"RUN", "npm ci", 4, 0⟩, ⟨"RUN", "cd /app && rm .env", 5, 0⟩]
    let d : Document := ⟨first ++ [⟨"FROM", "b", 6, 1⟩, ⟨"RUN", "rm /x/.env", 7, 1⟩], 2⟩
    let d' : Document := ⟨first ++ [⟨"FROM", "c", 6, 1⟩, ⟨"ADD", "id_rsa k", 7, 1⟩,
      ⟨"RUN", "rm k", 8, 1⟩], 2⟩
    parse ("FROM a\nCOPY .env /app/\nCOPY . /app\nRUN npm ci\nRUN cd /app && rm .env\n" ++
      "FROM b\nRUN rm /x/.env\n") = .ok d ∧
    matchAt ⟨"COPY", ".env /app/", 2, 0⟩ (some
        "Secret file copied here is removed on line 5, but remains in the earlier layer.") ∈
      secretRemovedLater d .standard ∧
    matchAt ⟨"COPY", ". /app", 3, 0⟩ (some
        "Dependencies are installed on line 4, after the full context copy.") ∈
      contextCopiedFirst d .standard ∧
    atStage d' 0 (secretRemovedLater d' .standard) =
      atStage d 0 (secretRemovedLater d .standard) := by
  intro first d d'
  have h : parse ("FROM a\nCOPY .env /app/\nCOPY . /app\nRUN npm ci\nRUN cd /app && rm .env\n" ++
      "FROM b\nRUN rm /x/.env\n") = .ok d := by decide +kernel
  have h' : parse ("FROM a\nCOPY .env /app/\nCOPY . /app\nRUN npm ci\nRUN cd /app && rm .env\n" ++
      "FROM c\nADD id_rsa k\nRUN rm k\n") = .ok d' := by decide +kernel
  obtain ⟨-, -, hsecret, hcontext, hapart⟩ := parse_reports_stage_window h .standard
  refine ⟨h, (hsecret _).mpr ?_, (hcontext _).mpr ?_, (hapart _ d' 0 h' (by decide +kernel)).1⟩
  · refine ⟨⟨"COPY", ".env /app/", 2, 0⟩, ⟨"RUN", "cd /app && rm .env", 5, 0⟩, .inl rfl,
      by decide +kernel, ?_, by decide, rfl⟩
    refine ⟨[⟨"FROM", "a", 1, 0⟩], [⟨"COPY", ". /app", 3, 0⟩, ⟨"RUN", "npm ci", 4, 0⟩], _, rfl, rfl,
      removes_iff.mp (by decide +kernel), ?_⟩
    simp only [← removes_iff]
    decide +kernel
  · refine ⟨⟨"COPY", ". /app", 3, 0⟩, ⟨"RUN", "npm ci", 4, 0⟩, .inl rfl, ?_, by decide +kernel, ?_,
      by decide, rfl⟩
    · rw [← hasPart_iff]
      decide
    · exact ⟨[⟨"FROM", "a", 1, 0⟩, ⟨"COPY", ".env /app/", 2, 0⟩], [], _, rfl, rfl,
        installsDependencies_iff.mp (by decide +kernel), by simp⟩

end ContainerAudit.Rule
