import ContainerAudit.Proofs.Dockerfile.Stage
import ContainerAudit.Proofs.Text.Occurrence
import ContainerAudit.Proofs.Text.ShellWords
import ContainerAudit.Rule.Registry

/-!
# Names of variables

An `ENV` or `ARG` sets variables to values, and only their names tell whether a secret is set.  The
names come out of the same splitting as the values, so the question is whether a value can pass for
a name, or hide one: with blanks, quotes, equals signs or line ends in it.

If the values are quoted it cannot.  Whatever they are, the names of the variables are found, all of
them and in their order (`variableNames_assignments`), and the rule on secrets decides by them alone
(`assignments_report_secret_names`).
-/

namespace ContainerAudit

open ContainerAudit.Text

namespace Dockerfile

/-- A variable set to a value, with the value between single quotes. -/
def assignment (name value : List Char) : List Char :=
  name ++ '=' :: singleQuoted value

def assignments (pairs : List (List Char × List Char)) : List Char :=
  joinWith [' '] (pairs.map fun pair => assignment pair.1 pair.2)

/-- A name for a variable: not empty, and without equals signs, blanks, quotes and backslashes. -/
structure IsVariableName (name : List Char) : Prop where
  ne_nil : name ≠ []
  literal : ∀ c ∈ name, IsLiteral c
  no_equals : '=' ∉ name

namespace IsVariableName

variable {name : List Char} (h : IsVariableName name)

include h

theorem spellsWord_assignment (value : List Char) :
    SpellsWord (assignment name value) (name ++ '=' :: value) := by
  have hequals : IsLiteral '=' := by decide
  have hstart : ∀ c ∈ name ++ ['='], IsLiteral c :=
    List.forall_mem_append.mpr ⟨h.literal, List.forall_mem_singleton.mpr hequals⟩
  have hspells : SpellsWord (name ++ ['=']) (name ++ ['=']) :=
    spellsWord_literals (by simp) hstart
  intro rest
  have hsplit : assignment name value ++ rest =
      (name ++ ['=']) ++ (singleQuoted value ++ rest) := by
    simp [assignment]
  rw [hsplit, hspells, shellWordsFrom_singleQuoted, ← List.reverse_append, List.append_assoc]
  rfl

theorem beforeEquals_eq (value : List Char) : beforeEquals (name ++ '=' :: value) = name := by
  have hname : ∀ c ∈ name, (c != '=') = true := by
    intro c hc
    rw [bne_iff_ne]
    rintro rfl
    exact h.no_equals hc
  rw [beforeEquals, List.takeWhile_append_of_pos hname, List.takeWhile_cons_of_neg (by simp),
    List.append_nil]

end IsVariableName

section Assignments

variable {pairs : List (List Char × List Char)} (h : ∀ pair ∈ pairs, IsVariableName pair.1)

include h

theorem splitWords_assignments :
    splitWords (assignments pairs) = pairs.map fun pair => pair.1 ++ '=' :: pair.2 := by
  have hspells : List.Forall₂ SpellsWord (pairs.map fun pair => assignment pair.1 pair.2)
      (pairs.map fun pair => pair.1 ++ '=' :: pair.2) := by
    rw [List.forall₂_map_left_iff, List.forall₂_map_right_iff]
    exact List.forall₂_same.mpr fun pair hpair => (h pair hpair).spellsWord_assignment pair.2
  rw [splitWords, assignments, shellWords?_joinWith hspells, Option.getD_some]

theorem variableNames_assignments (keyword : String) :
    variableNames keyword (assignments pairs) = pairs.map (·.1) := by
  have hnames : ((pairs.map fun pair => pair.1 ++ '=' :: pair.2).map beforeEquals).filter
      (!·.isEmpty) = pairs.map (·.1) := by
    have hbefore : ∀ pair ∈ pairs,
        (beforeEquals ∘ fun pair => pair.1 ++ '=' :: pair.2) pair = pair.1 :=
      fun pair hpair => (h pair hpair).beforeEquals_eq pair.2
    rw [List.map_map, List.map_congr_left hbefore]
    refine List.filter_eq_self.mpr fun name hname => ?_
    obtain ⟨pair, hpair, rfl⟩ := List.mem_map.mp hname
    simpa using (h pair hpair).ne_nil
  rw [variableNames, splitWords_assignments h]
  cases pairs with
  | nil => rfl
  | cons first rest =>
      -- The first word has an equals sign, so this is never taken for the form with one variable.
      have hequals : (first.1 ++ '=' :: first.2).contains '=' = true := by simp
      simp only [List.map_cons, hequals, Bool.not_true, Bool.and_false, Bool.false_eq_true,
        if_false]
      exact hnames

end Assignments

end Dockerfile

namespace Rule

open ContainerAudit.Dockerfile (Document Instruction IsVariableName assignments variableNames)

theorem isSecretName_iff {keywords : List String} {name : List Char} :
    isSecretName keywords name = true ↔
      ∃ keyword ∈ keywords, lower keyword.toList <:+: lower name := by
  simp only [isSecretName, List.any_eq_true, hasPart_iff]

theorem mem_secretInVariable_singleton {i : Instruction} {p : Patterns} {m : Match}
    (h : m ∈ secretInVariable (.ofInstructions [i]) p) : m.line = i.line ∧ m.text = i.text := by
  obtain ⟨j, hj, hm⟩ := List.mem_filterMap.mp h
  obtain rfl := List.mem_singleton.mp hj
  obtain ⟨name, -, rfl⟩ := Option.map_eq_some_iff.mp hm
  exact ⟨rfl, rfl⟩

/-- An instruction is reported exactly if one of the names that it declares is that of a secret. -/
theorem secretInVariable_singleton_ne_nil_iff {i : Instruction} {p : Patterns}
    (hkeyword : i.keyword = "ENV" ∨ i.keyword = "ARG") :
    secretInVariable (.ofInstructions [i]) p ≠ [] ↔
      ∃ name ∈ variableNames i.keyword i.arguments.toList,
        isSecretName (p.entries .secretNameKeywords) name = true := by
  have hmem : hasKeyword ["ENV", "ARG"] i = true := by simpa [hasKeyword] using hkeyword
  rw [← List.find?_isSome, secretInVariable, Document.ofInstructions, List.filterMap_cons,
    declaredSecret?, if_pos hmem]
  cases (variableNames i.keyword i.arguments.toList).find?
    (isSecretName (p.entries .secretNameKeywords)) <;> simp

/-- The rule looks at each instruction alone. -/
theorem secretInVariable_append_cons (before after : List Instruction) (i : Instruction)
    (p : Patterns) :
    secretInVariable (.ofInstructions (before ++ i :: after)) p =
      secretInVariable (.ofInstructions before) p ++ secretInVariable (.ofInstructions [i]) p ++
        secretInVariable (.ofInstructions after) p := by
  rw [secretInVariable, Document.ofInstructions, ← List.singleton_append, List.filterMap_append,
    List.filterMap_append, ← List.append_assoc]
  rfl

/-- **The names of variables are found whatever their values,** and a secret is reported exactly if
one of the names holds a keyword, whether its letters are capital ones or not. -/
theorem assignments_report_secret_names (pairs : List (List Char × List Char))
    (h : ∀ pair ∈ pairs, IsVariableName pair.1) :
    (Registry.standard.get? "SEC-003").map Rule.check = some (.ofDockerfile secretInVariable) ∧
    (∀ keyword, variableNames keyword (assignments pairs) = pairs.map (·.1)) ∧
    ∀ (i : Instruction) (p : Patterns), i.keyword = "ENV" ∨ i.keyword = "ARG" →
      i.arguments.toList = assignments pairs →
      (∀ before after, secretInVariable (.ofInstructions (before ++ i :: after)) p =
        secretInVariable (.ofInstructions before) p ++ secretInVariable (.ofInstructions [i]) p ++
          secretInVariable (.ofInstructions after) p) ∧
      (∀ m ∈ secretInVariable (.ofInstructions [i]) p, m.line = i.line ∧ m.text = i.text) ∧
      (secretInVariable (.ofInstructions [i]) p ≠ [] ↔ ∃ pair ∈ pairs,
        ∃ keyword ∈ p.entries .secretNameKeywords, lower keyword.toList <:+: lower pair.1) := by
  refine ⟨rfl, Dockerfile.variableNames_assignments h, fun i p hkeyword harguments => ?_⟩
  refine ⟨fun before after => secretInVariable_append_cons before after i p,
    fun m => mem_secretInVariable_singleton, ?_⟩
  rw [secretInVariable_singleton_ne_nil_iff hkeyword, harguments,
    Dockerfile.variableNames_assignments h]
  simp only [List.mem_map, exists_exists_and_eq_and, isSecretName_iff]

/-- A value that speaks of a token is not reported, whatever stands in it, and an empty password
is. -/
theorem assignments_report_password_only :
    let quiet : Instruction := ⟨"ENV", "home='it'\"'\"'s a TOKEN=1\n'", 1, 0⟩
    let loud : Instruction := ⟨"ARG", "home='it'\"'\"'s a TOKEN=1\n' Db_PassWord=''", 2, 0⟩
    variableNames "ARG" loud.arguments.toList = ["home".toList, "Db_PassWord".toList] ∧
      secretInVariable ⟨[quiet], 1⟩ .standard = [] ∧
      secretInVariable ⟨[loud], 1⟩ .standard ≠ [] := by
  intro quiet loud
  have hhome : IsVariableName "home".toList :=
    ⟨by decide, isLiteral_of_all (by decide), by decide⟩
  have hpassword : IsVariableName "Db_PassWord".toList :=
    ⟨by decide, isLiteral_of_all (by decide), by decide⟩
  obtain ⟨-, -, hquiet⟩ := assignments_report_secret_names
    [("home".toList, "it's a TOKEN=1\n".toList)] (List.forall_mem_singleton.mpr hhome)
  obtain ⟨-, hnames, hloud⟩ := assignments_report_secret_names
    [("home".toList, "it's a TOKEN=1\n".toList), ("Db_PassWord".toList, [])]
    (List.forall_mem_cons.mpr ⟨hhome, List.forall_mem_singleton.mpr hpassword⟩)
  have hloudArguments : loud.arguments.toList = assignments
      [("home".toList, "it's a TOKEN=1\n".toList), ("Db_PassWord".toList, [])] := by decide
  refine ⟨hloudArguments ▸ hnames "ARG", ?_, ?_⟩
  · refine not_not.mp (mt (hquiet quiet .standard (.inl rfl) (by decide)).2.2.mp ?_)
    decide +kernel
  · refine (hloud loud .standard (.inr rfl) hloudArguments).2.2.mpr ?_
    exact ⟨_, List.mem_cons_of_mem _ List.mem_cons_self, "password", by decide, by decide +kernel⟩

end Rule

end ContainerAudit
