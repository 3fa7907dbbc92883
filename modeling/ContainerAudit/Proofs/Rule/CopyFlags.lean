import ContainerAudit.Proofs.Dockerfile.ArrayWords
import ContainerAudit.Proofs.Rule.Window

/-!
# Copies with flags

Flags come before the paths of a copy.  If the paths are given as shell words, flags in front of
them change neither the paths nor what is said of the copy.  If they are given as an array, a flag
hides it: the text no longer begins with a bracket, so that it is split into shell words, and these
are never the texts of the array (`flags_keep_paths_unless_array`).

A remote file that is fetched without a checksum is then not found any more, and a local file is
found where there is none (`flag_hides_array`).
-/

namespace ContainerAudit

namespace Dockerfile

open ContainerAudit.Text

/-- A flag that is written without blanks, quotes and backslashes. -/
structure IsPlainFlag (flag : List Char) : Prop where
  hyphens : isFlag flag = true
  literal : ∀ c ∈ flag, IsLiteral c

theorem IsPlainFlag.exists_cons {flag : List Char} (h : IsPlainFlag flag) :
    ∃ rest, flag = '-' :: rest := by
  obtain ⟨rest, hrest⟩ := List.isPrefixOf_iff_prefix.mp h.hyphens
  exact ⟨'-' :: rest, hrest.symm⟩

theorem IsPlainFlag.ne_nil {flag : List Char} (h : IsPlainFlag flag) : flag ≠ [] := by
  obtain ⟨rest, rfl⟩ := h.exists_cons
  exact List.cons_ne_nil _ _

/-- The arguments with flags in front of them. -/
def withFlags (flags : List (List Char)) (a : List Char) : List Char :=
  flags.foldr (fun flag rest => flag ++ ' ' :: rest) a

/-- The instruction with flags in front of its arguments. -/
def Instruction.withFlags (flags : List (List Char)) (i : Instruction) : Instruction :=
  { i with arguments := mapChars (Dockerfile.withFlags flags) i.arguments }

theorem Instruction.keyword_withFlags (flags : List (List Char)) (i : Instruction) :
    (i.withFlags flags).keyword = i.keyword :=
  rfl

theorem Instruction.arguments_withFlags (flags : List (List Char)) (i : Instruction) :
    (i.withFlags flags).arguments.toList = Dockerfile.withFlags flags i.arguments.toList :=
  String.toList_ofList

/-! ## The words -/

theorem splitWords_append_space {s : List Char} (hne : s ≠ []) (h : ∀ c ∈ s, IsLiteral c)
    (rest : List Char) : splitWords (s ++ ' ' :: rest) = s :: splitWords rest := by
  rw [splitWords, (spellsWord_literals hne h).shellWords?_append,
    words_append_space hne fun c hc => (h c hc).1, splitWords]
  cases shellWords? rest <;> rfl

theorem firstLine_append {s : List Char} (h : '\n' ∉ s) (rest : List Char) :
    firstLine (s ++ rest) = s ++ firstLine rest := by
  refine List.takeWhile_append_of_pos fun c hc => ?_
  rw [bne_iff_ne]
  rintro rfl
  exact h hc

theorem firstLine_eq_self {s : List Char} (h : '\n' ∉ s) : firstLine s = s := by
  have hend := firstLine_append h []
  rwa [show firstLine [] = [] from rfl, List.append_nil] at hend

section Flags

variable {flags : List (List Char)} (hflags : ∀ flag ∈ flags, IsPlainFlag flag)

include hflags

theorem splitWords_withFlags (a : List Char) :
    splitWords (withFlags flags a) = flags ++ splitWords a := by
  induction flags with
  | nil => rfl
  | cons flag flags ih =>
      obtain ⟨hflag, hflags⟩ := List.forall_mem_cons.mp hflags
      show splitWords (flag ++ ' ' :: withFlags flags a) = _
      rw [splitWords_append_space hflag.ne_nil hflag.literal, ih hflags, List.cons_append]

theorem stripFlags_append (ws : List (List Char)) : stripFlags (flags ++ ws) = stripFlags ws := by
  have hnone : stripFlags flags = [] :=
    List.filter_eq_nil_iff.mpr fun flag hflag => by simp [(hflags flag hflag).hyphens]
  rw [stripFlags, List.filter_append]
  exact congrArg (· ++ stripFlags ws) hnone

theorem firstLine_withFlags (a : List Char) :
    firstLine (withFlags flags a) = withFlags flags (firstLine a) := by
  induction flags with
  | nil => rfl
  | cons flag flags ih =>
      obtain ⟨hflag, hflags⟩ := List.forall_mem_cons.mp hflags
      have hoff : '\n' ∉ flag := fun hc => absurd (hflag.literal _ hc).1 (by decide)
      show firstLine (flag ++ ' ' :: withFlags flags a) = _
      rw [firstLine_append hoff]
      exact congrArg (flag ++ ' ' :: ·) (ih hflags)

/-- A text that begins with a flag is no array. -/
theorem execForm?_withFlags (hne : flags ≠ []) (a : List Char) :
    execForm? (withFlags flags a) = none := by
  obtain ⟨flag, flags, rfl⟩ := List.exists_cons_of_ne_nil hne
  obtain ⟨rest, rfl⟩ := (hflags flag List.mem_cons_self).exists_cons
  have hhead : (trim (withFlags (('-' :: rest) :: flags) a)).head? = some '-' := by
    rw [head?_trim]
    exact List.find?_cons_of_pos (by decide)
  rw [execForm?]
  split
  · next htrim =>
      rw [htrim] at hhead
      exact absurd (Option.some.inj hhead) (by decide)
  · rfl

/-! ## The paths -/

theorem copyPaths_withFlags (hne : flags ≠ []) (a : List Char) :
    copyPaths (withFlags flags a) = stripFlags (splitWords (firstLine a)) := by
  rw [copyPaths, execForm?_withFlags hflags hne]
  show stripFlags (splitWords (firstLine (withFlags flags a))) = _
  rw [firstLine_withFlags hflags, splitWords_withFlags hflags, stripFlags_append hflags]

theorem copyPaths_withFlags_of_shell {a : List Char} (h : flags = [] ∨ execForm? a = none) :
    copyPaths (withFlags flags a) = copyPaths a := by
  by_cases hne : flags = []
  · rw [hne]
    rfl
  · rw [copyPaths_withFlags hflags hne, copyPaths, h.resolve_left hne]

/-- On a single line, flags keep the paths exactly if these are not given as an array. -/
theorem copyPaths_withFlags_iff {a : List Char} (hline : '\n' ∉ a) :
    copyPaths (withFlags flags a) = copyPaths a ↔ flags = [] ∨ execForm? a = none := by
  refine ⟨fun heq => ?_, copyPaths_withFlags_of_shell hflags⟩
  rw [Classical.or_iff_not_imp_left]
  intro hne
  rw [copyPaths_withFlags hflags hne, firstLine_eq_self hline, copyPaths] at heq
  cases harray : execForm? a with
  | none => rfl
  | some paths =>
      rw [harray] at heq
      exact absurd heq (stripFlags_splitWords_ne_of_execForm? harray)

/-! ## The checksum -/

def checksumStart : List Char :=
  "--checksum=".toList

/-- Flags leave open whether there is a checksum, if there is none in them or none at all.  A
checksum that is empty counts as none. -/
theorem checksum_withFlags {a : List Char}
    (h : (∀ flag ∈ flags, ¬checksumStart <+: flag) ∨
      ∀ w ∈ flags ++ splitWords a, checksumStart <+: w → w = checksumStart) :
    ((flagValue? "checksum".toList (withFlags flags a)).getD []).isEmpty =
      ((flagValue? "checksum".toList a).getD []).isEmpty := by
  have hvalue : ∀ b, flagValue? "checksum".toList b =
      ((splitWords b).find? (checksumStart.isPrefixOf ·)).map (·.drop checksumStart.length) :=
    fun b => rfl
  rw [hvalue, hvalue, splitWords_withFlags hflags]
  rcases h with hnone | hempty
  · have hskip : flags.find? (checksumStart.isPrefixOf ·) = none :=
      List.find?_eq_none.mpr fun flag hflag => by
        rw [List.isPrefixOf_iff_prefix]
        exact hnone flag hflag
    rw [List.find?_append, hskip, Option.none_or]
  · have hall : ∀ ws : List (List Char), ws ⊆ flags ++ splitWords a →
        (((ws.find? (checksumStart.isPrefixOf ·)).map (·.drop checksumStart.length)).getD
          []).isEmpty = true := by
      intro ws hws
      cases hfind : ws.find? (checksumStart.isPrefixOf ·) with
      | none => rfl
      | some w =>
          obtain rfl := hempty w (hws (List.mem_of_find?_eq_some hfind))
            (List.isPrefixOf_iff_prefix.mp (List.find?_some hfind))
          decide
    rw [hall _ (List.Subset.refl _), hall _ (List.subset_append_right _ _)]

end Flags

end Dockerfile

namespace Rule

open ContainerAudit.Dockerfile

/-! ## Decisions on a rewritten instruction -/

/-- The decisions of a rule: on which lines it reports something, and what it says. -/
def decisions (ms : List Match) : List (Int × Option String) :=
  ms.map fun m => (m.line, m.message)

section Rewrite

variable {before after : List Instruction} {i : Instruction} {arguments : String}

theorem decisions_rewrite_of_filter {test : Instruction → Bool} {make : Instruction → Match}
    (hmake : ∀ k, decisions [make k] = [(↑k.line, none)])
    (htest : test { i with arguments := arguments } = test i) :
    decisions (((before ++ { i with arguments := arguments } :: after).filter test).map make) =
      decisions (((before ++ i :: after).filter test).map make) := by
  have hlines : ∀ is : List Instruction,
      decisions ((is.filter test).map make) = (is.filter test).map fun k => (↑k.line, none) := by
    intro is
    rw [decisions, List.map_map]
    exact List.map_congr_left fun k _ => List.singleton_inj.mp (hmake k)
  rw [hlines, hlines]
  simp only [List.filter_append, List.filter_cons, htest, List.map_append]
  split <;> rfl

theorem decisions_rewrite_of_withMessage {f : Instruction → List Instruction → Option String}
    (hself : f { i with arguments := arguments } after = f i after)
    (hothers : ∀ k before, f k (before ++ { i with arguments := arguments } :: after) =
      f k (before ++ i :: after)) :
    decisions (withMessage f (before ++ { i with arguments := arguments } :: after)) =
      decisions (withMessage f (before ++ i :: after)) := by
  induction before with
  | nil =>
      simp only [List.nil_append, withMessage_cons, decisions, List.map_append, hself]
      cases f i after with
      | none => simp only [Option.map_none]
      | some message => simp only [Option.map_some, Option.toList_some, List.map_cons, matchAt]
  | cons k before ih =>
      simp only [List.cons_append, withMessage_cons, decisions, List.map_append, hothers] at ih ⊢
      rw [ih]

/-- A rule on stages finds the instruction at its place in its stage. -/
theorem decisions_rewrite_of_stages {f : List Instruction → List Match}
    (h : ∀ before after, decisions (f (before ++ { i with arguments := arguments } :: after)) =
      decisions (f (before ++ i :: after))) :
    let d : Document := .ofInstructions (before ++ i :: after)
    let d' : Document := .ofInstructions (before ++ { i with arguments := arguments } :: after)
    decisions (d'.stages.flatMap f) = decisions (d.stages.flatMap f) := by
  intro d d'
  have hone : ∀ index, decisions (f (d'.stage index)) = decisions (f (d.stage index)) := by
    intro index
    simp only [d, d', Document.stage, Document.ofInstructions, List.filter_append,
      List.filter_cons]
    split
    · exact h _ _
    · rfl
  have hcount : d'.stageCount = d.stageCount := stageCount_rewrite before after i arguments
  simp only [decisions, Document.stages, hcount, List.flatMap_map, List.map_flatMap] at hone ⊢
  simp only [hone]

end Rewrite

/-! ## The rules on copies -/

section Copies

variable {flags : List (List Char)} {before after : List Instruction} {i : Instruction}
  (hflags : ∀ flag ∈ flags, IsPlainFlag flag)
  (hshell : flags = [] ∨ execForm? i.arguments.toList = none)

include hflags hshell

theorem copyPaths_instruction :
    copyPaths (i.withFlags flags).arguments.toList = copyPaths i.arguments.toList := by
  rw [Instruction.arguments_withFlags, copyPaths_withFlags_of_shell hflags hshell]

theorem copySources_instruction :
    copySources (i.withFlags flags).arguments.toList = copySources i.arguments.toList := by
  rw [copySources, copyPaths_instruction hflags hshell, copySources]

theorem remoteAdd_withFlags (p : Patterns)
    (hchecksum : (∀ flag ∈ flags, ¬checksumStart <+: flag) ∨
      ∀ w ∈ flags ++ splitWords i.arguments.toList, checksumStart <+: w → w = checksumStart) :
    decisions (remoteAdd (.ofInstructions (before ++ i.withFlags flags :: after)) p) =
      decisions (remoteAdd (.ofInstructions (before ++ i :: after)) p) := by
  refine decisions_rewrite_of_filter (fun _ => rfl) ?_
  have hvalue := checksum_withFlags hflags hchecksum
  rw [← Instruction.arguments_withFlags] at hvalue
  show (i.keyword == "ADD" &&
    ((flagValue? "checksum".toList (i.withFlags flags).arguments.toList).getD []).isEmpty &&
      (copySources (i.withFlags flags).arguments.toList).any _) = _
  rw [hvalue, copySources_instruction hflags hshell]

theorem addForLocal_withFlags (p : Patterns) :
    decisions (addForLocal (.ofInstructions (before ++ i.withFlags flags :: after)) p) =
      decisions (addForLocal (.ofInstructions (before ++ i :: after)) p) := by
  refine decisions_rewrite_of_filter (fun _ => rfl) ?_
  show addsLocalFiles (i.withFlags flags) = addsLocalFiles i
  rw [addsLocalFiles, Instruction.keyword_withFlags, copySources_instruction hflags hshell,
    addsLocalFiles]

theorem secretRemovedLater_withFlags (hcopy : i.keyword = "COPY" ∨ i.keyword = "ADD")
    (p : Patterns) :
    decisions (secretRemovedLater (.ofInstructions (before ++ i.withFlags flags :: after)) p) =
      decisions (secretRemovedLater (.ofInstructions (before ++ i :: after)) p) := by
  -- A copy removes nothing, so the command that is quoted for another copy stays the same.
  have hskip : ∀ names k after, k.keyword = i.keyword →
      (k :: after).find? (removes names) = after.find? (removes names) := by
    intro names k after hk
    refine List.find?_cons_of_neg ?_
    rcases hcopy with hi | hi <;> simp [removes, hk, hi]
  refine decisions_rewrite_of_stages fun before after => decisions_rewrite_of_withMessage ?_ ?_
  · show removalMessage? _ (i.withFlags flags) after = removalMessage? _ i after
    simp only [removalMessage?, isCopy, hasKeyword, secretNames, Instruction.keyword_withFlags,
      copyPaths_instruction hflags hshell]
  · intro k before
    show removalMessage? _ k (before ++ i.withFlags flags :: after) = _
    simp only [removalMessage?, List.find?_append, hskip _ (i.withFlags flags) after rfl,
      hskip _ i after rfl]

end Copies

/-- **Flags keep the paths of a copy, unless these are given as an array.**  With the paths, they
keep what is said of the copy. -/
theorem flags_keep_paths_unless_array (flags : List (List Char)) (a : List Char)
    (hflags : ∀ flag ∈ flags, IsPlainFlag flag) (hline : '\n' ∉ a) :
    (Registry.standard.get? "SEC-004").map Rule.check = some (.ofDockerfile remoteAdd) ∧
    (Registry.standard.get? "SEC-010").map Rule.check = some (.ofDockerfile secretRemovedLater) ∧
    (Registry.standard.get? "OPT-009").map Rule.check = some (.ofDockerfile addForLocal) ∧
    (copyPaths (withFlags flags a) = copyPaths a ↔ flags = [] ∨ execForm? a = none) ∧
    (flags ≠ [] → copyPaths (withFlags flags a) = stripFlags (splitWords a)) ∧
    (flags = [] ∨ execForm? a = none →
      copySources (withFlags flags a) = copySources a ∧
      ∀ (before after : List Instruction) (i : Instruction) (p : Patterns),
        i.keyword = "COPY" ∨ i.keyword = "ADD" → i.arguments.toList = a →
        ((∀ flag ∈ flags, ¬checksumStart <+: flag) ∨
            (∀ w ∈ flags ++ splitWords a, checksumStart <+: w → w = checksumStart) →
          decisions (remoteAdd (.ofInstructions (before ++ i.withFlags flags :: after)) p) =
            decisions (remoteAdd (.ofInstructions (before ++ i :: after)) p)) ∧
        decisions (secretRemovedLater (.ofInstructions (before ++ i.withFlags flags :: after)) p) =
          decisions (secretRemovedLater (.ofInstructions (before ++ i :: after)) p) ∧
        decisions (addForLocal (.ofInstructions (before ++ i.withFlags flags :: after)) p) =
          decisions (addForLocal (.ofInstructions (before ++ i :: after)) p)) := by
  refine ⟨rfl, rfl, rfl, copyPaths_withFlags_iff hflags hline, fun hne => ?_, fun hshell => ?_⟩
  · rw [copyPaths_withFlags hflags hne, firstLine_eq_self hline]
  · refine ⟨by rw [copySources, copyPaths_withFlags_of_shell hflags hshell, copySources], ?_⟩
    rintro before after i p hcopy rfl
    exact ⟨remoteAdd_withFlags hflags hshell p, secretRemovedLater_withFlags hflags hshell hcopy p,
      addForLocal_withFlags hflags hshell p⟩

/-- An `ADD` of a key and a remote file is reported for both reasons with flags as without them. -/
theorem flags_keep_paths_of_key_and_remote_file :
    let i : Instruction := ⟨"ADD", "'id_rsa' \"http://e/x\" /k/", 2, 0⟩
    let flags : List (List Char) := ["--chown=u:g".toList, "--checksum=".toList]
    let d : Document :=
      ⟨[⟨"FROM", "a", 1, 0⟩, i.withFlags flags, ⟨"RUN", "rm /k/id_rsa", 3, 0⟩], 1⟩
    (i.withFlags flags).arguments = "--chown=u:g --checksum= 'id_rsa' \"http://e/x\" /k/" ∧
    copyPaths (i.withFlags flags).arguments.toList =
      ["id_rsa".toList, "http://e/x".toList, "/k/".toList] ∧
    decisions (remoteAdd d .standard) = [(2, none)] ∧
    decisions (secretRemovedLater d .standard) = [(2, some
      "Secret file copied here is removed on line 3, but remains in the earlier layer.")] ∧
    decisions (addForLocal d .standard) = [] := by
  intro i flags d
  have hflags : ∀ flag ∈ flags, IsPlainFlag flag :=
    List.forall_mem_cons.mpr ⟨⟨by decide, Text.isLiteral_of_all (by decide)⟩,
      List.forall_mem_singleton.mpr ⟨by decide, Text.isLiteral_of_all (by decide)⟩⟩
  have hshell : execForm? i.arguments.toList = none := by decide +kernel
  obtain ⟨-, -, -, hpaths, -, hrules⟩ :=
    flags_keep_paths_unless_array flags i.arguments.toList hflags (by decide)
  obtain ⟨-, hdecisions⟩ := hrules (.inr hshell)
  obtain ⟨hremote, hsecret, hlocal⟩ := hdecisions [⟨"FROM", "a", 1, 0⟩]
    [⟨"RUN", "rm /k/id_rsa", 3, 0⟩] i .standard (.inr rfl) rfl
  refine ⟨by decide +kernel, ?_, (hremote (.inr (by decide +kernel))).trans ?_, hsecret.trans ?_,
    hlocal.trans ?_⟩
  · rw [Instruction.arguments_withFlags, hpaths.mpr (.inr hshell)]
    decide +kernel
  all_goals decide +kernel

/-- Behind a flag an array is split at its blanks.  A remote file is no longer seen to be one. -/
theorem flag_hides_array :
    let i : Instruction := ⟨"ADD", "[\"http://e/x\", \"/y\"]", 2, 0⟩
    let flags : List (List Char) := ["--chown=u".toList]
    let base : Instruction := ⟨"FROM", "a", 1, 0⟩
    parse "FROM a\nADD --chown=u [\"http://e/x\", \"/y\"]\n" = .ok ⟨[base, i.withFlags flags], 1⟩ ∧
    copyPaths i.arguments.toList = ["http://e/x".toList, "/y".toList] ∧
    copyPaths (i.withFlags flags).arguments.toList = ["[http://e/x,".toList, "/y]".toList] ∧
    decisions (remoteAdd ⟨[base, i], 1⟩ .standard) = [(2, none)] ∧
    decisions (remoteAdd ⟨[base, i.withFlags flags], 1⟩ .standard) = [] ∧
    decisions (addForLocal ⟨[base, i], 1⟩ .standard) = [] ∧
    decisions (addForLocal ⟨[base, i.withFlags flags], 1⟩ .standard) = [(2, none)] := by
  refine ⟨?_, ?_, ?_, ?_, ?_, ?_, ?_⟩
  all_goals decide +kernel

end Rule

end ContainerAudit
