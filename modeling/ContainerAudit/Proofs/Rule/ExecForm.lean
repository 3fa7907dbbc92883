import ContainerAudit.Proofs.Dockerfile.Span
import ContainerAudit.Proofs.Json.Unescaped
import ContainerAudit.Proofs.Text.Blank
import ContainerAudit.Rule.Registry

/-!
# The suggested exec form

For a command in shell form the array of its words is suggested.  The words are put between quotes
as they are, while the array is read as JSON, so the suggestion is right exactly if no word holds a
character that would have to be escaped (`execForm?_execArray_iff`).  A command that is rewritten in
this way is no longer reported, and nothing else changes (`parse_suggests_exec_form`).

A quote inside a word is enough to make the suggestion no array at all
(`shellForm_suggests_unreadable_array`).
-/

namespace ContainerAudit.Rule

open ContainerAudit.Dockerfile (Instruction Document execForm? splitWords textItems? parse)
open ContainerAudit.Json (IsPlain quoted quotedItems texts)

/-! ## The array -/

/-- The words between quotes, in brackets. -/
def execArray (ws : List (List Char)) : String :=
  String.ofList ('[' :: (quotedItems ws ++ [']']))

theorem execArray_eq (ws : List (List Char)) :
    execArray ws =
      "[" ++ ", ".intercalate (ws.map fun w => "\"" ++ String.ofList w ++ "\"") ++ "]" := by
  have hword : ∀ w : List Char, ("\"" ++ String.ofList w ++ "\"").toList = quoted w := by
    intro w
    simp [quoted]
  have hwords : ws.map (String.toList ∘ fun w => "\"" ++ String.ofList w ++ "\"") =
      ws.map quoted :=
    List.map_congr_left fun w _ => hword w
  refine String.toList_inj.mp ?_
  rw [execArray, String.toList_ofList, String.toList_append, String.toList_append,
    String.toList_intercalate, List.map_map, hwords]
  simp [quotedItems]

theorem execFormText_eq (keyword : String) (ws : List (List Char)) :
    execFormText keyword ws = "Use exec form: " ++ keyword ++ " " ++ execArray ws := by
  have hopen : " [" = " " ++ "[" := by decide
  have hbracket : ∀ start items : String,
      start ++ " [" ++ items ++ "]" = start ++ " " ++ ("[" ++ items ++ "]") := by
    intro start items
    rw [hopen]
    simp only [String.append_assoc]
  rw [execArray_eq]
  exact hbracket _ _

/-- An array holds some texts exactly if its items are these. -/
theorem textItems?_eq_some_iff {j : Json} {ws : List (List Char)} :
    textItems? j = some ws ↔ j = .arr (texts ws) := by
  cases j with
  | arr items =>
      rw [textItems?, Json.arr.injEq]
      induction items generalizing ws with
      | nil => cases ws <;> simp [texts]
      | cons item items ih =>
          simp only [List.mapM_cons, Option.bind_eq_bind, Option.bind_eq_some_iff, ih,
            Option.pure_def, Option.some.injEq]
          constructor
          · rintro ⟨w, hw, ws, rfl, rfl⟩
            cases item with
            | str s =>
                obtain rfl := Option.some.inj hw
                simp [texts]
            | _ => exact absurd hw (by simp)
          · intro h
            cases ws with
            | nil => exact absurd h (by simp [texts])
            | cons w ws =>
                obtain ⟨rfl, rfl⟩ := List.cons.inj h
                exact ⟨w, congrArg some String.toList_ofList, ws, rfl, rfl⟩
  | _ => simp [textItems?]

theorem execForm?_execArray_iff {ws : List (List Char)} (hne : ws ≠ []) :
    execForm? (execArray ws).toList = some ws ↔ ∀ w ∈ ws, ∀ c ∈ w, IsPlain c := by
  have htrim : Text.trim ('[' :: (quotedItems ws ++ [']'])) = '[' :: (quotedItems ws ++ [']']) := by
    refine Text.trim_eq_self (fun c hc => ?_) fun c hc => ?_
    · obtain rfl : '[' = c := Option.some.inj hc
      decide
    · rw [← List.cons_append, List.getLast?_concat] at hc
      obtain rfl : ']' = c := Option.some.inj hc
      decide
  rw [execArray, String.toList_ofList, execForm?, htrim, ← Json.read?_quotedArray_iff hne]
  simp only [Option.bind_eq_some_iff, textItems?_eq_some_iff, exists_eq_right]

/-! ## Rewriting an instruction -/

/-- Other arguments for an instruction leave the stages as many as they are. -/
theorem stageCount_rewrite (before after : List Instruction) (i : Instruction)
    (arguments : String) :
    (Document.ofInstructions (before ++ { i with arguments := arguments } :: after)).stageCount =
      (Document.ofInstructions (before ++ i :: after)).stageCount := by
  have hcount : (before ++ { i with arguments := arguments } :: after).countP (·.isFrom) =
      (before ++ i :: after).countP (·.isFrom) := by
    rw [List.countP_append, List.countP_append, List.countP_cons, List.countP_cons]
    rfl
  have hempty : (before ++ { i with arguments := arguments } :: after).isEmpty =
      (before ++ i :: after).isEmpty := by
    cases before <;> rfl
  exact Dockerfile.stagesOf_congr hcount hempty

theorem finalIndex_rewrite (before after : List Instruction) (i : Instruction)
    (arguments : String) :
    (Document.ofInstructions (before ++ { i with arguments := arguments } :: after)).finalIndex =
      (Document.ofInstructions (before ++ i :: after)).finalIndex := by
  rw [Document.finalIndex, stageCount_rewrite, Document.finalIndex]

section Rewrite

variable {make : Instruction → Match} {before after : List Instruction} {i j : Instruction}

theorem filter_line_ne (hmake : ∀ i, (make i).line = i.line) {is : List Instruction}
    (h : ∀ k ∈ is, k.line ≠ i.line) (test : Instruction → Bool) :
    ((is.filter test).map make).filter (fun m => m.line != (i.line : Int)) =
      (is.filter test).map make := by
  refine List.filter_eq_self.mpr fun m hm => ?_
  obtain ⟨k, hk, rfl⟩ := List.mem_map.mp hm
  rw [bne_iff_ne, hmake]
  exact fun heq => h k (List.mem_filter.mp hk).1 (Int.ofNat.inj heq)

/-- An instruction that comes to fail a test takes its match with it, and no other. -/
theorem map_filter_rewrite (hmake : ∀ i, (make i).line = i.line)
    (hlines : (before ++ i :: after).Pairwise fun i j => i.line < j.line)
    {test : Instruction → Bool} (hj : test j = false) :
    ((before ++ j :: after).filter test).map make =
      (((before ++ i :: after).filter test).map make).filter fun m => m.line != (i.line : Int) := by
  obtain ⟨-, hbehind, hcross⟩ := List.pairwise_append.mp hlines
  have hbefore : ∀ k ∈ before, k.line ≠ i.line :=
    fun k hk => Nat.ne_of_lt (hcross k hk i List.mem_cons_self)
  have hafter : ∀ k ∈ after, k.line ≠ i.line :=
    fun k hk => Nat.ne_of_gt ((List.pairwise_cons.mp hbehind).1 k hk)
  have hi : (([i].filter test).map make).filter (fun m => m.line != (i.line : Int)) = [] := by
    refine List.filter_eq_nil_iff.mpr fun m hm => ?_
    obtain ⟨k, hk, rfl⟩ := List.mem_map.mp hm
    obtain rfl := List.mem_singleton.mp (List.mem_filter.mp hk).1
    simp [hmake]
  calc ((before ++ j :: after).filter test).map make
      = (before.filter test).map make ++ (after.filter test).map make := by
        rw [List.filter_append, List.filter_cons_of_neg (by simp [hj]), List.map_append]
    _ = (((before ++ ([i] ++ after)).filter test).map make).filter
          fun m => m.line != (i.line : Int) := by
        simp only [List.filter_append, List.map_append]
        rw [hi, filter_line_ne hmake hbefore, filter_line_ne hmake hafter, List.nil_append]

end Rewrite

/-- A command that is put into exec form takes its match with it, and no other. -/
theorem shellForm_rewrite {before after : List Instruction} {i : Instruction} {arguments : String}
    (p : Patterns) (hlines : (before ++ i :: after).Pairwise fun i j => i.line < j.line)
    {ws : List (List Char)} (hexec : execForm? arguments.toList = some ws) :
    shellForm (.ofInstructions (before ++ { i with arguments := arguments } :: after)) p =
      (shellForm (.ofInstructions (before ++ i :: after)) p).filter
        fun m => m.line != (i.line : Int) := by
  simp only [shellForm, Document.finalStage, Document.stage, finalIndex_rewrite, List.filter_filter]
  exact map_filter_rewrite (fun _ => rfl) hlines (by simp [hexec])

/-! ## The rule -/

theorem mem_shellForm {d : Document} {p : Patterns} {m : Match} :
    m ∈ shellForm d p ↔ ∃ i ∈ d.finalStage, (i.keyword = "CMD" ∨ i.keyword = "ENTRYPOINT") ∧
      execForm? i.arguments.toList = none ∧
      m = matchAt i none (if (splitWords i.arguments.toList).isEmpty then none
        else some (execFormText i.keyword (splitWords i.arguments.toList))) := by
  simp only [shellForm, hasKeyword, List.mem_map, List.mem_filter, Bool.and_eq_true,
    List.contains_iff_mem, List.mem_cons, List.not_mem_nil, or_false, Option.isNone_iff_eq_none]
  constructor
  · rintro ⟨i, ⟨hi, hkeyword, hexec⟩, rfl⟩
    exact ⟨i, hi, hkeyword, hexec, rfl⟩
  · rintro ⟨i, hi, hkeyword, hexec, rfl⟩
    exact ⟨i, ⟨hi, hkeyword, hexec⟩, rfl⟩

/-- The array suggested for a command in shell form is read as its words exactly if no character of
them has to be escaped.  The command is then no longer reported once it is rewritten, and all other
matches stay as they are. -/
theorem parse_suggests_exec_form {text : String} {d : Document} (h : parse text = .ok d)
    (p : Patterns) :
    (Registry.standard.get? "SEC-006").map Rule.check = some (.ofDockerfile shellForm) ∧
    ∀ m ∈ shellForm d p, ∃ before i after, d.instructions = before ++ i :: after ∧
      (i.keyword = "CMD" ∨ i.keyword = "ENTRYPOINT") ∧ execForm? i.arguments.toList = none ∧
      m.line = i.line ∧
      (splitWords i.arguments.toList ≠ [] → ∃ array : String,
        m.fix = some ("Use exec form: " ++ i.keyword ++ " " ++ array) ∧
        (execForm? array.toList = some (splitWords i.arguments.toList) ↔
          ∀ w ∈ splitWords i.arguments.toList, ∀ c ∈ w, c ≠ '"' ∧ c ≠ '\\' ∧ 0x20 ≤ c.toNat) ∧
        (execForm? array.toList = some (splitWords i.arguments.toList) →
          shellForm (.ofInstructions (before ++ { i with arguments := array } :: after)) p =
            (shellForm d p).filter fun m => m.line != (i.line : Int))) := by
  refine ⟨rfl, fun m hm => ?_⟩
  obtain ⟨i, hi, hkeyword, hexec, rfl⟩ := mem_shellForm.mp hm
  obtain ⟨before, after, hd⟩ := List.append_of_mem (List.mem_filter.mp hi).1
  refine ⟨before, i, after, hd, hkeyword, hexec, rfl, fun hne => ?_⟩
  refine ⟨execArray (splitWords i.arguments.toList), ?_, execForm?_execArray_iff hne,
    fun harray => ?_⟩
  · show (if _ then none else some _) = _
    rw [if_neg (by simpa using hne), execFormText_eq]
  · have hlines := Dockerfile.parse_pairwise_line h
    rw [hd] at hlines
    rw [Dockerfile.eq_ofInstructions h, hd]
    exact shellForm_rewrite p hlines harray

/-- A blank inside a word needs no escape. -/
theorem parse_suggests_exec_form_of_blank :
    let i : Instruction := ⟨"ENTRYPOINT", "sh -c 'a b'", 2, 0⟩
    let d : Document := ⟨[⟨"FROM", "a", 1, 0⟩, i, ⟨"CMD", "run", 3, 0⟩], 1⟩
    parse "FROM a\nENTRYPOINT sh -c 'a b'\nCMD run\n" = .ok d ∧
    ∃ before after array, d.instructions = before ++ i :: after ∧
      some "Use exec form: ENTRYPOINT [\"sh\", \"-c\", \"a b\"]" =
        some ("Use exec form: ENTRYPOINT " ++ array) ∧
      execForm? array.toList = some [['s', 'h'], ['-', 'c'], ['a', ' ', 'b']] ∧
      shellForm (.ofInstructions (before ++ { i with arguments := array } :: after)) .standard =
        (shellForm d .standard).filter fun m => m.line != 2 := by
  intro i d
  have h : parse "FROM a\nENTRYPOINT sh -c 'a b'\nCMD run\n" = .ok d := by decide +kernel
  have hm : matchAt i none (some "Use exec form: ENTRYPOINT [\"sh\", \"-c\", \"a b\"]") ∈
      shellForm d .standard := by decide +kernel
  have hwords : splitWords i.arguments.toList = [['s', 'h'], ['-', 'c'], ['a', ' ', 'b']] := by
    decide +kernel
  obtain ⟨before, j, after, hd, -, -, hline, hfix⟩ := (parse_suggests_exec_form h .standard).2 _ hm
  obtain rfl : i = j := by
    refine Dockerfile.eq_of_line_eq h (by decide) ?_ (Int.ofNat.inj hline)
    rw [hd]
    exact List.mem_append_right before List.mem_cons_self
  rw [hwords] at hfix
  obtain ⟨array, hsome, hplain, hrewrite⟩ := hfix (by simp)
  have hexec := hplain.mpr (by simp)
  exact ⟨h, before, after, array, hd, hsome, hexec, hrewrite hexec⟩

/-- The quotes of a word end up inside the array, and what is suggested is no array. -/
theorem shellForm_suggests_unreadable_array :
    let i : Instruction := ⟨"CMD", "echo \"say \\\"hi\\\"\"", 2, 0⟩
    parse "FROM a\nCMD echo \"say \\\"hi\\\"\"\n" = .ok ⟨[⟨"FROM", "a", 1, 0⟩, i], 1⟩ ∧
    splitWords i.arguments.toList = ["echo".toList, "say \"hi\"".toList] ∧
    shellForm ⟨[⟨"FROM", "a", 1, 0⟩, i], 1⟩ .standard =
      [matchAt i none (some "Use exec form: CMD [\"echo\", \"say \"hi\"\"]")] ∧
    execForm? "[\"echo\", \"say \"hi\"\"]".toList = none := by
  refine ⟨by decide +kernel, by decide +kernel, by decide +kernel, by decide +kernel⟩

end ContainerAudit.Rule
