import ContainerAudit.Proofs.Dockerfile.Stage

/-!
# Files below skipped lines

Blank lines and comments put above a file move its instructions down and change nothing else, if
they leave the escape character as it is (`parse_below`).  Nothing is asked of the lines above
beyond that: they may hold directives of their own, and some of those of the file may lose their
place at its head.

Moving a document down is seen in the lines of its instructions only, so everything that is told of
stages commutes with it.
-/

namespace ContainerAudit.Dockerfile

/-! ## Documents further down -/

/-- The instruction behind a number of lines and a number of stages. -/
def Instruction.behind (lines froms : Nat) (i : Instruction) : Instruction :=
  { i with line := i.line + lines, stage := i.stage + froms }

def Instruction.shift (k : Nat) (i : Instruction) : Instruction :=
  { i with line := i.line + k }

def Document.shift (k : Nat) (d : Document) : Document :=
  { d with instructions := d.instructions.map (·.shift k) }

theorem stageFrom_shift (k froms : Nat) (ss : List Statement) :
    stageFrom froms (ss.map (·.shift k)) = (stageFrom froms ss).map (·.shift k) := by
  induction ss generalizing froms with
  | nil => rfl
  | cons s ss ih =>
      have hfrom : (s.shift k).isFrom = s.isFrom := rfl
      rw [List.map_cons, stageFrom_cons, stageFrom_cons, List.map_cons, hfrom, ih]
      rfl

namespace Document

variable (k : Nat) (d : Document)

theorem shift_ofInstructions (is : List Instruction) :
    (ofInstructions is).shift k = ofInstructions (is.map (·.shift k)) := by
  have hcount : (is.map (·.shift k)).countP (·.isFrom) = is.countP (·.isFrom) := by
    rw [List.countP_map]
    rfl
  rw [ofInstructions, ofInstructions, stagesOf_congr hcount List.isEmpty_map]
  rfl

theorem stageCount_shift : (d.shift k).stageCount = d.stageCount := rfl

theorem stage_shift (index : Nat) : (d.shift k).stage index = (d.stage index).map (·.shift k) := by
  rw [stage, shift, List.filter_map]
  rfl

theorem stages_shift : (d.shift k).stages = d.stages.map (List.map (·.shift k)) := by
  rw [stages, stageCount_shift, stages, List.map_map]
  exact List.map_congr_left fun index _ => stage_shift k d index

theorem finalIndex_shift : (d.shift k).finalIndex = d.finalIndex := by
  rw [finalIndex, stageCount_shift, finalIndex]

theorem finalStage_shift : (d.shift k).finalStage = d.finalStage.map (·.shift k) := by
  rw [finalStage, finalIndex_shift, stage_shift, finalStage]

theorem stageNames_shift : (d.shift k).stageNames = d.stageNames := by
  rw [stageNames, shift, List.foldl_map, stageNames]
  rfl

end Document

/-! ## Reading below skipped lines -/

theorem feed_skipped (escape : Char) {ls : List Line} (h : ∀ l ∈ ls, isSkipped l = true)
    (number : Nat) : feed escape .between number ls = (.between, []) :=
  feed_idle (fun l hl number => step_between_skipped escape number (h l hl)) number

section Below

variable {above text : String} (hend : above = "" ∨ above.toList.getLast? = some '\n')
  (hskip : ∀ l ∈ Text.lines above.toList, isSkipped l = true)
  (hescape : escapeChar (Text.lines (above ++ text).toList) = escapeChar (Text.lines text.toList))

include hend hskip hescape

theorem readText_below :
    readText (above ++ text) =
      ((readText text).1.shift (Text.lines above.toList).length,
        (readText text).2.map (·.shift (Text.lines above.toList).length)) := by
  have hends : Text.EndsLine above.toList := hend.imp_left fun h => by rw [h]; rfl
  have hlines : Text.lines (above ++ text).toList =
      Text.lines above.toList ++ Text.lines text.toList := by
    rw [String.toList_append, Text.lines_append hends]
  simp only [readText, hescape]
  rw [hlines, feed_append, feed_skipped _ hskip]
  exact feed_shift _ (Text.lines above.toList).length (Text.lines text.toList) .between 1

theorem parse_below :
    parse (above ++ text) =
      ((parse text).map (·.shift (Text.lines above.toList).length)).mapError
        (·.shift (Text.lines above.toList).length) := by
  have hread := readText_below hend hskip hescape
  cases hparse : parse text with
  | ok d =>
      obtain ⟨out, hout, rfl⟩ := parse_eq_ok.mp hparse
      refine parse_eq_ok.mpr ⟨_, by rw [hread, hout]; rfl, ?_⟩
      rw [stageFrom_shift]
      exact Document.shift_ofInstructions _ _
  | error e =>
      refine parse_eq_error.mpr ?_
      rw [hread, State.error?_shift, parse_eq_error.mp hparse]
      rfl

end Below

end ContainerAudit.Dockerfile
