import ContainerAudit.Proofs.Json.RoundTrip
import ContainerAudit.Report.Text

/-!
# Reports in JSON

A report in JSON is ASCII text that is read as the report's own document, and no two reports have
the same text (`render_json_lossless`): whatever characters the texts of a report hold, whatever its
numbers are, and whichever of its parts are empty or missing.

The second half follows from the first and from the document alone: it holds every field of a report
under a name of its own, so reports with one document are one report (`toJson_injective`).
-/

namespace ContainerAudit

open Json (Exact Ascii)

theorem Severity.ofName?_name (s : Severity) : ofName? s.name = some s := by
  cases s <;> rfl

theorem Severity.name_injective : Function.Injective Severity.name := by
  intro a b h
  have hread := ofName?_name a
  rw [h, ofName?_name] at hread
  exact (Option.some.inj hread).symm

theorem Json.ofText?_injective : Function.Injective Json.ofText? := by
  intro a b h
  cases a <;> cases b <;> simp_all [Json.ofText?]

namespace Report

/-! ## The document is exact -/

theorem exact_ofText? (text : Option String) : Exact (.ofText? text) := by
  cases text with
  | none => exact .null
  | some s => exact .str s

theorem exact_findingJson (f : Finding) : Exact (findingJson f) := by
  refine .obj (by simp) ?_
  simp [Exact.str, Exact.int, exact_ofText?]

theorem exact_parseFailureJson (f : ParseFailure) : Exact (parseFailureJson f) := by
  refine .obj (by simp) ?_
  cases f.line <;> simp [Exact.str, Exact.int, Exact.null]

theorem exact_ruleFailureJson (f : RuleFailure) : Exact (ruleFailureJson f) := by
  refine .obj (by simp) ?_
  simp [Exact.str]

theorem exact_summaryJson (s : Summary) : Exact (summaryJson s) := by
  refine .obj (by simp) ?_
  simp [Exact.int]

theorem exact_arr_map {α : Type} {f : α → Json} (h : ∀ a, Exact (f a)) (as : List α) :
    Exact (.arr (as.map f)) :=
  .arr (List.forall_mem_map.mpr fun a _ => h a)

theorem exact_toJson (r : Report) : Exact r.toJson := by
  refine .obj (by simp) ?_
  simp [exact_arr_map, exact_findingJson, exact_parseFailureJson, exact_ruleFailureJson,
    exact_summaryJson]

/-! ## The document determines the report -/

theorem findingJson_injective : Function.Injective findingJson := by
  intro f g h
  simp only [findingJson, Json.obj.injEq, List.cons.injEq, Prod.mk.injEq, Json.str.injEq,
    Json.int.injEq, true_and, and_true] at h
  obtain ⟨hcwe, hfile, hline, htext, hmessage, hrule, hseverity, hfix, htitle⟩ := h
  have hcwe := Json.ofText?_injective hcwe
  have hseverity := Severity.name_injective hseverity
  have hfix := Json.ofText?_injective hfix
  cases f
  cases g
  simp_all

theorem parseFailureJson_injective : Function.Injective parseFailureJson := by
  intro f g h
  simp only [parseFailureJson, Json.obj.injEq, List.cons.injEq, Prod.mk.injEq, Json.str.injEq,
    true_and, and_true] at h
  obtain ⟨hpath, hline, hreason⟩ := h
  obtain ⟨path, line, reason⟩ := f
  obtain ⟨path', line', reason'⟩ := g
  cases line <;> cases line' <;> simp_all

theorem ruleFailureJson_injective : Function.Injective ruleFailureJson := by
  intro f g h
  simp only [ruleFailureJson, Json.obj.injEq, List.cons.injEq, Prod.mk.injEq, Json.str.injEq,
    true_and, and_true] at h
  cases f
  cases g
  simp_all

theorem summaryJson_injective : Function.Injective summaryJson := by
  intro s t h
  simp only [summaryJson, Json.obj.injEq, List.cons.injEq, Prod.mk.injEq, Json.int.injEq, true_and,
    and_true] at h
  cases s
  cases t
  simp_all

/-- Reports with one document are one report. -/
theorem toJson_injective : Function.Injective toJson := by
  intro r t h
  simp only [toJson, Json.obj.injEq, List.cons.injEq, Prod.mk.injEq, Json.arr.injEq,
    true_and, and_true] at h
  obtain ⟨hfindings, hparse, hrule, hsummary⟩ := h
  have hfindings := findingJson_injective.list_map hfindings
  have hparse := parseFailureJson_injective.list_map hparse
  have hrule := ruleFailureJson_injective.list_map hrule
  have hsummary := summaryJson_injective hsummary
  cases r
  cases t
  simp_all

/-! ## The text -/

theorem render_json (r : Report) (limit : Int) : r.render .json limit = r.toJson.page :=
  rfl

/-- A report in JSON is ASCII text and is read as the report's document, and two reports have the
same text only if they agree in every field. -/
theorem render_json_lossless (r : Report) (limit : Int) :
    (∀ c ∈ (r.render .json limit).toList, c.toNat < 128) ∧
      Json.read? (r.render .json limit).toList = some r.toJson ∧
        ∀ (r' : Report) (limit' : Int), r'.render .json limit' = r.render .json limit ↔ r' = r := by
  refine ⟨Json.ascii_page (exact_toJson r), Json.read?_page (exact_toJson r), fun r' limit' => ?_⟩
  constructor
  · intro h
    rw [render_json, render_json] at h
    have hread : some r'.toJson = some r.toJson := by
      rw [← Json.read?_page (exact_toJson r'), ← Json.read?_page (exact_toJson r), h]
    exact toJson_injective (Option.some.inj hread)
  · rintro rfl
    rfl

end Report

end ContainerAudit
