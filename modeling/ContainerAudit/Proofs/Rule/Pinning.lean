import ContainerAudit.Proofs.Dockerfile.Span
import ContainerAudit.Proofs.Dockerfile.StagePartition
import ContainerAudit.Rule.Registry

/-!
# Base images that are not pinned

A base image floats if nothing fixes its version: it has no digest, and its tag is `latest` or there
is none.  A name without a tag may also be that of a stage, and is then no image at all.

Stage names are collected from the whole file before any `FROM` is looked at.  So a name is taken to
be that of a stage also where the stage comes later, or is the very one that the `FROM` opens
(`unpinnedBase_spares_later_alias`).
-/

namespace ContainerAudit

open ContainerAudit.Text
open ContainerAudit.Dockerfile (Instruction Document ImageRef imageRef? alias? parse addAlias
  stageNames_eq)

/-- The names of the stages are the aliases that some `FROM` declares. -/
theorem Dockerfile.mem_stageNames {d : Document} {name : String} :
    name ∈ d.stageNames.map (·.1) ↔
      ∃ j ∈ d.instructions, j.isFrom = true ∧ alias? j.arguments = some name := by
  simp only [stageNames_eq, ← Instruction.declares?_eq_some]
  induction d.instructions using List.reverseRecOn with
  | nil => simp
  | append_singleton is i ih =>
      rw [List.foldl_append, List.foldl_cons, List.foldl_nil, addAlias]
      cases hi : i.declares? with
      | none => simp [ih, hi, or_and_right, exists_or]
      | some declared =>
          have hput : name ∈ (put declared i.stage (is.foldl addAlias [])).map (·.1) ↔
              name ∈ (is.foldl addAlias []).map (·.1) ∨ name = declared := by
            rw [map_fst_put]
            split
            · next hmem =>
                exact ⟨.inl, fun h => h.elim id fun heq => heq ▸ hmem⟩
            · rw [List.mem_append, List.mem_singleton]
          rw [hput, ih]
          simp [hi, or_and_right, exists_or, eq_comm]

namespace Rule

/-- An image of which no version is fixed, where some instructions declare the stages. -/
structure Floats (is : List Instruction) (ref : ImageRef) : Prop where
  no_digest : ref.digest = none ∨ ref.digest = some []
  not_scratch : lower ref.name ≠ "scratch".toList
  no_variable : '$' ∉ ref.name
  tag : (∃ tag, ref.tag = some tag ∧ lower tag = "latest".toList) ∨
    (ref.tag = none ∧ ∀ j ∈ is, j.keyword = "FROM" →
      alias? j.arguments ≠ some (String.ofList (lower ref.name)))

/-- A name is not that of a stage. -/
theorem contains_stageNames_eq_false {d : Document} {name : String} :
    (d.stageNames.map (·.1)).contains name = false ↔
      ∀ j ∈ d.instructions, j.keyword = "FROM" → alias? j.arguments ≠ some name := by
  rw [← Bool.not_eq_true, List.contains_iff_mem, Dockerfile.mem_stageNames]
  simp only [Instruction.isFrom, beq_iff_eq, not_exists, not_and, ne_eq]

theorem isUnpinned_iff {d : Document} {ref : ImageRef} :
    isUnpinned (d.stageNames.map (·.1)) ref = true ↔ Floats d.instructions ref := by
  have hdigest : (ref.digest.getD []).isEmpty = true ↔
      ref.digest = none ∨ ref.digest = some [] := by
    cases ref.digest <;> simp
  rw [isUnpinned, Bool.and_eq_true, Bool.and_eq_true, Bool.and_eq_true, hdigest, bne_iff_ne,
    Bool.not_eq_true', ← Bool.not_eq_true, List.contains_iff_mem]
  obtain ⟨name, tag, digest⟩ := ref
  cases tag with
  | none =>
      rw [Bool.not_eq_true', contains_stageNames_eq_false]
      constructor
      · rintro ⟨⟨⟨hno, hscratch⟩, hvariable⟩, hstage⟩
        exact ⟨hno, hscratch, hvariable, .inr ⟨rfl, hstage⟩⟩
      · rintro ⟨hno, hscratch, hvariable, ⟨tag, htag, -⟩ | ⟨-, hstage⟩⟩
        · exact absurd htag (by simp)
        · exact ⟨⟨⟨hno, hscratch⟩, hvariable⟩, hstage⟩
  | some tag =>
      rw [beq_iff_eq]
      constructor
      · rintro ⟨⟨⟨hno, hscratch⟩, hvariable⟩, hlatest⟩
        exact ⟨hno, hscratch, hvariable, .inl ⟨tag, rfl, hlatest⟩⟩
      · rintro ⟨hno, hscratch, hvariable, ⟨tag', htag, hlatest⟩ | ⟨hnone, -⟩⟩
        · obtain rfl := Option.some.inj htag
          exact ⟨⟨⟨hno, hscratch⟩, hvariable⟩, hlatest⟩
        · exact absurd hnone (by simp)

theorem mem_unpinnedBase {d : Document} {p : Patterns} {m : Match} :
    m ∈ unpinnedBase d p ↔ ∃ i ∈ d.instructions, i.keyword = "FROM" ∧
      (∃ ref, imageRef? i.arguments.toList = some ref ∧ Floats d.instructions ref) ∧
      m = matchAt i := by
  simp only [unpinnedBase, eachThat, List.mem_map, List.mem_filter, Bool.and_eq_true,
    Option.any_eq_true, isUnpinned_iff, Instruction.isFrom, beq_iff_eq]
  constructor
  · rintro ⟨i, ⟨hi, hfrom, hfloats⟩, rfl⟩
    exact ⟨i, hi, hfrom, hfloats, rfl⟩
  · rintro ⟨i, hi, hfrom, hfloats, rfl⟩
    exact ⟨i, ⟨hi, hfrom, hfloats⟩, rfl⟩

/-- Exactly the `FROM`s are reported whose image floats, with the aliases of the whole file as stage
names. -/
theorem parse_reports_floating {text : String} {d : Document} (h : parse text = .ok d)
    (p : Patterns) :
    (Registry.standard.get? "OPT-001").map Rule.check = some (.ofDockerfile unpinnedBase) ∧
    (∀ m ∈ unpinnedBase d p, ∃ i ∈ d.instructions, i.keyword = "FROM" ∧ m = matchAt i) ∧
    ∀ i ∈ d.instructions, i.keyword = "FROM" →
      (matchAt i ∈ unpinnedBase d p ↔
        ∃ ref, imageRef? i.arguments.toList = some ref ∧ Floats d.instructions ref) := by
  refine ⟨rfl, fun m hm => ?_, fun i hi hfrom => ⟨fun hm => ?_, fun hfloats => ?_⟩⟩
  · obtain ⟨i, hi, hfrom, -, hm⟩ := mem_unpinnedBase.mp hm
    exact ⟨i, hi, hfrom, hm⟩
  · obtain ⟨j, hj, -, hfloats, hmatch⟩ := mem_unpinnedBase.mp hm
    -- A match names its instruction by the line.
    have hline : i.line = j.line := Int.ofNat.inj (congrArg Match.line hmatch)
    obtain rfl := Dockerfile.eq_of_line_eq h hi hj hline
    exact hfloats
  · exact mem_unpinnedBase.mpr ⟨i, hi, hfrom, hfloats, rfl⟩

/-- Of an image without a tag, one with an empty digest and a stage, the images are reported. -/
theorem parse_reports_floating_beside_stage :
    let d : Document := ⟨[⟨"FROM", "golang:1.22 AS Build", 1, 0⟩, ⟨"FROM", "build", 2, 1⟩,
      ⟨"FROM", "--platform=x node:LATEST@", 3, 2⟩], 3⟩
    parse "FROM golang:1.22 AS Build\nFROM build\nFROM --platform=x node:LATEST@\n" = .ok d ∧
    matchAt ⟨"FROM", "--platform=x node:LATEST@", 3, 2⟩ ∈ unpinnedBase d .standard ∧
    matchAt ⟨"FROM", "build", 2, 1⟩ ∉ unpinnedBase d .standard := by
  intro d
  have h : parse "FROM golang:1.22 AS Build\nFROM build\nFROM --platform=x node:LATEST@\n" =
      .ok d := by decide +kernel
  obtain ⟨-, -, hreported⟩ := parse_reports_floating h .standard
  refine ⟨h, ?_, ?_⟩
  · refine (hreported _ (by decide) rfl).mpr
      ⟨⟨"node".toList, some "LATEST".toList, some []⟩, ?_, ?_⟩
    · decide +kernel
    · exact ⟨.inr rfl, by decide +kernel, by decide, .inl ⟨_, rfl, by decide +kernel⟩⟩
  · rw [hreported _ (by decide) rfl]
    rintro ⟨ref, href, hfloats⟩
    have hbuild : imageRef? "build".toList = some ⟨"build".toList, none, none⟩ := by decide +kernel
    obtain rfl := Option.some.inj (hbuild.symm.trans href)
    rcases hfloats.tag with ⟨tag, htag, -⟩ | ⟨-, hnone⟩
    · exact absurd htag (by simp)
    · exact hnone ⟨"FROM", "golang:1.22 AS Build", 1, 0⟩ (by decide) rfl (by decide +kernel)

/-- No stage is declared before the first `FROM`, so its image floats there; the alias that comes
two stages later still keeps it from being reported. -/
theorem unpinnedBase_spares_later_alias :
    let d : Document := ⟨[⟨"FROM", "builder", 1, 0⟩, ⟨"FROM", "debian AS debian", 2, 1⟩,
      ⟨"FROM", "alpine:3 AS builder", 3, 2⟩], 3⟩
    parse "FROM builder\nFROM debian AS debian\nFROM alpine:3 AS builder\n" = .ok d ∧
    (∃ ref, imageRef? "builder".toList = some ref ∧ Floats [] ref) ∧
    unpinnedBase d .standard = [] := by
  refine ⟨by decide +kernel, ⟨⟨"builder".toList, none, none⟩, by decide +kernel, ?_⟩,
    by decide +kernel⟩
  exact ⟨.inl rfl, by decide +kernel, by decide, .inr ⟨rfl, by simp⟩⟩

end Rule

end ContainerAudit
