import ContainerAudit.Rule.Registry
import Mathlib.Data.List.Basic

/-!
# Wider pattern tables

A rule that looks for the entries of a table finds more in a wider one.  The lines on which it
reports are among those on which it reports under the wider table (`check_reports_under_wider`);
what it says there may change, since it names the first secret, the first command or all the ports
that it meets.

Two rules do not look for entries one by one.  A removed secret file may go by the name of its
destination, which is looked for only if a source is secret, so the names grow with the table as
well (`secretNames_subset`).  And the markers of slim tags excuse a base image: there the narrower
table reports more.
-/

namespace ContainerAudit

/-- One collection of tables lies within another: each table of it has no entries that the other
does not have, except the markers of slim tags, of which it has all. -/
structure Patterns.Within (p q : Patterns) : Prop where
  entries : ∀ table, table ≠ .slimTagMarkers → p.entries table ⊆ q.entries table
  markers : q.entries .slimTagMarkers ⊆ p.entries .slimTagMarkers

def linesOf (found : List Match) : List Int :=
  found.map (·.line)

theorem mem_linesOf {found : List Match} {line : Int} :
    line ∈ linesOf found ↔ ∃ m ∈ found, m.line = line :=
  List.mem_map

/-! ## Searches that find more -/

theorem any_of_subset {α : Type} {l l' : List α} {test : α → Bool} (hsub : l ⊆ l')
    (h : l.any test = true) : l'.any test = true := by
  obtain ⟨a, ha, htest⟩ := List.any_eq_true.mp h
  exact List.any_eq_true.mpr ⟨a, hsub ha, htest⟩

theorem find?_isSome_of_imp {α : Type} {l : List α} {test test' : α → Bool}
    (himp : ∀ a ∈ l, test a = true → test' a = true) (h : (l.find? test).isSome = true) :
    (l.find? test').isSome = true := by
  obtain ⟨a, ha, htest⟩ := List.find?_isSome.mp h
  exact List.find?_isSome.mpr ⟨a, ha, himp a ha htest⟩

theorem linesOf_filterMap_subset {α : Type} {f g : α → Option Match} (l : List α)
    (h : ∀ a ∈ l, ∀ m, f a = some m → ∃ m', g a = some m' ∧ m'.line = m.line) :
    linesOf (l.filterMap f) ⊆ linesOf (l.filterMap g) := by
  intro line hline
  obtain ⟨m, hm, rfl⟩ := mem_linesOf.mp hline
  obtain ⟨a, ha, hfa⟩ := List.mem_filterMap.mp hm
  obtain ⟨m', hga, hsame⟩ := h a ha m hfa
  exact mem_linesOf.mpr ⟨m', List.mem_filterMap.mpr ⟨a, ha, hga⟩, hsame⟩

theorem linesOf_map_filter_subset {α : Type} {make : α → Match} {test test' : α → Bool} (l : List α)
    (h : ∀ a ∈ l, test a = true → test' a = true) :
    linesOf ((l.filter test).map make) ⊆ linesOf ((l.filter test').map make) := by
  refine List.map_subset _ (List.map_subset _ fun a ha => ?_)
  obtain ⟨hmem, htest⟩ := List.mem_filter.mp ha
  exact List.mem_filter.mpr ⟨hmem, h a hmem htest⟩

theorem linesOf_flatMap_subset {α : Type} {f g : α → List Match} (l : List α)
    (h : ∀ a ∈ l, linesOf (f a) ⊆ linesOf (g a)) :
    linesOf (l.flatMap f) ⊆ linesOf (l.flatMap g) := by
  intro line hline
  obtain ⟨m, hm, rfl⟩ := mem_linesOf.mp hline
  obtain ⟨a, ha, hfa⟩ := List.mem_flatMap.mp hm
  obtain ⟨m', hga, hsame⟩ := mem_linesOf.mp (h a ha (mem_linesOf.mpr ⟨m, hfa, rfl⟩))
  exact mem_linesOf.mpr ⟨m', List.mem_flatMap.mpr ⟨a, ha, hga⟩, hsame⟩

namespace Rule

open ContainerAudit.Dockerfile (Instruction)

/-- A match with a message stands on the line of its instruction, whatever the message. -/
theorem linesOf_withMessage_subset {f g : Instruction → List Instruction → Option String}
    (is : List Instruction) (h : ∀ i rest, (f i rest).isSome = true → (g i rest).isSome = true) :
    linesOf (withMessage f is) ⊆ linesOf (withMessage g is) := by
  refine linesOf_filterMap_subset _ fun ⟨i, rest⟩ _ m hm => ?_
  obtain ⟨message, hmessage, rfl⟩ := Option.map_eq_some_iff.mp hm
  obtain ⟨message', hmessage'⟩ := Option.isSome_iff_exists.mp (h i rest (by simp [hmessage]))
  exact ⟨_, Option.map_eq_some_iff.mpr ⟨message', hmessage', rfl⟩, rfl⟩

/-! ## The rules that read tables -/

section Tables

variable {p q : Patterns} (h : p.Within q)

include h

theorem socketExposed_widens (d : Dockerfile.Document) :
    linesOf (socketExposed d p) ⊆ linesOf (socketExposed d q) := by
  refine linesOf_map_filter_subset _ fun i _ hi => ?_
  rw [Bool.and_eq_true] at hi ⊢
  exact ⟨hi.1, any_of_subset (h.entries .dockerSocketPaths (by decide)) hi.2⟩

theorem secretInVariable_widens (d : Dockerfile.Document) :
    linesOf (secretInVariable d p) ⊆ linesOf (secretInVariable d q) := by
  refine linesOf_filterMap_subset _ fun i _ m hm => ?_
  obtain ⟨name, hname, rfl⟩ := Option.map_eq_some_iff.mp hm
  have hfound : (declaredSecret? (q.entries .secretNameKeywords) i).isSome = true := by
    rw [declaredSecret?] at hname ⊢
    split
    · next hdeclares =>
        rw [if_pos hdeclares] at hname
        refine find?_isSome_of_imp (fun word _ => ?_) (Option.isSome_of_eq_some hname)
        exact any_of_subset (h.entries .secretNameKeywords (by decide))
    · next hdeclares =>
        rw [if_neg hdeclares] at hname
        exact absurd hname (Option.some_ne_none name).symm
  obtain ⟨name', hname'⟩ := Option.isSome_iff_exists.mp hfound
  exact ⟨_, Option.map_eq_some_iff.mpr ⟨name', hname', rfl⟩, rfl⟩

theorem sensitivePort_widens (d : Dockerfile.Document) :
    linesOf (sensitivePort d p) ⊆ linesOf (sensitivePort d q) := by
  refine linesOf_filterMap_subset _ fun i _ m hm => ?_
  simp only [Option.ite_none_right_eq_some, Bool.and_eq_true, Option.some.injEq] at hm ⊢
  obtain ⟨⟨hkeyword, hflagged⟩, rfl⟩ := hm
  refine ⟨_, ⟨⟨hkeyword, ?_⟩, rfl⟩, rfl⟩
  simp only [Bool.not_eq_true', List.isEmpty_eq_false_iff_exists_mem, List.mem_filter,
    List.contains_iff_mem] at hflagged ⊢
  obtain ⟨port, hport, hsensitive⟩ := hflagged
  exact ⟨port, hport, h.entries .sensitivePorts (by decide) hsensitive⟩

/-- A marker that excuses an image under the wider tables excuses it under the narrower ones. -/
theorem isBloated_of_within {r : Dockerfile.ImageRef} (hr : isBloated p r = true) :
    isBloated q r = true := by
  simp only [isBloated, Bool.and_eq_true, List.contains_iff_mem, Bool.not_eq_true'] at hr ⊢
  refine ⟨h.entries .bloatedBaseImages (by decide) hr.1, ?_⟩
  by_contra hslim
  exact absurd (any_of_subset h.markers (Bool.not_eq_false _ ▸ hslim)) (by simp [hr.2])

theorem bloatedBase_widens (d : Dockerfile.Document) :
    linesOf (bloatedBase d p) ⊆ linesOf (bloatedBase d q) := by
  refine linesOf_map_filter_subset _ fun i _ hi => ?_
  cases hreference : Dockerfile.imageRef? i.arguments.toList with
  | none => simp [hreference] at hi
  | some reference =>
      rw [hreference] at hi
      exact isBloated_of_within h hi

/-- The names under which removed files are looked for grow with the table. -/
theorem secretNames_subset (arguments : List Char) :
    secretNames (p.entries .secretFilePatterns) arguments ⊆
      secretNames (q.entries .secretFilePatterns) arguments := by
  have hsecret : ∀ sources : List (List Char),
      sources.filter (isSecretFile (p.entries .secretFilePatterns)) ⊆
        sources.filter (isSecretFile (q.entries .secretFilePatterns)) := by
    intro sources name hname
    simp only [List.mem_filter, isSecretFile, Bool.and_eq_true] at hname ⊢
    exact ⟨hname.1, hname.2.1, any_of_subset (h.entries .secretFilePatterns (by decide)) hname.2.2⟩
  intro name hname
  simp only [secretNames] at hname ⊢
  split at hname
  · exact absurd hname List.not_mem_nil
  · next hsome =>
      -- a secret under the narrower table is one under the wider, so the destination counts there
      rw [if_neg]
      · exact List.append_subset.mpr
          ⟨List.subset_append_of_subset_left _ (hsecret _), List.subset_append_right _ _⟩ hname
      · simp only [List.isEmpty_iff] at hsome ⊢
        exact fun hempty => hsome (List.subset_nil.mp (hempty ▸ hsecret _))

theorem secretRemovedLater_widens (d : Dockerfile.Document) :
    linesOf (secretRemovedLater d p) ⊆ linesOf (secretRemovedLater d q) := by
  refine linesOf_flatMap_subset _ fun stage _ => linesOf_withMessage_subset _ fun i rest hi => ?_
  rw [removalMessage?] at hi ⊢
  split
  · next hcopies =>
      rw [if_pos hcopies, Option.isSome_map] at hi
      rw [Option.isSome_map]
      refine find?_isSome_of_imp (fun j _ hj => ?_) hi
      rw [removes, Bool.and_eq_true] at hj ⊢
      exact ⟨hj.1, any_of_subset (secretNames_subset h _) hj.2⟩
  · next hcopies => rwa [if_neg hcopies] at hi

theorem contextCopiedFirst_widens (d : Dockerfile.Document) :
    linesOf (contextCopiedFirst d p) ⊆ linesOf (contextCopiedFirst d q) := by
  refine linesOf_flatMap_subset _ fun stage _ => linesOf_withMessage_subset _ fun i rest hi => ?_
  rw [contextMessage?] at hi ⊢
  split
  · next hcopies =>
      rw [if_pos hcopies, Option.isSome_map] at hi
      rw [Option.isSome_map]
      refine find?_isSome_of_imp (fun j _ hj => ?_) hi
      rw [installsDependencies, Bool.and_eq_true] at hj ⊢
      exact ⟨hj.1, any_of_subset (h.entries .dependencyInstallCommands (by decide)) hj.2⟩
  · next hcopies => rwa [if_neg hcopies] at hi

theorem toolchainShipped_widens (d : Dockerfile.Document) :
    linesOf (toolchainShipped d p) ⊆ linesOf (toolchainShipped d q) := by
  rw [toolchainShipped, toolchainShipped]
  split
  · exact List.Subset.refl _
  · refine linesOf_filterMap_subset _ fun i _ m hm => ?_
    simp only [Option.ite_none_right_eq_some, Bool.and_eq_true, Option.some.injEq] at hm ⊢
    obtain ⟨⟨hinstall, hfound⟩, rfl⟩ := hm
    refine ⟨_, ⟨⟨hinstall, ?_⟩, rfl⟩, rfl⟩
    simp only [Bool.not_eq_true', List.isEmpty_eq_false_iff_exists_mem, toolsIn,
      List.mem_filter] at hfound ⊢
    obtain ⟨tool, htool, hword⟩ := hfound
    exact ⟨tool, h.entries .buildToolchainPackages (by decide) htool, hword⟩

theorem socketMount_widens (d : Compose.Document) :
    linesOf (socketMount d p) ⊆ linesOf (socketMount d q) := by
  refine linesOf_flatMap_subset _ fun service _ => linesOf_map_filter_subset _ fun mount _ => ?_
  exact any_of_subset (h.entries .dockerSocketPaths (by decide))

theorem dangerousCapability_widens (d : Compose.Document) :
    linesOf (dangerousCapability d p) ⊆ linesOf (dangerousCapability d q) := by
  refine linesOf_flatMap_subset _ fun service _ => linesOf_map_filter_subset _ fun c _ hc => ?_
  rw [List.contains_iff_mem] at hc ⊢
  exact List.map_subset _ (h.entries .dangerousCapabilities (by decide)) hc

end Tables

end Rule

/-! ## All rules -/

/-- The check never fails, and under wider tables it reports on all the lines on which it reports
under narrower ones. -/
def Check.Widens (check : Check) : Prop :=
  ∀ {p q : Patterns}, p.Within q → ∀ m, ∃ found found', check m p = .ok found ∧
    check m q = .ok found' ∧ linesOf found ⊆ linesOf found'

section Checks

variable {f : Dockerfile.Document → Patterns → List Match}
  {g : Compose.Document → Patterns → List Match}

theorem Check.widens_ofDockerfile
    (hf : ∀ {p q : Patterns}, p.Within q → ∀ d, linesOf (f d p) ⊆ linesOf (f d q)) :
    (Check.ofDockerfile f).Widens := by
  intro p q h m
  obtain ⟨path, content⟩ := m
  cases content with
  | dockerfile d => exact ⟨_, _, rfl, rfl, hf h d⟩
  | compose d => exact ⟨_, _, rfl, rfl, List.Subset.refl _⟩

theorem Check.widens_ofCompose
    (hg : ∀ {p q : Patterns}, p.Within q → ∀ d, linesOf (g d p) ⊆ linesOf (g d q)) :
    (Check.ofCompose g).Widens := by
  intro p q h m
  obtain ⟨path, content⟩ := m
  cases content with
  | dockerfile d => exact ⟨_, _, rfl, rfl, List.Subset.refl _⟩
  | compose d => exact ⟨_, _, rfl, rfl, hg h d⟩

/-- A check that reads no table reports the same under all of them. -/
theorem Check.widens_ofDockerfile_of_unread (hf : ∀ d p q, f d p = f d q) :
    (Check.ofDockerfile f).Widens :=
  Check.widens_ofDockerfile fun {p q} _ d => by rw [hf d p q]; exact List.Subset.refl _

theorem Check.widens_ofCompose_of_unread (hg : ∀ d p q, g d p = g d q) :
    (Check.ofCompose g).Widens :=
  Check.widens_ofCompose fun {p q} _ d => by rw [hg d p q]; exact List.Subset.refl _

end Checks

namespace Rule

theorem serviceRules_widen : ∀ rule ∈ serviceRules, rule.check.Widens := by
  have unread {g} (hg : ∀ d p q, g d p = g d q) : (Check.ofCompose g).Widens :=
    Check.widens_ofCompose_of_unread hg
  simp only [serviceRules, List.forall_mem_cons, List.not_mem_nil, IsEmpty.forall_iff, implies_true,
    and_true]
  exact ⟨unread fun _ _ _ => rfl, Check.widens_ofCompose socketMount_widens,
    unread fun _ _ _ => rfl, unread fun _ _ _ => rfl,
    Check.widens_ofCompose dangerousCapability_widens, unread fun _ _ _ => rfl,
    unread fun _ _ _ => rfl, unread fun _ _ _ => rfl, unread fun _ _ _ => rfl⟩

theorem imageSecurityRules_widen : ∀ rule ∈ imageSecurityRules, rule.check.Widens := by
  have unread {f} (hf : ∀ d p q, f d p = f d q) : (Check.ofDockerfile f).Widens :=
    Check.widens_ofDockerfile_of_unread hf
  simp only [imageSecurityRules, List.forall_mem_cons, List.not_mem_nil, IsEmpty.forall_iff,
    implies_true, and_true]
  exact ⟨Check.widens_ofDockerfile socketExposed_widens, unread fun _ _ _ => rfl,
    Check.widens_ofDockerfile secretInVariable_widens, unread fun _ _ _ => rfl,
    unread fun _ _ _ => rfl, unread fun _ _ _ => rfl, unread fun _ _ _ => rfl,
    unread fun _ _ _ => rfl, Check.widens_ofDockerfile sensitivePort_widens,
    Check.widens_ofDockerfile secretRemovedLater_widens⟩

theorem optimizationRules_widen : ∀ rule ∈ optimizationRules, rule.check.Widens := by
  have unread {f} (hf : ∀ d p q, f d p = f d q) : (Check.ofDockerfile f).Widens :=
    Check.widens_ofDockerfile_of_unread hf
  simp only [optimizationRules, List.forall_mem_cons, List.not_mem_nil, IsEmpty.forall_iff,
    implies_true, and_true]
  exact ⟨unread fun _ _ _ => rfl, Check.widens_ofDockerfile bloatedBase_widens,
    Check.widens_ofDockerfile contextCopiedFirst_widens, unread fun _ _ _ => rfl,
    unread fun _ _ _ => rfl, unread fun _ _ _ => rfl, unread fun _ _ _ => rfl,
    unread fun _ _ _ => rfl, unread fun _ _ _ => rfl, unread fun _ _ _ => rfl,
    Check.widens_ofDockerfile toolchainShipped_widens, unread fun _ _ _ => rfl,
    unread fun _ _ _ => rfl⟩

theorem catalogue_widens : ∀ rule ∈ catalogue, rule.check.Widens := by
  rw [catalogue, List.forall_mem_append, List.forall_mem_append]
  exact ⟨⟨serviceRules_widen, imageSecurityRules_widen⟩, optimizationRules_widen⟩

end Rule

/-- **Widening a pattern table never hides a finding.**  A rule of the catalogue that applies to a
manifest reports, under wider tables, on every line on which it reports under narrower ones. -/
theorem check_reports_under_wider {p q : Patterns} (h : p.Within q) (m : Manifest) {rule : Rule}
    (hrule : rule ∈ Registry.standard.ofKind m.content.kind) :
    ∃ found found', rule.check m p = .ok found ∧ rule.check m q = .ok found' ∧
      ∀ x ∈ found, ∃ y ∈ found', y.line = x.line := by
  have hcatalogue : rule ∈ Rule.catalogue := List.mem_of_mem_filter hrule
  obtain ⟨found, found', hp, hq, hlines⟩ := Rule.catalogue_widens rule hcatalogue h m
  refine ⟨found, found', hp, hq, fun x hx => ?_⟩
  exact mem_linesOf.mp (hlines (mem_linesOf.mpr ⟨x, hx, rfl⟩))

/-- A copied key is removed on line 4.  Under the wider table the other file counts as a secret too,
and its removal on line 3 is what the rule names instead; it still reports on the copy. -/
theorem check_reports_copy_under_wider :
    let text := "FROM a\nCOPY k.pem x.conf /etc/\nRUN rm /etc/x.conf\nRUN rm k.pem\n"
    let p : Patterns := Patterns.standard.replace .secretFilePatterns ["*.pem"]
    let q : Patterns := (Patterns.standard.replace .secretFilePatterns ["*.conf", "*.pem"]).replace
      .slimTagMarkers ["slim"]
    p.Within q ∧ ∃ d, Dockerfile.parse text = .ok d ∧
      ∃ rule ∈ Registry.standard.ofKind .dockerfile, rule.id = "SEC-010" ∧
        ∃ found', rule.check ⟨"Dockerfile", .dockerfile d⟩ q = .ok found' ∧
          ∃ y ∈ found', y.line = 2 := by
  intro text p q
  have hwithin : p.Within q := ⟨fun table => by cases table <;> decide, by decide⟩
  let d : Dockerfile.Document :=
    ⟨[⟨"FROM", "a", 1, 0⟩, ⟨"COPY", "k.pem x.conf /etc/", 2, 0⟩, ⟨"RUN", "rm /etc/x.conf", 3, 0⟩,
      ⟨"RUN", "rm k.pem", 4, 0⟩], 1⟩
  let rule := Rule.imageSecurityRules[9]
  have hrule : rule ∈ Registry.standard.ofKind .dockerfile :=
    List.mem_filter.mpr ⟨List.mem_append_left _ (List.mem_append_right _ (List.getElem_mem _)), rfl⟩
  have hp : rule.check ⟨"Dockerfile", .dockerfile d⟩ p = .ok [⟨2, "COPY k.pem x.conf /etc/",
      some "Secret file copied here is removed on line 4, but remains in the earlier layer.",
      none⟩] := by
    decide +kernel
  obtain ⟨found, found', hfound, hfound', hlines⟩ :=
    check_reports_under_wider hwithin ⟨"Dockerfile", .dockerfile d⟩ hrule
  rw [hp] at hfound
  exact ⟨hwithin, d, by decide +kernel, rule, hrule, rfl, found', hfound',
    hlines _ (Except.ok.inj hfound ▸ List.mem_singleton_self _)⟩

end ContainerAudit
