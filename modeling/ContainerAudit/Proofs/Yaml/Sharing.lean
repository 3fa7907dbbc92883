import ContainerAudit.Proofs.Yaml.Flattening

/-!
# Values in any order

A node that an alias shares is built more than once, and in between the graph changes: mappings are
flattened, and keys that stand for the plain value of a mapping become texts.  What is built from a
node is nevertheless the same each time, if nothing that is looked at merges itself or is such a
key, and no pair in a list of pairs has a merge (`Graph.Layered.value_parallel`).  Of the changes
only flattening is left then, and it goes by a plan; pairs are excepted because they are looked at
as they are, flattened or not.
-/

namespace ContainerAudit

namespace Yaml.Graph

/-- A node holds another one: as an item, as a key or as a value. -/
def Part (g : Graph) (id part : Nat) : Prop :=
  match (g.node id).content with
  | .scalar _ => False
  | .sequence items => part ∈ items
  | .mapping entries => ∃ entry ∈ entries, part = entry.1 ∨ part = entry.2

/-- Some of the seen nodes, with all their parts. Where pairs are listed, none of them has a merge:
a pair is not flattened, so it would matter if it has been before. -/
structure Whole (g : Graph) (seen built : Nat → Prop) : Prop where
  seen : ∀ {id}, built id → seen id
  part : ∀ {id part}, built id → g.Part id part → built part
  pairs : ∀ {id part}, built id → (g.node id).tag = .orderedMap ∨ (g.node id).tag = .pairs →
    g.Part id part → ∀ entry ∈ g.entries part, g.isMerge entry = false

/-- A step on the way: a mapping is flattened. -/
structure FlattenStep (g : Graph) (seen : Nat → Prop) (id : Nat) (g₁ f₁ : Graph) : Prop where
  flatten : g₁.flatten id = .ok f₁
  settled : g.Settled seen f₁
  flattens : Flattens g [id] g₁ f₁

/-- A relation of two graphs on the way that is kept when the same mapping is flattened in both. -/
structure Lockstep (g : Graph) (seen : Nat → Prop) (rel : Graph → Graph → Prop) : Prop where
  left : ∀ {g₁ g₂}, rel g₁ g₂ → g.Settled seen g₁
  right : ∀ {g₁ g₂}, rel g₁ g₂ → g.Settled seen g₂
  step : ∀ {id g₁ g₂ f₁ f₂}, seen id → (g.node id).content.shape = .mapping → rel g₁ g₂ →
    FlattenStep g seen id g₁ f₁ → FlattenStep g seen id g₂ f₂ → rel f₁ f₂

/-- What is built in two graphs on the way is the same, and both are left so. -/
def SameBuilt {α : Type} (rel : Graph → Graph → Prop) (r r' : α × Graph) : Prop :=
  r.1 = r'.1 ∧ rel r.2 r'.2

theorem Lockstep.of_settled (g : Graph) (seen : Nat → Prop) :
    Lockstep g seen fun g₁ g₂ => g.Settled seen g₁ ∧ g.Settled seen g₂ where
  left := And.left
  right := And.right
  step := fun _ _ _ h₁ h₂ => ⟨h₁.settled, h₂.settled⟩

theorem part_of_entry {g : Graph} {id : Nat} {entry : Nat × Nat} (h : entry ∈ g.entries id) :
    g.Part id entry.1 ∧ g.Part id entry.2 := by
  rw [entries] at h
  split at h
  · next entries hmap =>
      rw [Part, Part, hmap]
      exact ⟨⟨entry, h, .inl rfl⟩, ⟨entry, h, .inr rfl⟩⟩
  · exact absurd h List.not_mem_nil

theorem part_of_item {g : Graph} {id item : Nat} {items : List Nat}
    (h : (g.node id).content = .sequence items) (hitem : item ∈ items) : g.Part id item := by
  rwa [Part, h]

/-! ## Contents -/

theorem Settled.content_eq {g : Graph} {seen : Nat → Prop} {g₁ : Graph} (h₁ : g.Settled seen g₁)
    {id : Nat} (hid : seen id) (h : (g.node id).content.shape ≠ .mapping) :
    (g₁.node id).content = (g.node id).content := by
  rcases (h₁.kept hid).content with hcontent | ⟨hmap, -⟩
  · exact hcontent
  · exact absurd hmap h

theorem Settled.mapping {g : Graph} {seen : Nat → Prop} {g₁ : Graph} (h₁ : g.Settled seen g₁)
    {id : Nat} (hid : seen id) (h : (g.node id).content.shape = .mapping) :
    ∃ entries, (g₁.node id).content = .mapping entries :=
  eq_mapping_of_shape ((h₁.kept hid).shape.trans h)

/-- A mapping without merges stays as it is. -/
theorem Settled.content_eq_of_no_merge {g : Graph} {seen : Nat → Prop} {g₁ : Graph}
    (h₁ : g.Settled seen g₁) {id : Nat} (hid : seen id)
    (h : ∀ entry ∈ g.entries id, g.isMerge entry = false) :
    (g₁.node id).content = (g.node id).content := by
  by_cases hshape : (g.node id).content.shape = .mapping
  · rcases h₁.settled hid with hfirst | ⟨planned, hplanned, hcontent⟩
    · exact hfirst
    · obtain ⟨entries, hentries⟩ := eq_mapping_of_shape hshape
      have hown : g.entries id = entries := entries_of_mapping hentries
      rw [hown] at h
      obtain ⟨hnone, hall⟩ := filter_isMerge_of_none fun entry hentry =>
        Bool.eq_false_iff.mp (h entry hentry)
      rw [flat, flatWithin, hentries] at hplanned
      simp only [hnone, hall] at hplanned
      cases hplanned
      rw [hcontent, hentries]
      rfl
  · exact h₁.content_eq hid hshape

section Build

variable {g : Graph} {seen : Nat → Prop} {rank : Nat → Nat} (hg : g.Layered seen rank)
  {g₁ g₂ : Graph} (h₁ : g.Settled seen g₁) (h₂ : g.Settled seen g₂)

include hg h₁ h₂

theorem Layered.node_eq {id : Nat} (hid : seen id) (h : (g.node id).content.shape ≠ .mapping) :
    g₁.node id = g₂.node id := by
  have htag := (hg.tag_eq hid (h₁.kept hid)).trans (hg.tag_eq hid (h₂.kept hid)).symm
  have hstart := (h₁.kept hid).start.trans (h₂.kept hid).start.symm
  have hcontent := (h₁.content_eq hid h).trans (h₂.content_eq hid h).symm
  cases hn₁ : g₁.node id
  cases hn₂ : g₂.node id
  rw [hn₁, hn₂] at htag hstart hcontent
  exact Node.mk.injEq .. ▸ ⟨htag, hstart, hcontent⟩

/-! ## Leaves -/

omit hg h₁ h₂ in
theorem leafText_of_not_mapping {id : Nat} (h : (g₁.node id).content.shape ≠ .mapping) :
    g₁.leafText id = g₁.requireText (g₁.size + 1) id := by
  rw [leafText]
  split
  · next hmap _ => exact absurd (shape_eq_mapping hmap) h
  · rfl

omit hg h₁ h₂ in
theorem keepText_of_not_mapping {id : Nat} (h : (g₁.node id).content.shape ≠ .mapping) :
    g₁.keepText id = g₁ := by
  rw [keepText]
  split
  · next hmap _ => exact absurd (shape_eq_mapping hmap) h
  · rfl

omit h₂ in
/-- A node that is not a scalar has no value without parts. -/
theorem Layered.leafValue_fails {id : Nat} (hid : seen id)
    (h : (g.node id).content.shape ≠ .scalar) : ∃ e, g₁.leafValue id = .error e := by
  have hshape : (g₁.node id).content.shape ≠ .scalar := (h₁.kept hid).shape ▸ h
  have htext : ∃ e, g₁.leafText id = .error e := by
    have hnone : g₁.leafText id = g₁.requireText (g₁.size + 1) id := by
      rw [leafText, h₁.texts]
      split
      · next hkept => cases hkept
      · rfl
    rw [hnone, requireText]
    split
    · next text hscalar => exact absurd (by rw [hscalar]; rfl) hshape
    · exact ⟨_, rfl⟩
    · next entries hmap =>
        -- no key stands for the plain value of the mapping
        have hkeys : ∀ entry ∈ entries, seen entry.1 := by
          intro entry hentry
          rcases h₁.settled hid with hfirst | ⟨planned, hplanned, hcontent⟩
          · exact hg.key hid entry (by rwa [Graph.entries, ← hfirst, hmap])
          · rw [hmap] at hcontent
            cases hcontent
            exact (hg.planned hid hplanned entry hentry).1
        have hnone : entries.find? (fun entry => (g₁.node entry.1).tag == .value) = none := by
          rw [List.find?_eq_none]
          intro entry hentry
          have hkey := hkeys entry hentry
          rw [hg.tag_eq hkey (h₁.kept hkey), beq_iff_eq]
          exact hg.plain hkey
        exact ⟨_, by rw [hnone]⟩
  obtain ⟨e, he⟩ := htext
  rw [leafValue]
  split
  · exact ⟨_, rfl⟩
  · exact ⟨_, rfl⟩
  · exact ⟨_, rfl⟩
  · rw [he]
    exact ⟨e, rfl⟩

omit hg h₁ h₂ in
/-- The value of a scalar depends on its node alone. -/
theorem leafValue_eq_of_node_eq {id : Nat} (h : g₁.node id = g₂.node id)
    (hscalar : (g₁.node id).content.shape = .scalar) : g₁.leafValue id = g₂.leafValue id := by
  have hnot : (g₁.node id).content.shape ≠ .mapping := by
    rw [hscalar]
    exact nofun
  have htext : g₁.leafText id = g₂.leafText id := by
    rw [leafText_of_not_mapping hnot, leafText_of_not_mapping (h ▸ hnot), requireText, requireText,
      ← h]
    split
    · rfl
    · rfl
    · next hmap =>
        rw [hmap] at hscalar
        cases hscalar
  rw [leafValue, leafValue, htext, ← h]

theorem Layered.leafValue_parallel {id : Nat} (hid : seen id) :
    Parallel (fun v v' => v = v' ∧ g₁.keepText id = g₁ ∧ g₂.keepText id = g₂) (g₁.leafValue id)
      (g₂.leafValue id) := by
  by_cases hscalar : (g.node id).content.shape = .scalar
  · have hnot : (g.node id).content.shape ≠ .mapping := by
      rw [hscalar]
      exact nofun
    have hsame := leafValue_eq_of_node_eq (hg.node_eq h₁ h₂ hid hnot)
      ((h₁.kept hid).shape.trans hscalar)
    exact (Parallel.of_eq hsame).mono fun v v' hv =>
      ⟨hv, keepText_of_not_mapping ((h₁.kept hid).shape ▸ hnot),
        keepText_of_not_mapping ((h₂.kept hid).shape ▸ hnot)⟩
  · obtain ⟨e₁, he₁⟩ := hg.leafValue_fails h₁ hid hscalar
    obtain ⟨e₂, he₂⟩ := hg.leafValue_fails h₂ hid hscalar
    rw [he₁, he₂]
    exact trivial

/-! ## Parts -/

omit hg in
theorem requireItems_parallel {id : Nat} (hid : seen id) :
    Parallel (fun items items' => items = items' ∧ (g.node id).content = .sequence items)
      (g₁.requireItems id) (g₂.requireItems id) := by
  cases hcontent : (g.node id).content with
  | mapping entries =>
      have hmap := shape_eq_mapping hcontent
      obtain ⟨entries₁, hentries₁⟩ := h₁.mapping hid hmap
      obtain ⟨entries₂, hentries₂⟩ := h₂.mapping hid hmap
      simp only [requireItems, hentries₁, hentries₂]
      exact trivial
  | sequence items =>
      have hnot := not_mapping_of_sequence hcontent
      simp only [requireItems, h₁.content_eq hid hnot, h₂.content_eq hid hnot, hcontent]
      exact ⟨rfl, rfl⟩
  | scalar text =>
      have hnot := not_mapping_of_scalar hcontent
      simp only [requireItems, h₁.content_eq hid hnot, h₂.content_eq hid hnot, hcontent]
      exact trivial

omit hg in
theorem requireParts_parallel (context : Context) {id : Nat} (hid : seen id) :
    Parallel (fun parts parts' => parts = parts' ∧ (g.node id).content = .sequence parts)
      (g₁.requireParts context id) (g₂.requireParts context id) := by
  have hitems := requireItems_parallel h₁ h₂ hid
  rw [requireItems, requireItems] at hitems
  rw [requireParts, requireParts]
  generalize (g₁.node id).content = content₁ at hitems ⊢
  generalize (g₂.node id).content = content₂ at hitems ⊢
  cases content₁ <;> cases content₂ <;> exact hitems

omit hg in
theorem requirePair_parallel (context : Context) (id : Nat) {part : Nat} (hpart : seen part)
    (hnone : ∀ entry ∈ g.entries part, g.isMerge entry = false) :
    Parallel (fun entry entry' => entry = entry' ∧ entry ∈ g.entries part)
      (g₁.requirePair context id part) (g₂.requirePair context id part) := by
  simp only [requirePair, h₁.content_eq_of_no_merge hpart hnone,
    h₂.content_eq_of_no_merge hpart hnone]
  split
  · next entry hmap =>
      refine ⟨rfl, ?_⟩
      rw [entries_of_mapping hmap]
      exact List.mem_singleton_self entry
  · exact trivial
  · exact trivial

end Build

section Flatten

variable {g : Graph} {seen : Nat → Prop} {rank : Nat → Nat} (hg : g.Layered seen rank)
  {rel : Graph → Graph → Prop} (hrel : Lockstep g seen rel) {g₁ g₂ : Graph} (h : rel g₁ g₂)

include hg hrel h

/-- Two graphs on the way are flattened alike, since both follow the plan. -/
theorem Layered.flatten_same {id : Nat} (hid : seen id)
    (hmap : (g.node id).content.shape = .mapping) :
    Parallel (fun f₁ f₂ => g.flat id = .ok (f₁.entries id) ∧ f₁.entries id = f₂.entries id ∧
        rel f₁ f₂)
      (g₁.flatten id) (g₂.flatten id) := by
  refine ((hg.flatten_parallel hid hmap (hrel.left h)).attach.symm.trans
    (hg.flatten_parallel hid hmap (hrel.right h)).attach).mono fun f₁ f₂ hplan => ?_
  obtain ⟨entries, ⟨⟨hentries, hflatten₁⟩, hcontent₁, hstep₁⟩, ⟨-, hflatten₂⟩, hcontent₂, hstep₂⟩ :=
    hplan
  have hown₁ : f₁.entries id = entries := entries_of_mapping hcontent₁
  have hown₂ : f₂.entries id = entries := entries_of_mapping hcontent₂
  exact ⟨hentries.trans (congrArg _ hown₁.symm), hown₁.trans hown₂.symm,
    hrel.step hid hmap h ⟨hflatten₁, hstep₁.1, hstep₁.2⟩ ⟨hflatten₂, hstep₂.1, hstep₂.2⟩⟩

theorem Layered.requireEntries_parallel {id : Nat} (hid : seen id) :
    Parallel (fun r r' => g.flat id = .ok r.1 ∧ SameBuilt rel r r')
      (g₁.requireEntries id) (g₂.requireEntries id) := by
  by_cases hmap : (g.node id).content.shape = .mapping
  · obtain ⟨entries₁, hentries₁⟩ := (hrel.left h).mapping hid hmap
    obtain ⟨entries₂, hentries₂⟩ := (hrel.right h).mapping hid hmap
    simp only [requireEntries, hentries₁, hentries₂]
    exact (hg.flatten_same hrel h hid hmap).map fun f₁ f₂ hsame => hsame
  · have hleft := (hrel.left h).content_eq hid hmap
    have hright := (hrel.right h).content_eq hid hmap
    simp only [requireEntries, hleft, hright]
    split
    · next entries hentries => exact absurd (shape_eq_mapping hentries) hmap
    · exact trivial

end Flatten

/-! ## Values -/

section Parts

variable {g : Graph} {seen built : Nat → Prop} {rel : Graph → Graph → Prop}
  {part : Nat → Graph → Except Error (Value × Graph)}
  (hpart : ∀ {id g₁ g₂}, built id → rel g₁ g₂ →
    Parallel (SameBuilt rel) (part id g₁) (part id g₂))

include hpart

theorem buildItems_parallel {items : List Nat} (hitems : ∀ item ∈ items, built item)
    {g₁ g₂ : Graph} (h : rel g₁ g₂) :
    Parallel (SameBuilt rel) (buildItems part items g₁) (buildItems part items g₂) := by
  induction items generalizing g₁ g₂ with
  | nil => exact ⟨rfl, h⟩
  | cons item rest ih =>
      obtain ⟨hitem, hrest⟩ := List.forall_mem_cons.mp hitems
      rw [buildItems, buildItems]
      refine (hpart hitem h).bind ?_
      rintro ⟨v₁, f₁⟩ ⟨v₂, f₂⟩ ⟨rfl, hf⟩
      refine (ih hrest hf).bind ?_
      rintro ⟨vs₁, f₁⟩ ⟨vs₂, f₂⟩ ⟨rfl, hf⟩
      exact ⟨rfl, hf⟩

theorem buildEntries_parallel (id : Nat) (sofar : List (Value × Value)) {entries : List (Nat × Nat)}
    (hentries : ∀ entry ∈ entries, built entry.1 ∧ built entry.2) {g₁ g₂ : Graph} (h : rel g₁ g₂) :
    Parallel (SameBuilt rel) (buildEntries part id sofar entries g₁)
      (buildEntries part id sofar entries g₂) := by
  induction entries generalizing sofar g₁ g₂ with
  | nil => exact ⟨rfl, h⟩
  | cons entry rest ih =>
      obtain ⟨⟨hkey, hvalue⟩, hrest⟩ := List.forall_mem_cons.mp hentries
      rw [buildEntries, buildEntries]
      refine (hpart hkey h).bind ?_
      rintro ⟨k₁, f₁⟩ ⟨k₂, f₂⟩ ⟨rfl, hf⟩
      dsimp only
      split
      · refine (hpart hvalue hf).bind ?_
        rintro ⟨v₁, f₁⟩ ⟨v₂, f₂⟩ ⟨rfl, hf⟩
        exact ih _ hrest hf
      · exact trivial

theorem buildPairs_parallel (hrel : Lockstep g seen rel) (context : Context) (id : Nat)
    {parts : List Nat} (hseen : ∀ pair ∈ parts, seen pair)
    (hnone : ∀ pair ∈ parts, ∀ entry ∈ g.entries pair, g.isMerge entry = false)
    (hbuilt : ∀ pair ∈ parts, ∀ entry ∈ g.entries pair, built entry.1 ∧ built entry.2)
    {g₁ g₂ : Graph} (h : rel g₁ g₂) :
    Parallel (SameBuilt rel) (buildPairs part context id parts g₁)
      (buildPairs part context id parts g₂) := by
  induction parts generalizing g₁ g₂ with
  | nil => exact ⟨rfl, h⟩
  | cons pair rest ih =>
      obtain ⟨hseenpair, hseen⟩ := List.forall_mem_cons.mp hseen
      obtain ⟨hnonepair, hnone⟩ := List.forall_mem_cons.mp hnone
      obtain ⟨hbuiltpair, hbuilt⟩ := List.forall_mem_cons.mp hbuilt
      rw [buildPairs, buildPairs]
      refine (requirePair_parallel (hrel.left h) (hrel.right h) context id hseenpair hnonepair).bind
        fun entry entry' hentry => ?_
      obtain ⟨rfl, hentry⟩ := hentry
      obtain ⟨hkey, hvalue⟩ := hbuiltpair entry hentry
      refine (hpart hkey h).bind ?_
      rintro ⟨k₁, f₁⟩ ⟨k₂, f₂⟩ ⟨rfl, hf⟩
      refine (hpart hvalue hf).bind ?_
      rintro ⟨v₁, f₁⟩ ⟨v₂, f₂⟩ ⟨rfl, hf⟩
      refine (ih hseen hnone hbuilt hf).bind ?_
      rintro ⟨vs₁, f₁⟩ ⟨vs₂, f₂⟩ ⟨rfl, hf⟩
      exact ⟨rfl, hf⟩

end Parts

section Values

variable {g : Graph} {seen built : Nat → Prop} {rank : Nat → Nat} (hg : g.Layered seen rank)
  (hw : g.Whole seen built) {rel : Graph → Graph → Prop} (hrel : Lockstep g seen rel)

include hw

theorem Whole.built_of_reached {id source : Nat} (hid : built id)
    (h : Relation.ReflTransGen g.Merges id source) : built source := by
  induction h with
  | refl => exact hid
  | tail _ hstep ih =>
      obtain ⟨entry, hentry, -, hpart⟩ := hstep
      have hvalue := hw.part ih (part_of_entry hentry).2
      rcases eq_or_item_of_merged hpart with rfl | ⟨items, hseq, hitem⟩
      · exact hvalue
      · exact hw.part hvalue (part_of_item hseq hitem)

theorem Whole.built_of_planned {id : Nat} (hid : built id) {entries : List (Nat × Nat)}
    (h : g.flat id = .ok entries) : ∀ entry ∈ entries, built entry.1 ∧ built entry.2 := by
  intro entry hentry
  obtain ⟨source, hsource, hmem, -⟩ := mem_flatWithin h hentry
  have hbuilt := hw.built_of_reached hid hsource
  exact ⟨hw.part hbuilt (part_of_entry hmem).1, hw.part hbuilt (part_of_entry hmem).2⟩

section

variable {part : Nat → Graph → Except Error (Value × Graph)}
  (hpart : ∀ {id g₁ g₂}, built id → rel g₁ g₂ →
    Parallel (SameBuilt rel) (part id g₁) (part id g₂))
  {id : Nat} (hid : built id)

include hpart hid

theorem Whole.planned_parallel {r r' : List (Nat × Nat) × Graph} (hflat : g.flat id = .ok r.1)
    (hr : SameBuilt rel r r') :
    Parallel (SameBuilt rel) (buildEntries part id [] r.1 r.2)
      (buildEntries part id [] r'.1 r'.2) := by
  obtain ⟨hsame, h⟩ := hr
  rw [← hsame]
  exact buildEntries_parallel hpart id [] (hw.built_of_planned hid hflat) h

include hrel

theorem Whole.pairs_parallel (context : Context)
    (htag : (g.node id).tag = .orderedMap ∨ (g.node id).tag = .pairs) {parts : List Nat}
    (hparts : (g.node id).content = .sequence parts) {g₁ g₂ : Graph} (h : rel g₁ g₂) :
    Parallel (SameBuilt rel) (buildPairs part context id parts g₁)
      (buildPairs part context id parts g₂) := by
  have hpair {pair : Nat} (h : pair ∈ parts) : g.Part id pair := part_of_item hparts h
  refine buildPairs_parallel hpart hrel context id (fun pair h => hw.seen (hw.part hid (hpair h)))
    (fun pair h => hw.pairs hid htag (hpair h)) (fun pair h entry hentry => ?_) h
  obtain ⟨hkey, hvalue⟩ := part_of_entry hentry
  have hbuilt := hw.part hid (hpair h)
  exact ⟨hw.part hbuilt hkey, hw.part hbuilt hvalue⟩

end

include hg hrel

/-- What is built from a node is the same in all graphs on the way. -/
theorem Layered.build_parallel (cycles : Cycles) (depth : Nat) (around : List Nat) {id : Nat}
    (hid : built id) {g₁ g₂ : Graph} (h : rel g₁ g₂) :
    Parallel (SameBuilt rel) (build cycles depth around id g₁)
      (build cycles depth around id g₂) := by
  induction depth generalizing around id g₁ g₂ with
  | zero => exact ⟨rfl, h⟩
  | succ depth ih =>
      have hseen := hw.seen hid
      have hpart := fun {part} {g₁ g₂ : Graph} (hpart : built part) (h : rel g₁ g₂) =>
        ih (id :: around) hpart h
      have h₁ := hrel.left h
      have h₂ := hrel.right h
      rw [build.eq_def, build.eq_def]
      dsimp only
      rw [hg.tag_eq hseen (h₁.kept hseen), hg.tag_eq hseen (h₂.kept hseen)]
      split
      · cases cycles with
        | refused => exact trivial
        | cut => exact ⟨rfl, h⟩
      · split
        · refine (requireItems_parallel h₁ h₂ hseen).bind fun items items' hitems => ?_
          obtain ⟨rfl, hcontent⟩ := hitems
          exact (buildItems_parallel hpart (fun item hitem =>
            hw.part hid (part_of_item hcontent hitem)) h).bind fun r r' hr =>
              ⟨congrArg Value.list hr.1, hr.2⟩
        · refine (hg.requireEntries_parallel hrel h hseen).bind fun r r' hr => ?_
          exact (hw.planned_parallel hpart hid hr.1 hr.2).bind fun r r' hr =>
            ⟨congrArg Value.map hr.1, hr.2⟩
        · refine (hg.requireEntries_parallel hrel h hseen).bind fun r r' hr => ?_
          exact (hw.planned_parallel hpart hid hr.1 hr.2).bind fun r r' hr =>
            ⟨congrArg (fun entries => Value.set (entries.map (·.1))) hr.1, hr.2⟩
        · next htag =>
            refine (requireParts_parallel h₁ h₂ _ hseen).bind fun parts parts' hparts => ?_
            obtain ⟨rfl, hcontent⟩ := hparts
            exact (hw.pairs_parallel hrel hpart hid _ (.inl htag) hcontent h).bind fun r r' hr =>
              ⟨congrArg Value.list hr.1, hr.2⟩
        · next htag =>
            refine (requireParts_parallel h₁ h₂ _ hseen).bind fun parts parts' hparts => ?_
            obtain ⟨rfl, hcontent⟩ := hparts
            exact (hw.pairs_parallel hrel hpart hid _ (.inr htag) hcontent h).bind fun r r' hr =>
              ⟨congrArg Value.list hr.1, hr.2⟩
        · refine (hg.leafValue_parallel h₁ h₂ hseen).map fun v v' hv => ?_
          obtain ⟨hv, hkept₁, hkept₂⟩ := hv
          rw [hkept₁, hkept₂]
          exact ⟨hv, h⟩

/-- The value of a node does not depend on what has been built before. -/
theorem Layered.value_parallel {id : Nat} (hid : built id) {g₁ g₂ : Graph} (h : rel g₁ g₂) :
    Parallel (SameBuilt rel) (g₁.value id) (g₂.value id) := by
  rw [Graph.value, Graph.value, (hrel.left h).size, (hrel.right h).size]
  exact hg.build_parallel hw hrel .refused (g.size + 1) [] hid h

end Values

end Yaml.Graph

end ContainerAudit
