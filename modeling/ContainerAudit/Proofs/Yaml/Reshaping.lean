import ContainerAudit.Proofs.Steps
import ContainerAudit.Proofs.Value
import ContainerAudit.Yaml.Build

/-!
# What building changes

Building values flattens mappings on the way, and so changes the graph that later steps read.  Here
is said once what such a change can be (`Graph.Reshapes`): a mapping may have other entries, and a
key that stands for the plain value of its mapping may have become a text.  Marks, scalars and
sequences stay as they are.  The statements about building take the errors that are to be avoided
and a property of values as parameters, so one induction serves those who ask which errors can come
up, those who ask what the values are like, and those who only ask for the graph afterwards.
-/

namespace ContainerAudit

namespace Yaml

/-! ## Changes of a graph -/

/-- The node after a change that building can make. -/
structure Node.Reshaped (n n' : Node) : Prop where
  start : n'.start = n.start
  tag : n'.tag = n.tag ∨ n.tag = .value ∧ n'.tag = .str
  content : n'.content = n.content ∨ n.content.shape = .mapping ∧ n'.content.shape = .mapping

theorem Node.Reshaped.refl (n : Node) : n.Reshaped n :=
  ⟨rfl, .inl rfl, .inl rfl⟩

theorem Node.Reshaped.trans {n n' n'' : Node} (h : n.Reshaped n') (h' : n'.Reshaped n'') :
    n.Reshaped n'' := by
  refine ⟨h'.start.trans h.start, ?_, ?_⟩
  · rcases h.tag with ht | ⟨hv, hs⟩
    · rcases h'.tag with ht' | ⟨hv', hs'⟩
      · exact .inl (ht'.trans ht)
      · exact .inr ⟨ht ▸ hv', hs'⟩
    · rcases h'.tag with ht' | ⟨hv', -⟩
      · exact .inr ⟨hv, ht'.trans hs⟩
      · rw [hs] at hv'
        exact nomatch hv'
  · rcases h.content with hc | ⟨hm, hm'⟩
    · rcases h'.content with hc' | ⟨hm', hm''⟩
      · exact .inl (hc'.trans hc)
      · exact .inr ⟨hc ▸ hm', hm''⟩
    · rcases h'.content with hc' | ⟨-, hm''⟩
      · exact .inr ⟨hm, hc' ▸ hm'⟩
      · exact .inr ⟨hm, hm''⟩

theorem Node.Reshaped.shape {n n' : Node} (h : n.Reshaped n') :
    n'.content.shape = n.content.shape := by
  rcases h.content with hc | ⟨hm, hm'⟩
  · rw [hc]
  · rw [hm, hm']

namespace Graph

structure Reshapes (g g' : Graph) : Prop where
  size : g'.size = g.size
  node : ∀ id, (g.node id).Reshaped (g'.node id)

theorem Reshapes.refl (g : Graph) : g.Reshapes g :=
  ⟨rfl, fun _ => .refl _⟩

theorem Reshapes.trans {g g' g'' : Graph} (h : g.Reshapes g') (h' : g'.Reshapes g'') :
    g.Reshapes g'' :=
  ⟨h'.size.trans h.size, fun id => (h.node id).trans (h'.node id)⟩

theorem Reshapes.lineOf {g g' : Graph} (h : g.Reshapes g') (id : Nat) :
    g'.lineOf id = g.lineOf id := by
  rw [Graph.lineOf, Graph.lineOf, (h.node id).start]

theorem reshapes_keepText (g : Graph) (id : Nat) : g.Reshapes (g.keepText id) := by
  have hnodes : (g.keepText id).nodes = g.nodes := by
    rw [keepText]
    split <;> rfl
  refine ⟨by rw [size, hnodes, size], fun other => ?_⟩
  rw [node, node, hnodes]
  exact .refl _

theorem node_modify (g : Graph) (id : Nat) (f : Node → Node) (other : Nat) :
    (g.modify id f).node other = g.node other ∨
      other = id ∧ (g.modify id f).node other = f (g.node other) := by
  simp only [node, modify, Array.getD_eq_getD_getElem?, Array.getElem?_modify]
  by_cases hid : id = other
  · rw [if_pos hid]
    cases g.nodes[other]? with
    | none => exact .inl rfl
    | some n => exact .inr ⟨hid.symm, rfl⟩
  · rw [if_neg hid]
    exact .inl rfl

theorem reshapes_modify {g : Graph} {id : Nat} {f : Node → Node}
    (hf : (g.node id).Reshaped (f (g.node id))) : g.Reshapes (g.modify id f) := by
  refine ⟨Array.size_modify, fun other => ?_⟩
  rcases node_modify g id f other with h | ⟨rfl, h⟩
  · rw [h]
    exact .refl _
  · rwa [h]

/-- A mapping may get other entries. -/
theorem reshapes_setContent {g : Graph} {id : Nat} (hid : (g.node id).content.shape = .mapping)
    (entries : List (Nat × Nat)) : g.Reshapes (g.setContent id (.mapping entries)) :=
  reshapes_modify ⟨rfl, .inl rfl, .inr ⟨hid, rfl⟩⟩

theorem reshapes_settleKey (g : Graph) (entry : Nat × Nat) : g.Reshapes (g.settleKey entry) := by
  rw [settleKey]
  split
  · next h => exact reshapes_modify ⟨rfl, .inr ⟨eq_of_beq h, rfl⟩, .inl rfl⟩
  · exact .refl g

theorem reshapes_settleKeys (entries : List (Nat × Nat)) (g : Graph) :
    g.Reshapes (entries.foldl settleKey g) := by
  induction entries generalizing g with
  | nil => exact .refl g
  | cons entry rest ih => exact (reshapes_settleKey g entry).trans (ih _)

theorem reshapes_finishMerge {g : Graph} {id : Nat} (hid : (g.node id).content.shape = .mapping)
    (merged : List (Nat × Nat)) : g.Reshapes (g.finishMerge id merged) := by
  have hkeys := reshapes_settleKeys (g.entries id) g
  rw [finishMerge]
  split
  · exact hkeys
  · exact hkeys.trans (reshapes_setContent ((hkeys.node id).shape.trans hid) _)

theorem shape_eq_mapping {g : Graph} {id : Nat} {entries : List (Nat × Nat)}
    (h : (g.node id).content = .mapping entries) : (g.node id).content.shape = .mapping := by
  rw [h]
  rfl

theorem entries_of_mapping {g : Graph} {id : Nat} {entries : List (Nat × Nat)}
    (h : (g.node id).content = .mapping entries) : g.entries id = entries := by
  rw [Graph.entries, h]

theorem eq_mapping_of_shape {g : Graph} {id : Nat} (h : (g.node id).content.shape = .mapping) :
    ∃ entries, (g.node id).content = .mapping entries := by
  cases hcontent : (g.node id).content with
  | scalar text => exact nomatch hcontent ▸ h
  | sequence items => exact nomatch hcontent ▸ h
  | mapping entries => exact ⟨entries, rfl⟩

theorem not_mapping_of_sequence {g : Graph} {id : Nat} {items : List Nat}
    (h : (g.node id).content = .sequence items) : (g.node id).content.shape ≠ .mapping := by
  rw [h]
  intro hshape
  cases hshape

theorem not_mapping_of_scalar {g : Graph} {id : Nat} {text : String}
    (h : (g.node id).content = .scalar text) : (g.node id).content.shape ≠ .mapping := by
  rw [h]
  intro hshape
  cases hshape

/-- A node with an entry is a mapping. -/
theorem shape_eq_mapping_of_mem {g : Graph} {id : Nat} {entry : Nat × Nat}
    (h : entry ∈ g.entries id) : (g.node id).content.shape = .mapping := by
  rw [entries] at h
  split at h
  · next entries hmap => exact shape_eq_mapping hmap
  · exact nomatch h

/-! ## Flattening -/

section Building

-- Errors in the structure of the document are not bad.
variable {bad : Error → Prop} (hat : ∀ problem mark, ¬bad (.at problem mark))
  (hwithin : ∀ context start problem mark, ¬bad (.within context start problem mark))

section Merge

variable {flattened : Nat → Graph → Except Error Graph}
  (hflat : ∀ part {g : Graph}, (g.node part).content.shape = .mapping →
    Avoids bad g.Reshapes (flattened part g))

include hwithin hflat

theorem mergeParts_reshapes (id : Nat) (parts : List Nat) (g : Graph) :
    Avoids bad (fun r => g.Reshapes r.2) (mergeParts flattened id parts g) := by
  induction parts generalizing g with
  | nil => exact .refl g
  | cons part rest ih =>
      rw [mergeParts]
      split
      · next entries hmap =>
          exact (hflat part (shape_eq_mapping hmap)).bind fun g' h =>
            (ih g').bind fun r h' => h.trans h'
      · exact hwithin _ _ _ _

theorem mergeValue_reshapes (id value : Nat) (g : Graph) :
    Avoids bad (fun r => g.Reshapes r.2) (mergeValue flattened id value g) := by
  rw [mergeValue]
  split
  · exact mergeParts_reshapes hwithin hflat id _ g
  · exact mergeParts_reshapes hwithin hflat id _ g
  · exact hwithin _ _ _ _

theorem mergeAll_reshapes (id count : Nat) (merged : List (Nat × Nat)) {g : Graph}
    (hid : (g.node id).content.shape = .mapping) :
    Avoids bad g.Reshapes (mergeAll flattened id count merged g) := by
  induction count generalizing merged g with
  | zero => exact reshapes_finishMerge hid merged
  | succ count ih =>
      rw [mergeAll]
      split
      · exact reshapes_finishMerge hid merged
      · have hset := reshapes_setContent hid ((g.entries id).eraseP g.isMerge)
        refine (mergeValue_reshapes hwithin hflat id _ _).bind fun r h => ?_
        have hg := hset.trans h
        exact (ih _ ((hg.node id).shape.trans hid)).mono fun _ => hg.trans

end Merge

include hwithin

theorem flattenWithin_reshapes (depth id : Nat) {g : Graph}
    (hid : (g.node id).content.shape = .mapping) :
    Avoids bad g.Reshapes (flattenWithin depth id g) := by
  induction depth generalizing id g with
  | zero => exact .refl g
  | succ depth ih => exact mergeAll_reshapes hwithin (fun part => ih part) id _ [] hid

theorem flatten_reshapes {id : Nat} {g : Graph} (hid : (g.node id).content.shape = .mapping) :
    Avoids bad g.Reshapes (g.flatten id) :=
  flattenWithin_reshapes hwithin _ id hid

/-! ## Values -/

include hat

theorem requireEntries_reshapes (g : Graph) (id : Nat) :
    Avoids bad (fun r => g.Reshapes r.2) (g.requireEntries id) := by
  rw [requireEntries]
  split
  · next entries hmap =>
      exact (flatten_reshapes hwithin (shape_eq_mapping hmap)).map fun _ h => h
  · exact hat _ _

omit hwithin in
theorem requireItems_avoids (g : Graph) (id : Nat) :
    Avoids bad (fun _ => True) (g.requireItems id) := by
  rw [requireItems]
  split
  · exact trivial
  · exact hat _ _

omit hat in
theorem requireParts_avoids (g : Graph) (context : Context) (id : Nat) :
    Avoids bad (fun _ => True) (g.requireParts context id) := by
  rw [requireParts]
  split
  · exact trivial
  · exact hwithin _ _ _ _

omit hat in
theorem requirePair_avoids (g : Graph) (context : Context) (id part : Nat) :
    Avoids bad (fun _ => True) (g.requirePair context id part) := by
  rw [requirePair]
  split
  · exact trivial
  · exact hwithin _ _ _ _
  · exact hwithin _ _ _ _

-- What is good of all parts of a value, other than a number, is good of the value.
variable {good : Value → Prop}
  (hgood : ∀ {v : Value}, (∀ n, v ≠ .int n) → (∀ part ∈ v.parts, good part) → good v)

section Parts

variable {g₀ : Graph} {part : Nat → Graph → Except Error (Value × Graph)}
  (hpart : ∀ id {g : Graph}, g₀.Reshapes g →
    Avoids bad (fun r => good r.1 ∧ g₀.Reshapes r.2) (part id g))

include hpart

omit hat hwithin in
theorem buildItems_reshapes (items : List Nat) {g : Graph} (hg : g₀.Reshapes g) :
    Avoids bad (fun r => (∀ v ∈ r.1, good v) ∧ g₀.Reshapes r.2) (buildItems part items g) := by
  induction items generalizing g with
  | nil => exact ⟨fun _ h => absurd h List.not_mem_nil, hg⟩
  | cons item rest ih =>
      rw [buildItems]
      exact (hpart item hg).bind fun v hv => (ih hv.2).bind fun vs hvs =>
        ⟨List.forall_mem_cons.mpr ⟨hv.1, hvs.1⟩, hvs.2⟩

omit hat in
theorem buildEntries_reshapes (id : Nat) {sofar : List (Value × Value)}
    (hsofar : ∀ part ∈ (Value.map sofar).parts, good part) (entries : List (Nat × Nat)) {g : Graph}
    (hg : g₀.Reshapes g) :
    Avoids bad (fun r => (∀ part ∈ (Value.map r.1).parts, good part) ∧ g₀.Reshapes r.2)
      (buildEntries part id sofar entries g) := by
  induction entries generalizing sofar g with
  | nil => exact ⟨hsofar, hg⟩
  | cons entry rest ih =>
      rw [buildEntries]
      refine (hpart entry.1 hg).bind fun ⟨k, g'⟩ hk => ?_
      dsimp only
      split
      · exact (hpart entry.2 hk.2).bind fun v hv =>
          ih (Value.forall_parts_putEntry hk.1 hv.1 hsofar) hv.2
      · exact hwithin _ _ _ _

include hgood

omit hat in
theorem buildPairs_reshapes (context : Context) (id : Nat) (parts : List Nat) {g : Graph}
    (hg : g₀.Reshapes g) :
    Avoids bad (fun r => (∀ v ∈ r.1, good v) ∧ g₀.Reshapes r.2)
      (buildPairs part context id parts g) := by
  induction parts generalizing g with
  | nil => exact ⟨fun _ h => absurd h List.not_mem_nil, hg⟩
  | cons pair rest ih =>
      rw [buildPairs]
      refine (requirePair_avoids hwithin g context id pair).bind fun entry _ => ?_
      refine (hpart entry.1 hg).bind fun k hk => (hpart entry.2 hk.2).bind fun v hv => ?_
      have hpair : good (.tuple [k.1, v.1]) :=
        hgood (by simp) (by simpa [Value.parts] using ⟨hk.1, hv.1⟩)
      exact (ih hv.2).bind fun vs hvs => ⟨List.forall_mem_cons.mpr ⟨hpair, hvs.1⟩, hvs.2⟩

end Parts

variable {g₀ : Graph}
  (hleaf : ∀ {g : Graph}, g₀.Reshapes g → ∀ id, Avoids bad good (g.leafValue id))

include hgood hleaf

theorem build_reshapes (cycles : Cycles) (depth : Nat) (around : List Nat) (id : Nat) {g : Graph}
    (hg : g₀.Reshapes g) :
    Avoids bad (fun r => good r.1 ∧ g₀.Reshapes r.2) (build cycles depth around id g) := by
  have hnil : ∀ part ∈ (Value.map []).parts, good part := fun _ h => absurd h List.not_mem_nil
  induction depth generalizing around id g with
  | zero => exact ⟨hgood (by simp) hnil, hg⟩
  | succ depth ih =>
      have hpart := fun part {g : Graph} (h : g₀.Reshapes g) => ih (id :: around) part h
      have hentries := (requireEntries_reshapes hat hwithin g id).mono fun r h => hg.trans h
      rw [build.eq_def]
      dsimp only
      split
      · cases cycles with
        | refused => exact hat _ _
        | cut =>
            refine ⟨?_, hg⟩
            rw [cutValue.eq_def]
            split <;> exact hgood (by simp) hnil
      · split
        · exact (requireItems_avoids hat g id).bind fun items _ =>
            (buildItems_reshapes hpart items hg).bind fun r h => ⟨hgood (by simp) h.1, h.2⟩
        · exact hentries.bind fun r h =>
            (buildEntries_reshapes hwithin hpart id hnil r.1 h).bind fun r h =>
              ⟨hgood (by simp) h.1, h.2⟩
        · refine hentries.bind fun r h =>
            (buildEntries_reshapes hwithin hpart id hnil r.1 h).bind fun r h =>
              ⟨hgood (by simp) fun part hpart => ?_, h.2⟩
          obtain ⟨entry, hentry, rfl⟩ := List.mem_map.mp hpart
          exact h.1 _ (List.mem_flatMap.mpr ⟨entry, hentry, List.mem_cons_self⟩)
        · exact (requireParts_avoids hwithin g _ id).bind fun parts _ =>
            (buildPairs_reshapes hwithin hgood hpart _ id parts hg).bind fun r h =>
              ⟨hgood (by simp) h.1, h.2⟩
        · exact (requireParts_avoids hwithin g _ id).bind fun parts _ =>
            (buildPairs_reshapes hwithin hgood hpart _ id parts hg).bind fun r h =>
              ⟨hgood (by simp) h.1, h.2⟩
        · exact (hleaf hg id).map fun _ h => ⟨h, hg.trans (reshapes_keepText g id)⟩

end Building

theorem reshapes_of_flatten {g g' : Graph} {id : Nat} (h : g.flatten id = .ok g')
    (hid : (g.node id).content.shape = .mapping) : g.Reshapes g' := by
  have hresult : Avoids (fun _ => False) g.Reshapes (g.flatten id) :=
    flatten_reshapes (fun _ _ _ _ => not_false) hid
  exact hresult.of_ok h

theorem reshapes_of_value {g g' : Graph} {id : Nat} {v : Value} (h : g.value id = .ok (v, g')) :
    g.Reshapes g' := by
  have hresult : Avoids (fun _ => False) (fun r => True ∧ g.Reshapes r.2) (g.value id) :=
    build_reshapes (fun _ _ => not_false) (fun _ _ _ _ => not_false) (fun _ _ => trivial)
      (fun _ _ => Avoids.of_forall_ok fun _ _ => trivial) .refused _ [] id (.refl g)
  exact (hresult.of_ok h).2

end Graph

end Yaml

end ContainerAudit
