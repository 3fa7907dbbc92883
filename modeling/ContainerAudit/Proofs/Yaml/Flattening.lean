import ContainerAudit.Proofs.Yaml.Reshaping
import Mathlib.Data.Finset.Card
import Mathlib.Data.Finset.Range
import Mathlib.Logic.Relation

/-!
# Flattening in any order

Flattening a mapping replaces it in the graph, so what a later step finds may depend on what has
been flattened before.  Where no mapping merges itself it does not.  The entries that flattening is
to give a mapping can be told from the first graph alone (`Graph.flat`); and in every graph in which
each mapping is as it was at first, or has these entries, flattening gives a mapping its planned
entries and leaves such a graph behind (`Graph.Layered.flatten_parallel`).  It flattens what is
merged into the mapping, step by step, and changes nothing else (`Graph.Flattens`).

While the merges of a mapping are taken away one after another, the mapping itself is in neither of
the two states.  This does no harm: nodes come in layers, a mapping above everything it merges, and
what is merged looks only at lower layers (`Graph.SettledBelow`).
-/

namespace ContainerAudit

/-! ## Steps in parallel -/

/-- Both steps give results that fit each other, or both fail. -/
def Parallel {ε ε' α β : Type} (post : α → β → Prop) : Except ε α → Except ε' β → Prop
  | .ok a, .ok b => post a b
  | .error _, .error _ => True
  | _, _ => False

namespace Parallel

variable {ε ε' α β γ δ : Type} {post : α → β → Prop} {post' : γ → δ → Prop}

theorem cases {x : Except ε α} {y : Except ε' β} (h : Parallel post x y) :
    (∃ a b, x = .ok a ∧ y = .ok b ∧ post a b) ∨ ∃ e e', x = .error e ∧ y = .error e' := by
  cases x with
  | ok a =>
      cases y with
      | ok b => exact .inl ⟨a, b, rfl, rfl, h⟩
      | error e => exact h.elim
  | error e =>
      cases y with
      | ok b => exact h.elim
      | error e' => exact .inr ⟨e, e', rfl, rfl⟩

theorem bind {x : Except ε α} {y : Except ε' β} {f : α → Except ε γ} {k : β → Except ε' δ}
    (h : Parallel post x y) (hf : ∀ a b, post a b → Parallel post' (f a) (k b)) :
    Parallel post' (x >>= f) (y >>= k) := by
  rcases h.cases with ⟨a, b, rfl, rfl, hab⟩ | ⟨e, e', rfl, rfl⟩
  · exact hf a b hab
  · exact trivial

theorem map {x : Except ε α} {y : Except ε' β} {f : α → γ} {k : β → δ} (h : Parallel post x y)
    (hf : ∀ a b, post a b → post' (f a) (k b)) : Parallel post' (x.map f) (y.map k) := by
  rcases h.cases with ⟨a, b, rfl, rfl, hab⟩ | ⟨e, e', rfl, rfl⟩
  · exact hf a b hab
  · exact trivial

theorem of_eq {x y : Except ε α} (h : x = y) : Parallel Eq x y := by
  subst h
  cases x with
  | ok a => exact rfl
  | error e => exact trivial

theorem symm {x : Except ε α} {y : Except ε' β} (h : Parallel post x y) :
    Parallel (fun b a => post a b) y x := by
  rcases h.cases with ⟨a, b, rfl, rfl, hab⟩ | ⟨e, e', rfl, rfl⟩
  · exact hab
  · exact trivial

theorem trans {ε'' : Type} {post' : β → γ → Prop} {x : Except ε α} {y : Except ε' β}
    {z : Except ε'' γ} (h : Parallel post x y) (h' : Parallel post' y z) :
    Parallel (fun a c => ∃ b, post a b ∧ post' b c) x z := by
  rcases h.cases with ⟨a, b, rfl, rfl, hab⟩ | ⟨e, e', rfl, rfl⟩
  · cases z with
    | ok c => exact ⟨b, hab, h'⟩
    | error e => exact h'.elim
  · cases z with
    | ok c => exact h'.elim
    | error e => exact trivial

theorem mono {post' : α → β → Prop} {x : Except ε α} {y : Except ε' β} (h : Parallel post x y)
    (hpost : ∀ a b, post a b → post' a b) : Parallel post' x y := by
  rcases h.cases with ⟨a, b, rfl, rfl, hab⟩ | ⟨e, e', rfl, rfl⟩
  · exact hpost a b hab
  · exact trivial

theorem exists_of_ok {x : Except ε α} {y : Except ε' β} (h : Parallel post x y) {a : α}
    (hx : x = .ok a) : ∃ b, y = .ok b ∧ post a b := by
  subst hx
  cases y with
  | ok b => exact ⟨b, rfl, h⟩
  | error e => exact h.elim

/-- The results are those of the steps. -/
theorem attach {x : Except ε α} {y : Except ε' β} (h : Parallel post x y) :
    Parallel (fun a b => (x = .ok a ∧ y = .ok b) ∧ post a b) x y := by
  rcases h.cases with ⟨a, b, rfl, rfl, hab⟩ | ⟨e, e', rfl, rfl⟩
  · exact ⟨⟨rfl, rfl⟩, hab⟩
  · exact trivial

/-- One of the steps may go on to change its result. -/
theorem map_left {post' : γ → β → Prop} {x : Except ε α} {y : Except ε' β} {f : α → γ}
    (h : Parallel post x y) (hf : ∀ a b, post a b → post' (f a) b) :
    Parallel post' (x >>= fun a => pure (f a)) y := by
  rcases h.cases with ⟨a, b, rfl, rfl, hab⟩ | ⟨e, e', rfl, rfl⟩
  · exact hf a b hab
  · exact trivial

end Parallel

/-- The first element that is found, and the list without it. -/
theorem filter_of_find? {α : Type} {p q : α → Bool} {l : List α} {a : α}
    (h : ∀ b ∈ l, p b = q b) (hfind : l.find? p = some a) :
    a ∈ l ∧ q a = true ∧ l.filter q = a :: (l.eraseP p).filter q ∧
      (l.filter fun b => !q b) = (l.eraseP p).filter fun b => !q b := by
  induction l with
  | nil => cases hfind
  | cons b l ih =>
      obtain ⟨hb, hl⟩ := List.forall_mem_cons.mp h
      cases hpb : p b with
      | true =>
          rw [List.find?_cons_of_pos hpb] at hfind
          cases hfind
          rw [List.eraseP_cons_of_pos hpb]
          rw [hb] at hpb
          exact ⟨List.mem_cons_self, hpb, List.filter_cons_of_pos hpb,
            List.filter_cons_of_neg (by simp [hpb])⟩
      | false =>
          have hneg : ¬p b = true := by simp [hpb]
          rw [List.find?_cons_of_neg hneg] at hfind
          rw [List.eraseP_cons_of_neg hneg]
          rw [hb] at hpb
          obtain ⟨hmem, hqa, hkept, hleft⟩ := ih hl hfind
          refine ⟨List.mem_cons_of_mem b hmem, hqa, ?_, ?_⟩
          · rw [List.filter_cons_of_neg (by simp [hpb]), List.filter_cons_of_neg (by simp [hpb]),
              hkept]
          · rw [List.filter_cons_of_pos (by simp [hpb]), List.filter_cons_of_pos (by simp [hpb]),
              hleft]

namespace Yaml.Graph

/-! ## The plan -/

/-- The nodes that a merge names: those of a list, or a single one. -/
def merged (g : Graph) (value : Nat) : List Nat :=
  match (g.node value).content with
  | .sequence parts => parts
  | _ => [value]

/-- A mapping names a node in one of its merges. -/
def Merges (g : Graph) (id part : Nat) : Prop :=
  ∃ entry ∈ g.entries id, g.isMerge entry = true ∧ part ∈ g.merged entry.2

/-- The part that a merge names is its value, or an item of it. -/
theorem eq_or_item_of_merged {g : Graph} {value part : Nat} (h : part ∈ g.merged value) :
    part = value ∨ ∃ items, (g.node value).content = .sequence items ∧ part ∈ items := by
  rw [merged] at h
  split at h
  · next items hseq => exact .inr ⟨items, hseq, h⟩
  · exact .inl (List.mem_singleton.mp h)

theorem filter_isMerge_of_none {g : Graph} {entries : List (Nat × Nat)}
    (h : ∀ entry ∈ entries, ¬g.isMerge entry = true) :
    entries.filter g.isMerge = [] ∧ (entries.filter fun entry => !g.isMerge entry) = entries := by
  refine ⟨List.filter_eq_nil_iff.mpr h, List.filter_eq_self.mpr fun entry hentry => ?_⟩
  simpa using h entry hentry

section Plan

variable (g : Graph) (flat : Nat → Except Unit (List (Nat × Nat)))

/-- The entries of mappings that are merged, those of the first one last. -/
def flatParts : List Nat → Except Unit (List (Nat × Nat))
  | [] => .ok []
  | part :: rest => do
    let own ← flat part
    let later ← flatParts rest
    return later ++ own

def flatMerges : List (Nat × Nat) → Except Unit (List (Nat × Nat))
  | [] => .ok []
  | entry :: rest => do
    let more ← flatParts flat (g.merged entry.2)
    let later ← flatMerges rest
    return more ++ later

end Plan

/-- The entries of a mapping behind its merges, down to some depth, as they follow from a graph that
stays as it is. -/
def flatWithin (g : Graph) : Nat → Nat → Except Unit (List (Nat × Nat))
  | 0, _ => .error ()
  | depth + 1, id =>
    match (g.node id).content with
    | .mapping entries => do
      let merged ← flatMerges g (flatWithin g depth) (entries.filter g.isMerge)
      return merged ++ entries.filter fun entry => !g.isMerge entry
    | _ => .error ()

/-- The entries of a mapping behind its merges. -/
def flat (g : Graph) (id : Nat) : Except Unit (List (Nat × Nat)) :=
  flatWithin g (g.size + 1) id

theorem flatWithin_of_not_mapping {g : Graph} {id : Nat}
    (h : (g.node id).content.shape ≠ .mapping) (depth : Nat) :
    flatWithin g depth id = .error () := by
  cases depth with
  | zero => rfl
  | succ depth =>
      rw [flatWithin]
      split
      · next entries hmap => exact absurd (shape_eq_mapping hmap) h
      · rfl

theorem mem_flatParts {f : Nat → Except Unit (List (Nat × Nat))} {parts : List Nat}
    {entries : List (Nat × Nat)} (h : flatParts f parts = .ok entries) {entry : Nat × Nat}
    (hentry : entry ∈ entries) : ∃ part ∈ parts, ∃ own, f part = .ok own ∧ entry ∈ own := by
  induction parts generalizing entries with
  | nil =>
      cases h
      exact absurd hentry List.not_mem_nil
  | cons part rest ih =>
      obtain ⟨own, hown, h⟩ := exists_of_bind_eq_ok h
      obtain ⟨later, hlater, h⟩ := exists_of_bind_eq_ok h
      cases h
      rcases List.mem_append.mp hentry with hentry | hentry
      · obtain ⟨part', hpart', hfound⟩ := ih hlater hentry
        exact ⟨part', List.mem_cons_of_mem part hpart', hfound⟩
      · exact ⟨part, List.mem_cons_self, own, hown, hentry⟩

theorem mem_flatMerges {g : Graph} {f : Nat → Except Unit (List (Nat × Nat))}
    {merges entries : List (Nat × Nat)} (h : flatMerges g f merges = .ok entries)
    {entry : Nat × Nat} (hentry : entry ∈ entries) :
    ∃ merge ∈ merges, ∃ part ∈ g.merged merge.2, ∃ own, f part = .ok own ∧ entry ∈ own := by
  induction merges generalizing entries with
  | nil =>
      cases h
      exact absurd hentry List.not_mem_nil
  | cons merge rest ih =>
      obtain ⟨more, hmore, h⟩ := exists_of_bind_eq_ok h
      obtain ⟨later, hlater, h⟩ := exists_of_bind_eq_ok h
      cases h
      rcases List.mem_append.mp hentry with hentry | hentry
      · exact ⟨merge, List.mem_cons_self, mem_flatParts hmore hentry⟩
      · obtain ⟨merge', hmerge', hfound⟩ := ih hlater hentry
        exact ⟨merge', List.mem_cons_of_mem merge hmerge', hfound⟩

/-- A planned entry is that of a mapping that is merged in, step by step, and is not a merge. -/
theorem mem_flatWithin {g : Graph} {depth id : Nat} {entries : List (Nat × Nat)}
    (h : flatWithin g depth id = .ok entries) {entry : Nat × Nat} (hentry : entry ∈ entries) :
    ∃ source, Relation.ReflTransGen g.Merges id source ∧ entry ∈ g.entries source ∧
      g.isMerge entry = false := by
  induction depth generalizing id entries with
  | zero => cases h
  | succ depth ih =>
      rw [flatWithin] at h
      split at h
      · next own hmap =>
          have hown : g.entries id = own := entries_of_mapping hmap
          obtain ⟨more, hmore, h⟩ := exists_of_bind_eq_ok h
          cases h
          rcases List.mem_append.mp hentry with hentry | hentry
          · obtain ⟨merge, hmerge, part, hpart, found, hfound, hentry⟩ :=
              mem_flatMerges hmore hentry
            obtain ⟨hmem, hismerge⟩ := List.mem_filter.mp hmerge
            obtain ⟨source, hsource, hentry⟩ := ih hfound hentry
            have hstep : g.Merges id part := ⟨merge, hown ▸ hmem, hismerge, hpart⟩
            exact ⟨source, .head hstep hsource, hentry⟩
          · obtain ⟨hmem, hnot⟩ := List.mem_filter.mp hentry
            exact ⟨id, .refl, hown ▸ hmem, by simpa using hnot⟩
      · cases h

theorem flatParts_congr {f f' : Nat → Except Unit (List (Nat × Nat))} {parts : List Nat}
    (h : ∀ part ∈ parts, f part = f' part) : flatParts f parts = flatParts f' parts := by
  induction parts with
  | nil => rfl
  | cons part rest ih =>
      obtain ⟨hpart, hrest⟩ := List.forall_mem_cons.mp h
      rw [flatParts, flatParts, hpart, ih hrest]

theorem flatMerges_congr {g : Graph} {f f' : Nat → Except Unit (List (Nat × Nat))}
    {merges : List (Nat × Nat)}
    (h : ∀ merge ∈ merges, ∀ part ∈ g.merged merge.2, f part = f' part) :
    flatMerges g f merges = flatMerges g f' merges := by
  induction merges with
  | nil => rfl
  | cons merge rest ih =>
      obtain ⟨hmerge, hrest⟩ := List.forall_mem_cons.mp h
      rw [flatMerges, flatMerges, flatParts_congr hmerge, ih hrest]

/-! ## Nodes in layers -/

/-- Some nodes of a graph, among them all that flattening one of them looks at. None of them merges
itself, so they come in layers; and no key among them stands for the plain value of its mapping.
Nothing of the graph has been read yet. -/
structure Layered (g : Graph) (seen : Nat → Prop) (rank : Nat → Nat) : Prop where
  key : ∀ {id}, seen id → ∀ entry ∈ g.entries id, seen entry.1
  value : ∀ {id}, seen id → ∀ entry ∈ g.entries id, g.isMerge entry = true → seen entry.2
  part : ∀ {id part}, seen id → g.Merges id part → seen part
  plain : ∀ {id}, seen id → (g.node id).tag ≠ .value
  rank_lt : ∀ {id part}, seen id → g.Merges id part → (g.node part).content.shape = .mapping →
    rank part < rank id
  rank_le : ∀ id, rank id ≤ g.size
  unread : g.texts = []

/-- A node with entries is within the graph. -/
theorem lt_size_of_mapping {g : Graph} {id : Nat} (h : (g.node id).content.shape = .mapping) :
    id < g.size := by
  by_contra hid
  have hnode : g.node id = default := by
    rw [node, Array.getD]
    exact dif_neg hid
  rw [hnode] at h
  cases h

/-- Where no mapping merges itself, the number of nodes that can be reached by merges goes down with
each merge. -/
theorem exists_rank (g : Graph) {seen : Nat → Prop}
    (hpart : ∀ {id part}, seen id → g.Merges id part → seen part)
    (hacyclic : ∀ id, seen id → ¬Relation.TransGen g.Merges id id) :
    ∃ rank : Nat → Nat, (∀ id, rank id ≤ g.size) ∧
      ∀ {id part}, seen id → g.Merges id part → (g.node part).content.shape = .mapping →
        rank part < rank id := by
  classical
  let reached (id : Nat) : Finset Nat :=
    (Finset.range g.size).filter fun node => Relation.TransGen g.Merges id node
  refine ⟨fun id => (reached id).card, fun id => ?_, fun {id part} hid hmerges hmap => ?_⟩
  · calc (reached id).card ≤ (Finset.range g.size).card := Finset.card_filter_le _ _
      _ = g.size := Finset.card_range _
  · refine Finset.card_lt_card ⟨fun node hnode => ?_, fun hsubset => ?_⟩
    · obtain ⟨hrange, hreached⟩ := Finset.mem_filter.mp hnode
      exact Finset.mem_filter.mpr ⟨hrange, .head hmerges hreached⟩
    · -- the part itself is reached from the mapping, but not from itself
      have hmem : part ∈ reached id := Finset.mem_filter.mpr
        ⟨Finset.mem_range.mpr (lt_size_of_mapping hmap), .single hmerges⟩
      have hself := (Finset.mem_filter.mp (hsubset hmem)).2
      exact hacyclic part (hpart hid hmerges) hself

section Layered

variable {g : Graph} {seen : Nat → Prop} {rank : Nat → Nat} (hg : g.Layered seen rank)

include hg

/-- What is planned does not depend on the depth, once it is deep enough. -/
theorem Layered.flatWithin_eq {depth depth' id : Nat} (hid : seen id) (h : rank id < depth)
    (h' : rank id < depth') : flatWithin g depth id = flatWithin g depth' id := by
  induction depth generalizing depth' id with
  | zero => exact absurd h (Nat.not_lt_zero _)
  | succ depth ih =>
      cases depth' with
      | zero => exact absurd h' (Nat.not_lt_zero _)
      | succ depth' =>
          rw [flatWithin, flatWithin]
          split
          · next entries hmap =>
              have hentries : g.entries id = entries := entries_of_mapping hmap
              rw [flatMerges_congr]
              intro merge hmerge part hpart
              obtain ⟨hmem, hismerge⟩ := List.mem_filter.mp hmerge
              have hstep : g.Merges id part := ⟨merge, hentries ▸ hmem, hismerge, hpart⟩
              by_cases hshape : (g.node part).content.shape = .mapping
              · have hlt := hg.rank_lt hid hstep hshape
                exact ih (hg.part hid hstep) (by omega) (by omega)
              · rw [flatWithin_of_not_mapping hshape, flatWithin_of_not_mapping hshape]
          · rfl

theorem Layered.flat_eq {depth id : Nat} (hid : seen id) (h : rank id < depth) :
    flatWithin g depth id = g.flat id :=
  hg.flatWithin_eq hid h (Nat.lt_succ_of_le (hg.rank_le id))

theorem Layered.seen_of_reached {id source : Nat} (hid : seen id)
    (h : Relation.ReflTransGen g.Merges id source) : seen source := by
  induction h with
  | refl => exact hid
  | tail _ hstep ih => exact hg.part ih hstep

end Layered

/-! ## Graphs on the way -/

theorem content_setContent {g : Graph} {id : Nat} (hid : (g.node id).content.shape = .mapping)
    (content : Content) : ((g.setContent id content).node id).content = content := by
  have hlt : id < g.nodes.size := lt_size_of_mapping hid
  simp only [node, setContent, modify, Array.getD_eq_getD_getElem?, Array.getElem?_modify, if_true,
    Array.getElem?_eq_getElem hlt, Option.map_some, Option.getD_some]

theorem node_setContent_of_ne {g : Graph} {id other : Nat} (h : other ≠ id) (content : Content) :
    (g.setContent id content).node other = g.node other := by
  rcases node_modify g id (fun n => { n with content }) other with hnode | ⟨hsame, -⟩
  · exact hnode
  · exact absurd hsame h

/-- The node is flattened as planned. -/
def FlatAt (g g₁ : Graph) (id : Nat) : Prop :=
  ∃ entries, g.flat id = .ok entries ∧ (g₁.node id).content = .mapping entries

/-- The node has its first content, or it is flattened as planned. -/
def SettledAt (g g₁ : Graph) (id : Nat) : Prop :=
  (g₁.node id).content = (g.node id).content ∨ FlatAt g g₁ id

theorem FlatAt.congr {g g₁ g₂ : Graph} {id : Nat} (h : FlatAt g g₁ id)
    (hsame : (g₂.node id).content = (g₁.node id).content) : FlatAt g g₂ id := by
  obtain ⟨entries, hflat, hcontent⟩ := h
  exact ⟨entries, hflat, hsame.trans hcontent⟩

/-- A node that is flattened from the start has no merges. -/
theorem FlatAt.not_merges {g : Graph} {id part : Nat} (h : FlatAt g g id) : ¬g.Merges id part := by
  rintro ⟨entry, hentry, hmerge, -⟩
  obtain ⟨entries, hflat, hcontent⟩ := h
  rw [entries_of_mapping hcontent] at hentry
  obtain ⟨-, -, -, hnot⟩ := mem_flatWithin hflat hentry
  rw [hnot] at hmerge
  cases hmerge

theorem FlatAt.shape {g g₁ : Graph} {id : Nat} (h : FlatAt g g₁ id) :
    (g.node id).content.shape = .mapping := by
  obtain ⟨entries, hflat, -⟩ := h
  by_contra hshape
  rw [flat, flatWithin_of_not_mapping hshape] at hflat
  cases hflat

/-- The node is one of some nodes, or merged into one of them, step by step. -/
def Reached (g : Graph) (parts : List Nat) (id : Nat) : Prop :=
  ∃ part ∈ parts, Relation.ReflTransGen g.Merges part id

theorem reached_append {g : Graph} {parts parts' : List Nat} {id : Nat} :
    g.Reached (parts ++ parts') id ↔ g.Reached parts id ∨ g.Reached parts' id := by
  simp only [Reached, List.mem_append, or_and_right, exists_or]

/-- All that flattening some nodes does: they are flattened, and what is merged into them is. -/
structure Flattens (g : Graph) (parts : List Nat) (g₁ g₂ : Graph) : Prop where
  reached : ∀ {id}, g.Reached parts id → FlatAt g g₂ id
  other : ∀ {id}, ¬g.Reached parts id → (g₂.node id).content = (g₁.node id).content

theorem Flattens.nil (g g₁ : Graph) : Flattens g [] g₁ g₁ where
  reached := fun ⟨_, hpart, _⟩ => absurd hpart List.not_mem_nil
  other := fun _ => rfl

/-- What is flattened stays so. -/
theorem Flattens.flatAt {g g₁ g₂ : Graph} {parts : List Nat} (h : Flattens g parts g₁ g₂) {id : Nat}
    (hid : FlatAt g g₁ id) : FlatAt g g₂ id := by
  by_cases hreached : g.Reached parts id
  · exact h.reached hreached
  · exact hid.congr (h.other hreached)

theorem Flattens.cons {g g₁ g₂ g₃ : Graph} {part : Nat} {rest : List Nat}
    (h : Flattens g [part] g₁ g₂) (h' : Flattens g rest g₂ g₃) :
    Flattens g (part :: rest) g₁ g₃ := by
  rw [← List.singleton_append]
  constructor
  · intro id hid
    rcases reached_append.mp hid with hid | hid
    · exact h'.flatAt (h.reached hid)
    · exact h'.reached hid
  · intro id hid
    rw [reached_append, not_or] at hid
    exact (h'.other hid.2).trans (h.other hid.1)

/-- A graph on the way, in which no node below some layer is half flattened, and what is merged into
a flattened one is flattened. No mapping has been read as a text. -/
structure SettledBelow (g : Graph) (seen : Nat → Prop) (rank : Nat → Nat) (bound : Nat)
    (g₁ : Graph) : Prop where
  kept : ∀ {id}, seen id → (g.node id).Reshaped (g₁.node id)
  settled : ∀ {id}, seen id → rank id < bound → SettledAt g g₁ id
  below : ∀ {id part}, seen id → rank id < bound → FlatAt g g₁ id → g.Merges id part →
    FlatAt g g₁ part
  texts : g₁.texts = []

theorem SettledBelow.mono {g : Graph} {seen : Nat → Prop} {rank : Nat → Nat} {bound bound' : Nat}
    {g₁ : Graph} (h : SettledBelow g seen rank bound g₁) (hle : bound' ≤ bound) :
    SettledBelow g seen rank bound' g₁ :=
  ⟨h.kept, fun hid hlt => h.settled hid (Nat.lt_of_lt_of_le hlt hle),
    fun hid hlt => h.below hid (Nat.lt_of_lt_of_le hlt hle), h.texts⟩

theorem SettledBelow.of_flattens {g : Graph} {seen : Nat → Prop} {rank : Nat → Nat} {bound : Nat}
    {g₁ g₂ : Graph} {parts : List Nat} (h₁ : SettledBelow g seen rank bound g₁)
    (h : Flattens g parts g₁ g₂) (hkept : ∀ {id}, seen id → (g.node id).Reshaped (g₂.node id))
    (htexts : g₂.texts = []) : SettledBelow g seen rank bound g₂ := by
  refine ⟨hkept, fun {id} hid hlt => ?_, fun {id part} hid hlt hflat hmerges => ?_, htexts⟩
  · by_cases hreached : g.Reached parts id
    · exact .inr (h.reached hreached)
    · rw [SettledAt, h.other hreached]
      exact (h₁.settled hid hlt).imp_right h.flatAt
  · by_cases hreached : g.Reached parts id
    · obtain ⟨first, hfirst, hpath⟩ := hreached
      exact h.reached ⟨first, hfirst, hpath.tail hmerges⟩
    · exact h.flatAt (h₁.below hid hlt (hflat.congr (h.other hreached).symm) hmerges)

/-- The nodes that some merges name. -/
def mergedBy (g : Graph) (merges : List (Nat × Nat)) : List Nat :=
  merges.flatMap fun merge => g.merged merge.2

/-- A mapping has got some entries after some merges. Of the other nodes, what these merges bring in
is flattened, and nothing else has changed. -/
structure Merged (g : Graph) (seen : Nat → Prop) (rank : Nat → Nat) (id : Nat)
    (merges entries : List (Nat × Nat)) (g₁ g₂ : Graph) : Prop where
  content : (g₂.node id).content = .mapping entries
  settled : SettledBelow g seen rank (rank id) g₂
  reached : ∀ {other}, other ≠ id → g.Reached (g.mergedBy merges) other →
    FlatAt g g₂ other
  other : ∀ {other}, other ≠ id → ¬g.Reached (g.mergedBy merges) other →
    (g₂.node other).content = (g₁.node other).content

/-- Another merge before those is one more that is taken away. -/
theorem Merged.cons {g : Graph} {seen : Nat → Prop} {rank : Nat → Nat} {id : Nat}
    {merge : Nat × Nat} {merges entries : List (Nat × Nat)} {g₁ g₂ g₃ g₄ : Graph}
    (h : Merged g seen rank id merges entries g₃ g₄) (hfirst : Flattens g (g.merged merge.2) g₂ g₃)
    (hsame : ∀ {other}, other ≠ id → (g₂.node other).content = (g₁.node other).content) :
    Merged g seen rank id (merge :: merges) entries g₁ g₄ := by
  have hparts : g.mergedBy (merge :: merges) = g.merged merge.2 ++ g.mergedBy merges :=
    List.flatMap_cons
  refine ⟨h.content, h.settled, fun {other} hne hreached => ?_, fun {other} hne hreached => ?_⟩
  · by_cases hlater : g.Reached (g.mergedBy merges) other
    · exact h.reached hne hlater
    · rw [hparts, reached_append] at hreached
      exact (hfirst.reached (hreached.resolve_right hlater)).congr (h.other hne hlater)
  · rw [hparts, reached_append, not_or] at hreached
    calc (g₄.node other).content = (g₃.node other).content := h.other hne hreached.2
      _ = (g₂.node other).content := hfirst.other hreached.1
      _ = (g₁.node other).content := hsame hne

/-- A mapping without its merges is flattened, if it has got the planned entries. -/
theorem Merged.flattens {g : Graph} {seen : Nat → Prop} {rank : Nat → Nat} {id : Nat}
    {entries : List (Nat × Nat)} {g₁ g₂ : Graph}
    (h : Merged g seen rank id ((g.entries id).filter g.isMerge) entries g₁ g₂)
    (hflat : g.flat id = .ok entries) : Flattens g [id] g₁ g₂ := by
  have hbelow {other : Nat} (hne : other ≠ id) : g.Reached [id] other ↔
      g.Reached (g.mergedBy ((g.entries id).filter g.isMerge)) other := by
    simp only [Reached, mergedBy, List.mem_singleton, exists_eq_left, List.mem_flatMap,
      List.mem_filter]
    rw [Relation.ReflTransGen.cases_head_iff]
    simp only [Ne.symm hne, false_or, Merges, and_assoc]
  refine ⟨fun {other} hreached => ?_, fun {other} hreached => ?_⟩
  · by_cases hne : other = id
    · exact ⟨entries, hne ▸ hflat, hne ▸ h.content⟩
    · exact h.reached hne ((hbelow hne).mp hreached)
  · have hne : other ≠ id := by
      rintro rfl
      exact hreached ⟨other, List.mem_singleton_self other, .refl⟩
    exact h.other hne fun hmerged => hreached ((hbelow hne).mpr hmerged)

section Steps

variable {g : Graph} {seen : Nat → Prop} {rank : Nat → Nat} (hg : g.Layered seen rank)

include hg

/-- All that is merged into a mapping, step by step, is below it. -/
theorem Layered.rank_lt_of_reached {id source : Nat} (hid : seen id)
    (h : Relation.TransGen g.Merges id source) (hshape : (g.node source).content.shape = .mapping) :
    rank source < rank id := by
  induction h with
  | single hmerges => exact hg.rank_lt hid hmerges hshape
  | tail hpath hmerges ih =>
      have hbelow := hg.rank_lt (hg.seen_of_reached hid hpath.to_reflTransGen) hmerges hshape
      obtain ⟨entry, hentry, -⟩ := hmerges
      exact hbelow.trans (ih (shape_eq_mapping_of_mem hentry))

theorem Layered.not_reached_self {id : Nat} (hid : seen id) {entry : Nat × Nat}
    (hentry : entry ∈ g.entries id) (hmerge : g.isMerge entry = true) :
    ¬g.Reached (g.merged entry.2) id := by
  rintro ⟨part, hpart, hpath⟩
  have hcycle := Relation.TransGen.head' ⟨entry, hentry, hmerge, hpart⟩ hpath
  exact Nat.lt_irrefl _ (hg.rank_lt_of_reached hid hcycle (shape_eq_mapping_of_mem hentry))

theorem Layered.settledBelow_setContent {id : Nat} {g₁ : Graph}
    (h₁ : SettledBelow g seen rank (rank id) g₁)
    (hmap : (g₁.node id).content.shape = .mapping) (entries : List (Nat × Nat)) :
    SettledBelow g seen rank (rank id) (g₁.setContent id (.mapping entries)) := by
  have hsame {other : Nat} (hlt : rank other < rank id) :
      (g₁.setContent id (.mapping entries)).node other = g₁.node other := by
    refine node_setContent_of_ne ?_ _
    rintro rfl
    exact Nat.lt_irrefl _ hlt
  refine ⟨fun hother => (h₁.kept hother).trans ((reshapes_setContent hmap entries).node _),
    fun {other} hother hlt => ?_, fun {other part} hother hlt hflat hmerges => ?_, h₁.texts⟩
  · rw [SettledAt, FlatAt, hsame hlt]
    exact h₁.settled hother hlt
  · rw [FlatAt, hsame hlt] at hflat
    have hpart := h₁.below hother hlt hflat hmerges
    exact hpart.congr (congrArg _ (hsame ((hg.rank_lt hother hmerges hpart.shape).trans hlt)))

theorem Layered.tag_eq {n : Node} {id : Nat} (hid : seen id) (h : (g.node id).Reshaped n) :
    n.tag = (g.node id).tag := by
  rcases h.tag with htag | ⟨htag, -⟩
  · exact htag
  · exact absurd htag (hg.plain hid)

theorem Layered.isMerge_eq {g₁ : Graph}
    (hkept : ∀ {id}, seen id → (g.node id).Reshaped (g₁.node id)) {entry : Nat × Nat}
    (hentry : seen entry.1) : g₁.isMerge entry = g.isMerge entry := by
  rw [isMerge, isMerge, hg.tag_eq hentry (hkept hentry)]

theorem Layered.settleKeys_eq {g₁ : Graph}
    (hkept : ∀ {id}, seen id → (g.node id).Reshaped (g₁.node id)) {entries : List (Nat × Nat)}
    (h : ∀ entry ∈ entries, seen entry.1) : entries.foldl settleKey g₁ = g₁ := by
  induction entries with
  | nil => rfl
  | cons entry rest ih =>
      obtain ⟨hentry, hrest⟩ := List.forall_mem_cons.mp h
      have hplain : ¬((g₁.node entry.1).tag == .value) = true := by
        rw [hg.tag_eq hentry (hkept hentry), beq_iff_eq]
        exact hg.plain hentry
      rw [List.foldl_cons, settleKey, if_neg hplain]
      exact ih hrest

/-- Once there are no merges left, the merged entries are put in front of the others. -/
theorem Layered.finishMerge_merged {id : Nat} {before entries : List (Nat × Nat)} {g₁ : Graph}
    (h₁ : SettledBelow g seen rank (rank id) g₁)
    (hcontent : (g₁.node id).content = .mapping entries)
    (hkeys : ∀ entry ∈ entries, seen entry.1) :
    Merged g seen rank id [] (before ++ entries) g₁ (g₁.finishMerge id before) := by
  have hshape := shape_eq_mapping hcontent
  have hown : g₁.entries id = entries := entries_of_mapping hcontent
  rw [finishMerge, hown, hg.settleKeys_eq h₁.kept hkeys]
  have hnone {other : Nat} : ¬g.Reached (g.mergedBy []) other := by simp [Reached, mergedBy]
  cases before with
  | nil => exact ⟨hcontent, h₁, fun _ h => absurd h hnone, fun _ _ => rfl⟩
  | cons first rest =>
      refine ⟨?_, hg.settledBelow_setContent h₁ hshape _, fun _ h => absurd h hnone,
        fun hne _ => ?_⟩
      · exact (content_setContent hshape _).trans (by rw [hown])
      · exact congrArg Node.content (node_setContent_of_ne hne _)

theorem Layered.finishMerge_parallel {id : Nat} (hid : seen id)
    (f : Nat → Except Unit (List (Nat × Nat))) {before entries : List (Nat × Nat)} {g₁ : Graph}
    (h₁ : SettledBelow g seen rank (rank id) g₁)
    (hcontent : (g₁.node id).content = .mapping entries)
    (hentries : ∀ entry ∈ entries, entry ∈ g.entries id)
    (hnone : ∀ entry ∈ entries, ¬g.isMerge entry = true) :
    Parallel (fun more g₂ => Merged g seen rank id (entries.filter g.isMerge)
        (before ++ (more ++ entries.filter fun entry => !g.isMerge entry)) g₁ g₂)
      (flatMerges g f (entries.filter g.isMerge))
      (Except.ok (g₁.finishMerge id before) : Except Error Graph) := by
  obtain ⟨hempty, hall⟩ := filter_isMerge_of_none hnone
  rw [hempty, hall]
  exact hg.finishMerge_merged h₁ hcontent fun entry hentry =>
    hg.key hid entry (hentries entry hentry)

section Merge

variable {id : Nat} (hid : seen id) {f : Nat → Except Unit (List (Nat × Nat))}
  {flattened : Nat → Graph → Except Error Graph}
  (hflat : ∀ {part g₁}, seen part → (g.node part).content.shape = .mapping → rank part < rank id →
    SettledBelow g seen rank (rank id) g₁ →
      Parallel (fun entries g₂ => (g₂.node part).content = .mapping entries ∧
          SettledBelow g seen rank (rank id) g₂ ∧ Flattens g [part] g₁ g₂)
        (f part) (flattened part g₁))
  (hother : ∀ part, (g.node part).content.shape ≠ .mapping → f part = .error ())

include hid hflat hother

omit hg hid in
theorem mergeParts_parallel {parts : List Nat} (hseen : ∀ part ∈ parts, seen part)
    (hlt : ∀ part ∈ parts, (g.node part).content.shape = .mapping → rank part < rank id)
    {g₁ : Graph} (h₁ : SettledBelow g seen rank (rank id) g₁) :
    Parallel (fun entries r => r.1 = entries ∧ SettledBelow g seen rank (rank id) r.2 ∧
        Flattens g parts g₁ r.2)
      (flatParts f parts) (mergeParts flattened id parts g₁) := by
  induction parts generalizing g₁ with
  | nil => exact ⟨rfl, h₁, .nil g g₁⟩
  | cons part rest ih =>
      obtain ⟨hpart, hrest⟩ := List.forall_mem_cons.mp hseen
      obtain ⟨hltpart, hltrest⟩ := List.forall_mem_cons.mp hlt
      rw [flatParts, mergeParts]
      have hshape := (h₁.kept hpart).shape
      split
      · next entries hmap =>
          have hmapping : (g.node part).content.shape = .mapping := by
            rw [← hshape]
            exact shape_eq_mapping hmap
          refine (hflat hpart hmapping (hltpart hmapping) h₁).bind fun own g₂ hown => ?_
          obtain ⟨hcontent, h₂, hflattens⟩ := hown
          refine (ih hrest hltrest h₂).bind fun later r hlater => ?_
          obtain ⟨hentries, h₃, hflattens'⟩ := hlater
          have hown : g₂.entries part = own := entries_of_mapping hcontent
          refine ⟨?_, h₃, hflattens.cons hflattens'⟩
          rw [hentries, hown]
      · next hnot =>
          have hnotmapping : (g.node part).content.shape ≠ .mapping := by
            rw [← hshape]
            intro hmap
            obtain ⟨entries, hentries⟩ := eq_mapping_of_shape hmap
            exact hnot entries hentries
          rw [hother part hnotmapping]
          exact trivial

/-- What the merge of a value brings in is as planned, whatever has been flattened before. -/
theorem Layered.mergeValue_parallel {entry : Nat × Nat} (hentry : entry ∈ g.entries id)
    (hmerge : g.isMerge entry = true) {g₁ : Graph} (h₁ : SettledBelow g seen rank (rank id) g₁) :
    Parallel (fun entries r => r.1 = entries ∧ SettledBelow g seen rank (rank id) r.2 ∧
        Flattens g (g.merged entry.2) g₁ r.2)
      (flatParts f (g.merged entry.2)) (mergeValue flattened id entry.2 g₁) := by
  have hpart : ∀ part ∈ g.merged entry.2, g.Merges id part := fun part hpart =>
    ⟨entry, hentry, hmerge, hpart⟩
  have hparts := mergeParts_parallel hflat hother (fun part h => hg.part hid (hpart part h))
    (fun part h hmap => hg.rank_lt hid (hpart part h) hmap) h₁
  have hvalue := h₁.kept (hg.value hid entry hentry hmerge)
  rw [mergeValue]
  split
  · next entries hmap =>
      -- a mapping in the graph on the way is one in the first graph
      have hshape : (g.node entry.2).content.shape = .mapping := by
        rw [← hvalue.shape]
        exact shape_eq_mapping hmap
      obtain ⟨entries', hentries'⟩ := eq_mapping_of_shape hshape
      simpa only [merged, hentries'] using hparts
  · next parts hseq =>
      have hcontent : (g.node entry.2).content = .sequence parts := by
        rcases hvalue.content with hcontent | ⟨-, hmap⟩
        · rw [← hcontent, hseq]
        · rw [hseq] at hmap
          cases hmap
      simpa only [merged, hcontent] using hparts
  · next text hscalar =>
      have hcontent : (g.node entry.2).content = .scalar text := by
        rcases hvalue.content with hcontent | ⟨-, hmap⟩
        · rw [← hcontent, hscalar]
        · rw [hscalar] at hmap
          cases hmap
      have herror : f entry.2 = .error () := hother entry.2 (not_mapping_of_scalar hcontent)
      simp only [merged, hcontent, flatParts, herror]
      exact trivial

/-- The merges of a mapping are taken away one after another, and what they bring in is as planned.
The mapping itself is half flattened all the while, but nothing it merges looks at it. -/
theorem Layered.mergeAll_parallel (count : Nat) (before : List (Nat × Nat))
    {entries : List (Nat × Nat)} {g₁ : Graph} (h₁ : SettledBelow g seen rank (rank id) g₁)
    (hcontent : (g₁.node id).content = .mapping entries)
    (hentries : ∀ entry ∈ entries, entry ∈ g.entries id)
    (hcount : (entries.filter g.isMerge).length ≤ count) :
    Parallel (fun more g₂ => Merged g seen rank id (entries.filter g.isMerge)
        (before ++ (more ++ entries.filter fun entry => !g.isMerge entry)) g₁ g₂)
      (flatMerges g f (entries.filter g.isMerge)) (mergeAll flattened id count before g₁) := by
  induction count generalizing before entries g₁ with
  | zero =>
      have hnone := List.length_eq_zero_iff.mp (Nat.le_zero.mp hcount)
      exact hg.finishMerge_parallel hid f h₁ hcontent hentries (List.filter_eq_nil_iff.mp hnone)
  | succ count ih =>
      have hshape := shape_eq_mapping hcontent
      have hown : g₁.entries id = entries := entries_of_mapping hcontent
      have hmerge : ∀ entry ∈ entries, g₁.isMerge entry = g.isMerge entry := fun entry hentry =>
        hg.isMerge_eq h₁.kept (hg.key hid entry (hentries entry hentry))
      rw [mergeAll, hown]
      split
      · next hfind =>
          refine hg.finishMerge_parallel hid f h₁ hcontent hentries fun entry hentry => ?_
          rw [← hmerge entry hentry]
          exact List.find?_eq_none.mp hfind entry hentry
      · next key value hfind =>
          obtain ⟨hmem, hismerge, hplan, hothers⟩ := filter_of_find? hmerge hfind
          rw [hplan] at hcount
          rw [hplan, hothers, flatMerges]
          refine (hg.mergeValue_parallel hid hflat hother (hentries _ hmem) hismerge
            (hg.settledBelow_setContent h₁ hshape _)).bind fun more r hmore => ?_
          obtain ⟨rfl, h₂, hflattens⟩ := hmore
          have hself := hg.not_reached_self hid (hentries _ hmem) hismerge
          have hcontent₂ := (hflattens.other hself).trans (content_setContent hshape _)
          refine (ih (before ++ r.1) h₂ hcontent₂
            (fun entry hentry => hentries entry (List.mem_of_mem_eraseP hentry))
            (Nat.le_of_succ_le_succ hcount)).map_left fun later g₂ hlater => ?_
          refine .cons ?_ hflattens fun hne => congrArg Node.content (node_setContent_of_ne hne _)
          simpa only [List.append_assoc] using hlater

end Merge

omit hg in
theorem mergeAll_of_none {flattened : Nat → Graph → Except Error Graph} {id : Nat} {g₁ : Graph}
    (h : ∀ entry ∈ g₁.entries id, ¬g₁.isMerge entry = true) (count : Nat)
    (before : List (Nat × Nat)) :
    mergeAll flattened id count before g₁ = .ok (g₁.finishMerge id before) := by
  cases count with
  | zero => rfl
  | succ count => rw [mergeAll, List.find?_eq_none.mpr h]

/-- The planned entries have keys that are seen, and no merges. -/
theorem Layered.planned {id : Nat} (hid : seen id) {entries : List (Nat × Nat)}
    (h : g.flat id = .ok entries) :
    ∀ entry ∈ entries, seen entry.1 ∧ g.isMerge entry = false := by
  intro entry hentry
  obtain ⟨source, hsource, hmem, hnot⟩ := mem_flatWithin h hentry
  exact ⟨hg.key (hg.seen_of_reached hid hsource) entry hmem, hnot⟩

/-- What is merged into a flattened mapping, step by step, is flattened. -/
theorem Layered.flattens_of_flatAt {id bound : Nat} (hid : seen id) (hbound : rank id < bound)
    {g₁ : Graph} (h₁ : SettledBelow g seen rank bound g₁) (hflat : FlatAt g g₁ id) :
    Flattens g [id] g₁ g₁ := by
  refine ⟨fun {other} hreached => ?_, fun _ => rfl⟩
  obtain ⟨first, hfirst, hpath⟩ := hreached
  cases List.mem_singleton.mp hfirst
  -- along the path all mappings stay below the bound
  have hall : FlatAt g g₁ other ∧ rank other < bound := by
    induction hpath with
    | refl => exact ⟨hflat, hbound⟩
    | tail hpath hmerges ih =>
        have hseen := hg.seen_of_reached hid hpath
        have hpart := h₁.below hseen ih.2 ih.1 hmerges
        exact ⟨hpart, (hg.rank_lt hseen hmerges hpart.shape).trans ih.2⟩
  exact hall.1

/-- A mapping is flattened as planned, whatever has been flattened before, and so is what is merged
into it. -/
theorem Layered.flattenWithin_parallel (depth : Nat) {id : Nat} (hid : seen id)
    (hshape : (g.node id).content.shape = .mapping) (hdepth : rank id < depth) {bound : Nat}
    (hbound : rank id < bound) {g₁ : Graph} (h₁ : SettledBelow g seen rank bound g₁) :
    Parallel (fun entries g₂ => (g₂.node id).content = .mapping entries ∧
        SettledBelow g seen rank bound g₂ ∧ Flattens g [id] g₁ g₂)
      (flatWithin g depth id) (flattenWithin depth id g₁) := by
  induction depth generalizing id bound g₁ with
  | zero => exact absurd hdepth (Nat.not_lt_zero _)
  | succ depth ih =>
      obtain ⟨entries, hentries⟩ := eq_mapping_of_shape hshape
      have hown : g.entries id = entries := entries_of_mapping hentries
      have hplan : flatWithin g (depth + 1) id =
          flatMerges g (flatWithin g depth) (entries.filter g.isMerge) >>= fun more =>
            pure (more ++ entries.filter fun entry => !g.isMerge entry) := by
        rw [flatWithin, hentries]
      have hflat := hg.flat_eq hid hdepth
      rw [flattenWithin]
      rcases h₁.settled hid hbound with hfirst | hflatat
      · -- the mapping is as it was at first
        rw [hentries] at hfirst
        have hmerged := hg.mergeAll_parallel hid
          (fun {part g₂} hpart hmap hlt h₂ => ih hpart hmap (by omega) hlt h₂)
          (fun part hnot => flatWithin_of_not_mapping hnot depth) (g₁.entries id).length []
          (h₁.mono (Nat.le_of_lt hbound)) hfirst
          (fun entry hentry => hown ▸ hentry)
          (by rw [entries_of_mapping hfirst]; exact List.length_filter_le _ _)
        rw [hplan]
        refine hmerged.attach.map_left fun more g₂ hmore => ?_
        obtain ⟨⟨hmore, -⟩, hmerged⟩ := hmore
        rw [hplan, hmore] at hflat
        rw [← hown] at hmerged hflat
        have hflattens := hmerged.flattens hflat.symm
        have hsettled := h₁.of_flattens hflattens hmerged.settled.kept hmerged.settled.texts
        exact ⟨hown ▸ hmerged.content, hsettled, hflattens⟩
      · -- it has been flattened before, so there is nothing to merge
        obtain ⟨planned, hplanned, hcontent⟩ := hflatat
        have hown₁ : g₁.entries id = planned := entries_of_mapping hcontent
        have hkeys := hg.planned hid hplanned
        have hnone : ∀ entry ∈ g₁.entries id, ¬g₁.isMerge entry = true := by
          intro entry hentry
          obtain ⟨hkey, hnot⟩ := hkeys entry (hown₁ ▸ hentry)
          rw [hg.isMerge_eq h₁.kept hkey, hnot]
          exact Bool.false_ne_true
        have hsame : g₁.finishMerge id [] = g₁ := by
          have hseen : ∀ entry ∈ planned, seen entry.1 := fun entry hentry => (hkeys entry hentry).1
          rw [finishMerge, hown₁, hg.settleKeys_eq h₁.kept hseen]
          rfl
        rw [mergeAll_of_none hnone, hsame, hflat, hplanned]
        exact ⟨hcontent, h₁, hg.flattens_of_flatAt hid hbound h₁ ⟨planned, hplanned, hcontent⟩⟩

end Steps

/-! ## Flattened graphs -/

/-- A graph on the way between two steps: each node that is seen is as it was at first, or it is
flattened as planned, together with what is merged into it; and no mapping has been read as a
text. -/
structure Settled (g : Graph) (seen : Nat → Prop) (g₁ : Graph) : Prop where
  size : g₁.size = g.size
  kept : ∀ {id}, seen id → (g.node id).Reshaped (g₁.node id)
  settled : ∀ {id}, seen id → SettledAt g g₁ id
  below : ∀ {id part}, seen id → FlatAt g g₁ id → g.Merges id part → FlatAt g g₁ part
  texts : g₁.texts = []

theorem size_le_extent (g : Graph) : g.size ≤ g.extent := by
  have hlist (nodes : List Node) (f : Node → Nat) (n : Nat) :
      n + nodes.length ≤ nodes.foldl (fun n node => n + 1 + f node) n := by
    induction nodes generalizing n with
    | nil => exact Nat.le_refl _
    | cons node nodes ih =>
        have hrest := ih (n + 1 + f node)
        rw [List.length_cons, List.foldl_cons]
        omega
  rw [extent, ← Array.foldl_toList]
  refine Nat.le_trans ?_ (hlist g.nodes.toList _ 0)
  rw [Nat.zero_add, Array.length_toList]
  exact Nat.le_refl _

/-- Flattening gives a mapping the planned entries, in any graph on the way. -/
theorem Layered.flatten_parallel {g : Graph} {seen : Nat → Prop} {rank : Nat → Nat}
    (hg : g.Layered seen rank) {id : Nat} (hid : seen id)
    (hshape : (g.node id).content.shape = .mapping) {g₁ : Graph} (h₁ : g.Settled seen g₁) :
    Parallel (fun entries g₂ => (g₂.node id).content = .mapping entries ∧ g.Settled seen g₂ ∧
        Flattens g [id] g₁ g₂)
      (g.flat id) (g₁.flatten id) := by
  have hrank (id : Nat) : rank id < g.size + 1 := Nat.lt_succ_of_le (hg.rank_le id)
  have hdepth : rank id < g₁.extent + 1 := by
    have hextent := size_le_extent g₁
    have hle := hg.rank_le id
    rw [h₁.size] at hextent
    omega
  have hsettled : SettledBelow g seen rank (g.size + 1) g₁ :=
    ⟨h₁.kept, fun hid _ => h₁.settled hid, fun hid _ => h₁.below hid, h₁.texts⟩
  have hflatten := hg.flattenWithin_parallel (g₁.extent + 1) hid hshape hdepth (hrank id) hsettled
  rw [hg.flat_eq hid hdepth] at hflatten
  refine hflatten.attach.mono fun entries g₂ hresult => ?_
  obtain ⟨⟨-, hflatten⟩, hcontent, h₂, hflattens⟩ := hresult
  have hreshapes := reshapes_of_flatten hflatten ((h₁.kept hid).shape.trans hshape)
  exact ⟨hcontent, ⟨hreshapes.size.trans h₁.size, h₂.kept, fun {id} hid =>
    h₂.settled hid (hrank id), fun {id _} hid => h₂.below hid (hrank id), h₂.texts⟩, hflattens⟩

end Yaml.Graph

end ContainerAudit
