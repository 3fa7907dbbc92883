import ContainerAudit.Proofs.Compose.Alike
import ContainerAudit.Proofs.Compose.Provenance
import ContainerAudit.Proofs.Yaml.Sharing

/-!
# Services in another order

Services are read one after another, in a graph that changes on the way.  If the services of a file
are put into another order, and so are the items of sets in which none comes twice, then the same
services are read, each alike, or reading fails as well (`readServices_reordered`).  This is not
true of all files.  It is asked that the file be tame (`Tame`): that no mapping among the nodes that
are looked at merges itself, that no `=` stands for the plain value of a mapping, and that no
mapping in a list of pairs has a merge.  And what has been reordered must not be looked at in
another way too: the nodes that are seen are the same in both files (`Reordered.same`).

The argument compares the two runs step by step.  In both, the graph is one of those that follow the
plan of the first graph (`OnWay`), and in all of these a service comes out alike
(`readService_parallel`).  So a service can as well be read from the first graph, alone
(`readServices_parallel`), and then its place no longer matters.

One thing depends on the run.  A service may merge the services themselves; then they are flattened,
and their merges are no longer among the entries that are still to come (`isTaken`).  But in that
case the services are looked at, so they have been left in their order, and the two runs can be
compared entry by entry (`readServices_same`).
-/

namespace ContainerAudit.Compose

open ContainerAudit.Yaml (Graph)
open Relation (ReflTransGen TransGen)

/-! ## What reading looks at -/

section Seen

variable (g : Graph) (services : Nat)

/-- The node holds fields of a service: it is the definition of one, or merged into one. -/
def Defines (id : Nat) : Prop :=
  ∃ entry ∈ g.entries services, ReflTransGen g.Merges entry.2 id

/-- The entry is a field of a service. -/
def IsField (entry : Nat × Nat) : Prop :=
  ∃ source, Defines g services source ∧ entry ∈ g.entries source ∧ g.isMerge entry = false

/-- The key is that of a set. -/
def NamesSet (key : Nat) : Prop :=
  ∃ v g' name f, g.value key = .ok (v, g') ∧ v.plain = .ok name ∧ Field.ofKey name = .set f

/-- The node lists the items of a set. -/
def ListsItems (list : Nat) : Prop :=
  ∃ entry, IsField g services entry ∧ NamesSet g entry.1 ∧ list = entry.2

/-- The node is built into a value: a name, a key, the value of a field that is not a set, or an
item of a set. -/
inductive IsRoot : Nat → Prop
  | name {entry : Nat × Nat} : entry ∈ g.entries services → IsRoot entry.1
  | key {source : Nat} {entry : Nat × Nat} : Defines g services source →
      entry ∈ g.entries source → IsRoot entry.1
  | field {entry : Nat × Nat} : IsField g services entry → ¬NamesSet g entry.1 → IsRoot entry.2
  | item {list item : Nat} : ListsItems g services list → item ∈ itemNodes g list → IsRoot item

/-- The node is built into a value, or is a part of one that is. -/
def Built (id : Nat) : Prop :=
  ∃ root, IsRoot g services root ∧ ReflTransGen g.Part root id

/-- The node is looked at for what it holds. -/
def Seen (id : Nat) : Prop :=
  Built g services id ∨ Defines g services id ∨
    ∃ source entry, Defines g services source ∧ entry ∈ g.entries source ∧
      g.isMerge entry = true ∧ id = entry.2

/-- Reading services in one order or another makes no difference. No mapping merges itself, no key
stands for the plain value of its mapping, and no mapping in a list of pairs has a merge. -/
structure Tame : Prop where
  acyclic : ∀ id, Seen g services id → ¬TransGen g.Merges id id
  plain : ∀ id, Seen g services id → (g.node id).tag ≠ .value
  pairs : ∀ id part, Built g services id →
    (g.node id).tag = .orderedMap ∨ (g.node id).tag = .pairs → g.Part id part →
      ∀ entry ∈ g.entries part, g.isMerge entry = false

end Seen

/-- The graph with the services in another order, and the items of sets too, as far as none of them
comes twice. Nothing else that is looked at has changed. -/
structure Reordered (g g' : Graph) (services : Nat) : Prop where
  size : g'.size = g.size
  entries : (g'.entries services).Perm (g.entries services)
  same : ∀ id, Seen g services id → g'.node id = g.node id
  listed : ∀ list, ListsItems g services list → (listed g' list).Perm (listed g list) ∧
    (Compose.listed g' list = Compose.listed g list ∨
      ∀ items, readItems g list = .ok items → (items.map (·.1)).Nodup)
  items : ∀ list, ListsItems g services list → ∀ item ∈ Compose.listed g list,
    g'.node item = g.node item

section Closure

variable {g : Graph} {services : Nat}

/-- The value of a merge is a mapping of fields itself, or it has no entries. -/
theorem Defines.of_merge {source : Nat} {entry : Nat × Nat} (h : Defines g services source)
    (hentry : entry ∈ g.entries source) (hmerge : g.isMerge entry = true) {field : Nat × Nat}
    (hfield : field ∈ g.entries entry.2) : Defines g services entry.2 := by
  obtain ⟨service, hservice, hreached⟩ := h
  have hmap := Graph.shape_eq_mapping_of_mem hfield
  obtain ⟨entries, hentries⟩ := Graph.eq_mapping_of_shape hmap
  have hself : entry.2 ∈ g.merged entry.2 := by
    rw [Graph.merged, hentries]
    exact List.mem_singleton_self _
  exact ⟨service, hservice, hreached.tail ⟨entry, hentry, hmerge, hself⟩⟩

theorem Built.part {id part : Nat} (h : Built g services id) (hpart : g.Part id part) :
    Built g services part := by
  obtain ⟨root, hroot, hreached⟩ := h
  exact ⟨root, hroot, hreached.tail hpart⟩

theorem IsRoot.built {id : Nat} (h : IsRoot g services id) : Built g services id :=
  ⟨id, h, .refl⟩

theorem Tame.whole (h : Tame g services) : g.Whole (Seen g services) (Built g services) where
  seen := .inl
  part := Built.part
  pairs := fun hid htag hpart => h.pairs _ _ hid htag hpart

/-- A node with entries that is seen is built, or holds fields. -/
theorem Seen.built_or_defines {id : Nat} (h : Seen g services id) {entry : Nat × Nat}
    (hentry : entry ∈ g.entries id) : Built g services id ∨ Defines g services id := by
  rcases h with h | h | ⟨source, merge, hsource, hmem, hmerge, rfl⟩
  · exact .inl h
  · exact .inr h
  · exact .inr (hsource.of_merge hmem hmerge hentry)

theorem Seen.part {id part : Nat} (h : Seen g services id) (hmerges : g.Merges id part) :
    Seen g services part := by
  obtain ⟨entry, hentry, hmerge, hpart⟩ := hmerges
  rcases h.built_or_defines hentry with h | ⟨service, hservice, hreached⟩
  · have hvalue := h.part (Graph.part_of_entry hentry).2
    rcases Graph.eq_or_item_of_merged hpart with rfl | ⟨items, hseq, hitem⟩
    · exact .inl hvalue
    · exact .inl (hvalue.part (Graph.part_of_item hseq hitem))
  · exact .inr (.inl ⟨service, hservice, hreached.tail ⟨entry, hentry, hmerge, hpart⟩⟩)

theorem Tame.exists_layered (h : Tame g services) (hunread : g.texts = []) :
    ∃ rank, g.Layered (Seen g services) rank := by
  obtain ⟨rank, hle, hlt⟩ := Graph.exists_rank g Seen.part h.acyclic
  refine ⟨rank, ?_, ?_, Seen.part, fun hid => h.plain _ hid, hlt, hle, hunread⟩
  · intro id hid entry hentry
    rcases hid.built_or_defines hentry with hid | hid
    · exact .inl (hid.part (Graph.part_of_entry hentry).1)
    · exact .inl (IsRoot.key hid hentry).built
  · intro id hid entry hentry hmerge
    rcases hid.built_or_defines hentry with hid | hid
    · exact .inl (hid.part (Graph.part_of_entry hentry).2)
    · exact .inr (.inr ⟨id, entry, hid, hentry, hmerge, rfl⟩)

end Closure

/-! ## Files without nesting -/

/-- Nodes of a file in which all that is built is scalars and each merge goes back: those that hold
fields, and those that are built. -/
structure Covers (g : Graph) (services : Nat) (sources scalars : List Nat) : Prop where
  service : ∀ entry ∈ g.entries services, entry.1 ∈ scalars ∧ entry.2 ∈ sources
  key : ∀ source ∈ sources, ∀ entry ∈ g.entries source, entry.1 ∈ scalars
  merge : ∀ source ∈ sources, ∀ entry ∈ g.entries source, g.isMerge entry = true →
    entry.2 ∈ sources ∧ ∀ part ∈ g.merged entry.2, part ∈ sources ∧ part < source
  field : ∀ source ∈ sources, ∀ entry ∈ g.entries source, g.isMerge entry = false →
    NamesSet g entry.1 ∨ entry.2 ∈ scalars
  item : ∀ source ∈ sources, ∀ entry ∈ g.entries source, g.isMerge entry = false →
    ∀ item ∈ itemNodes g entry.2, item ∈ scalars
  scalar : ∀ id ∈ scalars, (g.node id).content.shape = .scalar
  plain : ∀ id ∈ scalars ++ sources, (g.node id).tag ≠ .value

namespace Covers

variable {g : Graph} {services : Nat} {sources scalars : List Nat}
  (h : Covers g services sources scalars)

include h

theorem defines {id : Nat} (hid : Defines g services id) : id ∈ sources := by
  obtain ⟨service, hservice, hreached⟩ := hid
  induction hreached with
  | refl => exact (h.service service hservice).2
  | tail _ hmerges ih =>
      obtain ⟨entry, hentry, hmerge, hpart⟩ := hmerges
      exact ((h.merge _ ih entry hentry hmerge).2 _ hpart).1

theorem root {id : Nat} (hid : IsRoot g services id) : id ∈ scalars := by
  cases hid with
  | name hentry => exact (h.service _ hentry).1
  | key hsource hentry => exact h.key _ (h.defines hsource) _ hentry
  | field hfield hset =>
      obtain ⟨source, hsource, hentry, hmerge⟩ := hfield
      exact (h.field source (h.defines hsource) _ hentry hmerge).resolve_left hset
  | item hlist hitem =>
      obtain ⟨entry, ⟨source, hsource, hentry, hmerge⟩, -, rfl⟩ := hlist
      exact h.item source (h.defines hsource) _ hentry hmerge _ hitem

theorem not_part {id part : Nat} (hid : id ∈ scalars) : ¬g.Part id part := by
  intro hpart
  have hshape := h.scalar id hid
  rw [Graph.Part] at hpart
  split at hpart
  · exact hpart
  · next hcontent =>
      rw [hcontent] at hshape
      cases hshape
  · next hcontent =>
      rw [hcontent] at hshape
      cases hshape

theorem built {id : Nat} (hid : Built g services id) : id ∈ scalars := by
  obtain ⟨root, hroot, hreached⟩ := hid
  induction hreached with
  | refl => exact h.root hroot
  | tail _ hpart ih => exact absurd hpart (h.not_part ih)

theorem seen {id : Nat} (hid : Seen g services id) : id ∈ scalars ++ sources := by
  rw [List.mem_append]
  rcases hid with hid | hid | ⟨source, entry, hsource, hentry, hmerge, rfl⟩
  · exact .inl (h.built hid)
  · exact .inr (h.defines hid)
  · exact .inr (h.merge source (h.defines hsource) entry hentry hmerge).1

theorem merges {id part : Nat} (hid : Seen g services id) (hmerges : g.Merges id part) :
    part < id := by
  obtain ⟨entry, hentry, hmerge, hpart⟩ := hmerges
  rcases hid.built_or_defines hentry with hid | hid
  · exact absurd (Graph.part_of_entry hentry).1 (h.not_part (h.built hid))
  · exact ((h.merge id (h.defines hid) entry hentry hmerge).2 part hpart).2

theorem tame : Tame g services where
  acyclic := by
    intro id hid hcycle
    have hback : ∀ part, TransGen g.Merges id part → Seen g services part ∧ part < id := by
      intro part hreached
      induction hreached with
      | single hmerges => exact ⟨hid.part hmerges, h.merges hid hmerges⟩
      | tail _ hmerges ih =>
          exact ⟨ih.1.part hmerges, (h.merges ih.1 hmerges).trans ih.2⟩
    exact Nat.lt_irrefl id (hback id hcycle).2
  plain := fun id hid => h.plain id (h.seen hid)
  pairs := fun id part hid _ hpart => absurd hpart (h.not_part (h.built hid))

end Covers

/-! ## Reading in parallel -/

/-- A graph on the way from a reordered one. -/
structure OnWay (g g' : Graph) (services : Nat) (g₁ : Graph) : Prop where
  settled : g.Settled (Seen g services) g₁
  reshapes : g'.Reshapes g₁

theorem Reordered.onWay {g g' : Graph} {services : Nat} (h : Reordered g g' services)
    (htexts : g'.texts = []) : OnWay g g' services g' where
  settled :=
    { size := h.size
      kept := fun hid => h.same _ hid ▸ .refl _
      settled := fun hid => .inl (by rw [h.same _ hid])
      below := fun {id part} hid hflat hmerges => by
        have hfirst : Graph.FlatAt g g id := hflat.congr (by rw [h.same _ hid])
        exact absurd hmerges hfirst.not_merges
      texts := htexts }
  reshapes := .refl g'

theorem Reordered.refl (g : Graph) (services : Nat) : Reordered g g services :=
  ⟨rfl, .refl _, fun _ _ => rfl, fun _ _ => ⟨.refl _, .inl rfl⟩, fun _ _ _ _ => rfl⟩

theorem OnWay.step {g g' g₁ f₁ : Graph} {services id : Nat} (h : OnWay g g' services g₁)
    (hid : Seen g services id) (hmap : (g.node id).content.shape = .mapping)
    (hstep : Graph.FlattenStep g (Seen g services) id g₁ f₁) : OnWay g g' services f₁ where
  settled := hstep.settled
  reshapes := h.reshapes.trans
    (Graph.reshapes_of_flatten hstep.flatten ((h.settled.kept hid).shape.trans hmap))

theorem OnWay.lineOf {g g' g₁ : Graph} {services id : Nat} (h : OnWay g g' services g₁)
    (hid : Seen g services id) : g₁.lineOf id = g.lineOf id := by
  rw [Graph.lineOf, Graph.lineOf, (h.settled.kept hid).start]

theorem OnWay.isNull {g g' g₁ : Graph} {services id : Nat} (h : OnWay g g' services g₁)
    (hr : Reordered g g' services) (hid : Seen g services id) : g₁.isNull id = g.isNull id := by
  rw [isNull_of_reshapes h.reshapes, Graph.isNull, Graph.isNull, hr.same _ hid]

/-- A relation of a graph on the way in one run to one in the other, which is kept as both go on. -/
structure InStep (g g' : Graph) (services : Nat) (rel : Graph → Graph → Prop) : Prop where
  left : ∀ {g₁ g₂}, rel g₁ g₂ → OnWay g g services g₁
  right : ∀ {g₁ g₂}, rel g₁ g₂ → OnWay g g' services g₂
  step : ∀ {id g₁ g₂ f₁ f₂}, Seen g services id → (g.node id).content.shape = .mapping →
    rel g₁ g₂ → Graph.FlattenStep g (Seen g services) id g₁ f₁ →
      Graph.FlattenStep g (Seen g services) id g₂ f₂ → rel f₁ f₂

theorem InStep.lockstep {g g' : Graph} {services : Nat} {rel : Graph → Graph → Prop}
    (h : InStep g g' services rel) : g.Lockstep (Seen g services) rel where
  left := fun hrel => (h.left hrel).settled
  right := fun hrel => (h.right hrel).settled
  step := h.step

theorem InStep.lineOf_eq {g g' : Graph} {services : Nat} {rel : Graph → Graph → Prop}
    (h : InStep g g' services rel) {g₁ g₂ : Graph} (hrel : rel g₁ g₂) {id : Nat}
    (hid : Seen g services id) : g₁.lineOf id = g₂.lineOf id :=
  ((h.left hrel).lineOf hid).trans ((h.right hrel).lineOf hid).symm

/-- What is read in two graphs on the way is alike, and the graphs stay related. -/
def SameRead {α : Type} (rel : Graph → Graph → Prop) (alike : α → α → Prop) (r r' : α × Graph) :
    Prop :=
  alike r.1 r'.1 ∧ rel r.2 r'.2

theorem lift_parallel {α β : Type} {post : α → β → Prop} {x : Except Yaml.Error α}
    {y : Except Yaml.Error β} (h : Parallel post x y) :
    Parallel post (lift x) (lift y) := by
  rcases h.cases with ⟨a, b, rfl, rfl, hab⟩ | ⟨e, e', rfl, rfl⟩
  · exact hab
  · exact trivial

theorem mapM_parallel {α β ε ε' : Type} {f : α → Except ε β} {f' : α → Except ε' β} {l : List α}
    (h : ∀ a ∈ l, Parallel Eq (f a) (f' a)) : Parallel Eq (l.mapM f) (l.mapM f') := by
  induction l with
  | nil => exact rfl
  | cons a l ih =>
      obtain ⟨ha, hl⟩ := List.forall_mem_cons.mp h
      rw [List.mapM_cons, List.mapM_cons]
      refine ha.bind fun b b' hb => (ih hl).bind fun bs bs' hbs => ?_
      rw [hb, hbs]
      exact rfl

/-- A step for each element of a list goes through in any order, or in none. -/
theorem mapM_perm {α β ε : Type} (f : α → Except ε β) {l m : List α} (h : m.Perm l) :
    Parallel (fun bs bs' => bs'.Perm bs) (l.mapM f) (m.mapM f) := by
  induction h with
  | nil => exact .refl _
  | cons a _ ih =>
      rw [List.mapM_cons, List.mapM_cons]
      exact (Parallel.of_eq (rfl : f a = f a)).bind fun b b' hb =>
        ih.bind fun bs bs' hbs => hb ▸ hbs.cons b
  | swap a b l =>
      simp only [List.mapM_cons, bind_assoc, pure_bind]
      cases f a <;> cases f b <;> cases l.mapM f
      all_goals first | exact List.Perm.swap _ _ _ | exact trivial
  | trans _ _ ih ih' =>
      refine (ih'.trans ih).mono fun bs bs' hbs => ?_
      obtain ⟨between, hfirst, hsecond⟩ := hbs
      exact hsecond.trans hfirst

/-- The service that an entry names and defines. -/
def readNamed (entry : Nat × Nat) (g : Graph) : Except Failure (Service × Graph) := do
  let (k, g) ← lift (g.value entry.1)
  let name ← lift (liftText k.plain)
  readService name entry.1 entry.2 g

theorem readServices_cons {services : Nat} {entry : Nat × Nat} {g : Graph}
    (h : isTaken g services entry = false) (rest : List (Nat × Nat)) (before : List Service) :
    readServices services (entry :: rest) before g = (readNamed entry g >>= fun r =>
      readServices services rest (putService r.1 before) r.2) := by
  simp only [readServices, h, Bool.false_eq_true, if_false, readNamed, bind_assoc]

theorem readServices_cons_of_taken {services : Nat} {entry : Nat × Nat} {g : Graph}
    (h : isTaken g services entry = true) (rest : List (Nat × Nat)) (before : List Service) :
    readServices services (entry :: rest) before g = readServices services rest before g := by
  rw [readServices, if_pos h]

section Reading

variable {g g' : Graph} {services : Nat} {rank : Nat → Nat}
  (hg : g.Layered (Seen g services) rank) (hw : g.Whole (Seen g services) (Built g services))
  (hr : Reordered g g' services)

include hg hw hr

theorem readItem_parallel {list item : Nat} (hlist : ListsItems g services list)
    (hitem : item ∈ listed g list) {g₁ g₂ : Graph} (h₁ : OnWay g g services g₁)
    (h₂ : OnWay g g' services g₂) : Parallel Eq (readItem g₁ item) (readItem g₂ item) := by
  have hnode := hr.items list hlist item hitem
  have hsame : isItem g' item = isItem g item := by
    simp only [isItem, Graph.scalarText?, Graph.isNull, hnode]
  have hline : g'.lineOf item = g.lineOf item := by rw [Graph.lineOf, Graph.lineOf, hnode]
  rw [readItem_eq, readItem_eq, isItem_of_reshapes h₁.reshapes, isItem_of_reshapes h₂.reshapes,
    hsame, h₁.reshapes.lineOf, h₂.reshapes.lineOf, hline]
  split
  · next hkept =>
      have hbuilt := (IsRoot.item hlist (List.mem_filter.mpr ⟨hitem, hkept⟩)).built
      have hvalue := hg.value_parallel hw (.of_settled g _) hbuilt ⟨h₁.settled, h₂.settled⟩
      refine hvalue.bind fun r r' hr => ?_
      rw [hr.1]
      exact .of_eq rfl
  · exact rfl

omit hr in
/-- The items of a set do not depend on what has been built before. -/
theorem readItems_settled {list : Nat} (hlist : ListsItems g services list) {g₁ : Graph}
    (h₁ : OnWay g g services g₁) : Parallel Eq (readItems g list) (readItems g₁ list) := by
  have hself := Reordered.refl g services
  rw [readItems_eq, readItems_eq, listed_of_reshapes h₁.reshapes]
  exact (mapM_parallel fun item hitem =>
    readItem_parallel hg hw hself hlist hitem (hself.onWay hg.unread) h₁).map fun _ _ => congrArg _

/-- The items of a set are the same up to their order. -/
theorem readItems_parallel {list : Nat} (hlist : ListsItems g services list) {g₁ g₂ : Graph}
    (h₁ : OnWay g g services g₁) (h₂ : OnWay g g' services g₂) :
    Parallel (fun items items' => items'.Perm items ∧
        (items' = items ∨ (items.map (·.1)).Nodup))
      (readItems g₁ list) (readItems g₂ list) := by
  obtain ⟨hperm, hsame⟩ := hr.listed list hlist
  have hitems : Parallel Eq ((listed g list).mapM (readItem g₁))
      ((listed g list).mapM (readItem g₂)) :=
    mapM_parallel fun item hitem => readItem_parallel hg hw hr hlist hitem h₁ h₂
  have hmapped : Parallel (fun items items' => items'.Perm items) (readItems g₁ list)
      (readItems g₂ list) := by
    rw [readItems_eq, readItems_eq, listed_of_reshapes h₁.reshapes, listed_of_reshapes h₂.reshapes]
    refine (hitems.trans (mapM_perm _ hperm)).map fun found found' hfound => ?_
    obtain ⟨between, rfl, hbetween⟩ := hfound
    exact hbetween.filterMap _
  -- where the order is not kept, no item comes twice, in the first graph and so on the way
  rcases hsame with hsame | hdistinct
  · rw [readItems_eq, readItems_eq, listed_of_reshapes h₁.reshapes, listed_of_reshapes h₂.reshapes,
      hsame]
    exact hitems.map fun found found' hfound => ⟨hfound ▸ .refl _, .inl (congrArg _ hfound.symm)⟩
  · refine hmapped.attach.mono fun items items' hread => ?_
    obtain ⟨⟨hread, -⟩, hperm⟩ := hread
    obtain ⟨first, hfirst, rfl⟩ := (readItems_settled hg hw hlist h₁).symm.exists_of_ok hread
    exact ⟨hperm, .inr (hdistinct _ hfirst)⟩

omit hr in
/-- Whether a field is a set does not depend on what has been built before. -/
theorem namesSet_iff {id : Nat} (hid : Built g services id) {g₁ f₁ : Graph} {v : Value}
    {name : String} (h₁ : OnWay g g' services g₁) (hvalue : g₁.value id = .ok (v, f₁))
    (hname : v.plain = .ok name) : NamesSet g id ↔ ∃ f, Field.ofKey name = .set f := by
  have hself := (Reordered.refl g services).onWay hg.unread
  have hboth := hg.value_parallel hw (.of_settled g _) hid ⟨hself.settled, h₁.settled⟩
  obtain ⟨⟨v', f⟩, hvalue', hsame, -⟩ := hboth.symm.exists_of_ok hvalue
  dsimp only at hsame
  subst hsame
  constructor
  · rintro ⟨v', f', name', field, hnamed, hname', hfield⟩
    cases hvalue'.symm.trans hnamed
    cases hname.symm.trans hname'
    exact ⟨field, hfield⟩
  · rintro ⟨field, hfield⟩
    exact ⟨v', f, name, field, hvalue', hname, hfield⟩

variable {rel : Graph → Graph → Prop} (hrel : InStep g g' services rel)

include hrel

omit hr in
theorem readMounts_parallel {items : List Nat} (hitems : ∀ item ∈ items, Built g services item)
    {g₁ g₂ : Graph} (h : rel g₁ g₂) :
    Parallel (SameRead rel Eq) (readMounts items g₁) (readMounts items g₂) := by
  induction items generalizing g₁ g₂ with
  | nil => exact ⟨rfl, h⟩
  | cons item rest ih =>
      obtain ⟨hitem, hrest⟩ := List.forall_mem_cons.mp hitems
      rw [readMounts, readMounts]
      refine (hg.value_parallel hw hrel.lockstep hitem h).bind ?_
      rintro ⟨v, f₁⟩ ⟨v', f₂⟩ ⟨rfl, hf⟩
      have hline := hrel.lineOf_eq hf (.inl hitem)
      dsimp only
      rw [hline]
      refine (Parallel.of_eq rfl).bind fun mount mount' hmount => (ih hrest hf).bind ?_
      rintro ⟨mounts, f₁⟩ ⟨mounts', f₂⟩ ⟨rfl, hf⟩
      exact ⟨by rw [hmount], hf⟩

theorem readSetting_parallel {field : Field} {id : Nat}
    (hset : ∀ f, field = .set f → ListsItems g services id)
    (hbuilt : (∀ f, field ≠ .set f) → Built g services id) {g₁ g₂ : Graph} (h : rel g₁ g₂) :
    Parallel (SameRead rel Setting.Alike) (readSetting field id g₁)
      (readSetting field id g₂) := by
  have h₁ := hrel.left h
  have h₂ := hrel.right h
  cases field with
  | switch f =>
      refine (hg.value_parallel hw hrel.lockstep (hbuilt fun _ h => by cases h) h).bind ?_
      rintro ⟨v, f₁⟩ ⟨v', f₂⟩ ⟨rfl, hf⟩
      exact (Parallel.of_eq rfl).bind fun value value' hvalue => ⟨hvalue ▸ .refl _, hf⟩
  | word f =>
      refine (hg.value_parallel hw hrel.lockstep (hbuilt fun _ h => by cases h) h).bind ?_
      rintro ⟨v, f₁⟩ ⟨v', f₂⟩ ⟨rfl, hf⟩
      exact (Parallel.of_eq rfl).bind fun value value' hvalue => ⟨hvalue ▸ .refl _, hf⟩
  | set f =>
      refine (readItems_parallel hg hw hr (hset f rfl) h₁ h₂).bind fun items items' hitems => ?_
      refine ⟨?_, h⟩
      obtain ⟨hperm, rfl | hnodup⟩ := hitems
      · exact .refl _
      · exact .set hperm hnodup
  | volumes =>
      have hid : Built g services id := hbuilt fun _ h => by cases h
      cases hcontent : (g.node id).content with
      | sequence items =>
          have hnot := Graph.not_mapping_of_sequence hcontent
          simp only [readSetting, h₁.settled.content_eq (.inl hid) hnot,
            h₂.settled.content_eq (.inl hid) hnot, hcontent]
          refine (readMounts_parallel hg hw hrel (fun item hitem =>
            hid.part (Graph.part_of_item hcontent hitem)) h).bind ?_
          rintro ⟨mounts, f₁⟩ ⟨mounts', f₂⟩ ⟨rfl, hf⟩
          exact ⟨.refl _, hf⟩
      | scalar text =>
          have hnot := Graph.not_mapping_of_scalar hcontent
          simp only [readSetting, h₁.settled.content_eq (.inl hid) hnot,
            h₂.settled.content_eq (.inl hid) hnot, hcontent]
          exact ⟨.refl _, h⟩
      | mapping entries =>
          have hmap := Graph.shape_eq_mapping hcontent
          obtain ⟨entries₁, hentries₁⟩ := h₁.settled.mapping (.inl hid) hmap
          obtain ⟨entries₂, hentries₂⟩ := h₂.settled.mapping (.inl hid) hmap
          simp only [readSetting, hentries₁, hentries₂]
          exact ⟨.refl _, h⟩
  | other =>
      refine (hg.value_parallel hw hrel.lockstep (hbuilt fun _ h => by cases h) h).bind ?_
      rintro ⟨v, f₁⟩ ⟨v', f₂⟩ ⟨rfl, hf⟩
      exact ⟨.refl _, hf⟩

theorem readEntries_parallel {nodes : List (Nat × Nat)}
    (hnodes : ∀ entry ∈ nodes, IsField g services entry) {g₁ g₂ : Graph} (h : rel g₁ g₂) :
    Parallel (SameRead rel (List.Forall₂ Entry.Alike)) (readEntries nodes g₁)
      (readEntries nodes g₂) := by
  induction nodes generalizing g₁ g₂ with
  | nil => exact ⟨.nil, h⟩
  | cons node rest ih =>
      obtain ⟨hnode, hrest⟩ := List.forall_mem_cons.mp hnodes
      have hkey : Built g services node.1 := by
        obtain ⟨source, hsource, hmem, -⟩ := hnode
        exact (IsRoot.key hsource hmem).built
      rw [readEntries, readEntries]
      refine (hg.value_parallel hw hrel.lockstep hkey h).attach.bind ?_
      rintro ⟨k, f₁⟩ ⟨k', f₂⟩ ⟨⟨hvalue, -⟩, rfl, hf⟩
      have hline := hrel.lineOf_eq hf (.inl hkey)
      refine (Parallel.of_eq rfl).attach.bind fun name name' hname => ?_
      obtain ⟨⟨hname, -⟩, rfl⟩ := hname
      -- a value is read as a set exactly if its key named one in the first graph
      have hnames := namesSet_iff hg hw hkey (hrel.left h) hvalue (liftText_eq_ok.mp hname)
      refine (readSetting_parallel hg hw hr hrel
        (fun f hf => ⟨node, hnode, hnames.mpr ⟨f, hf⟩, rfl⟩)
        (fun hnot => (IsRoot.field hnode fun hset => (hnames.mp hset).elim hnot).built) hf).bind ?_
      rintro ⟨setting, f₁⟩ ⟨setting', f₂⟩ ⟨halike, hf⟩
      refine (ih hrest hf).bind ?_
      rintro ⟨later, f₁⟩ ⟨later', f₂⟩ hlater
      exact ⟨.cons ⟨rfl, hline.symm, halike⟩ hlater.1, hlater.2⟩

/-- A service is read alike in all graphs on the way. -/
theorem readService_parallel (name : String) {entry : Nat × Nat}
    (hentry : entry ∈ g.entries services) {g₁ g₂ : Graph} (h : rel g₁ g₂) :
    Parallel (SameRead rel Service.Alike) (readService name entry.1 entry.2 g₁)
      (readService name entry.1 entry.2 g₂) := by
  have hkey : Seen g services entry.1 := .inl (IsRoot.name hentry).built
  have hdefined : Defines g services entry.2 := ⟨entry, hentry, .refl⟩
  have hseen : Seen g services entry.2 := .inr (.inl hdefined)
  have h₁ := hrel.left h
  have h₂ := hrel.right h
  by_cases hmap : (g.node entry.2).content.shape = .mapping
  · rw [readService_of_mapping name entry.1 ((h₁.settled.kept hseen).shape.trans hmap),
      readService_of_mapping name entry.1 ((h₂.settled.kept hseen).shape.trans hmap)]
    refine lift_parallel ((hg.flatten_same hrel.lockstep h hseen hmap).bind fun f₁ f₂ hf => ?_)
    obtain ⟨hflat, hsame, hf⟩ := hf
    have hfields : ∀ field ∈ f₁.entries entry.2, IsField g services field := by
      intro field hfield
      obtain ⟨source, hreached, hmem, hmerge⟩ := Graph.mem_flatWithin hflat hfield
      exact ⟨source, ⟨entry, hentry, hreached⟩, hmem, hmerge⟩
    rw [← hsame]
    refine (readEntries_parallel hg hw hr hrel hfields hf).bind ?_
    rintro ⟨es, f₁⟩ ⟨es', f₂⟩ ⟨hes, hf⟩
    refine ⟨?_, hf⟩
    rw [hrel.lineOf_eq hf hkey]
    exact Service.ofEntries_alike name _ hes
  · have hcontent₁ := h₁.settled.content_eq hseen hmap
    have hcontent₂ := h₂.settled.content_eq hseen hmap
    rw [readService, readService, h₁.isNull (.refl g services) hseen, h₂.isNull hr hseen, hcontent₁,
      hcontent₂]
    split
    · refine ⟨?_, h⟩
      rw [hrel.lineOf_eq h hkey]
      exact .refl _
    · split
      · next hentries => exact absurd (Graph.shape_eq_mapping hentries) hmap
      · exact trivial

/-! ## All services -/

theorem readNamed_parallel {entry : Nat × Nat} (hentry : entry ∈ g.entries services)
    {g₁ g₂ : Graph} (h : rel g₁ g₂) :
    Parallel (SameRead rel Service.Alike) (readNamed entry g₁) (readNamed entry g₂) := by
  have hname := hg.value_parallel hw hrel.lockstep (IsRoot.name hentry).built h
  refine (lift_parallel hname).bind ?_
  rintro ⟨k, f₁⟩ ⟨k', f₂⟩ ⟨rfl, hf⟩
  refine (Parallel.of_eq rfl).bind fun name name' hname => ?_
  rw [hname]
  exact readService_parallel hg hw hr hrel name' hentry hf

end Reading

/-- No entry of the services has been taken. -/
def Intact (g : Graph) (services : Nat) (g₁ : Graph) : Prop :=
  ∀ entry ∈ g.entries services, isTaken g₁ services entry = false

/-- No entry of the services is ever taken: none of them is a merge, or nothing looks at the
services. -/
def StaysIntact (g : Graph) (services : Nat) : Prop :=
  (∀ entry ∈ g.entries services, g.isMerge entry = false) ∨ ¬Seen g services services

section Walk

variable {g g' : Graph} {services : Nat} {rank : Nat → Nat}
  (hg : g.Layered (Seen g services) rank) (hw : g.Whole (Seen g services) (Built g services))
  (hr : Reordered g g' services)

include hg

theorem isTaken_eq {g₁ : Graph} (h₁ : OnWay g g' services g₁) {entry : Nat × Nat}
    (hentry : entry ∈ g.entries services) :
    isTaken g₁ services entry = (g.isMerge entry && !(g₁.entries services).contains entry) := by
  rw [isTaken, hg.isMerge_eq h₁.settled.kept (.inl (IsRoot.name hentry).built)]

theorem Reordered.intact (h : Reordered g g' services) (hunread : g'.texts = []) :
    Intact g services g' := by
  intro entry hentry
  have hthere : entry ∈ g'.entries services := h.entries.mem_iff.mpr hentry
  rw [isTaken_eq hg (h.onWay hunread) hentry, List.contains_iff_mem.mpr hthere]
  exact Bool.and_false _

theorem StaysIntact.inStep (h : StaysIntact g services) :
    InStep g g' services fun g₁ g₂ =>
      OnWay g g services g₁ ∧ OnWay g g' services g₂ ∧ Intact g services g₂ where
  left := And.left
  right := fun h => h.2.1
  step := by
    rintro id g₁ g₂ f₁ f₂ hid hmap ⟨h₁, h₂, hintact⟩ hstep₁ hstep₂
    have hf₂ := h₂.step hid hmap hstep₂
    refine ⟨h₁.step hid hmap hstep₁, hf₂, fun entry hentry => ?_⟩
    rw [isTaken_eq hg hf₂ hentry]
    rcases h with hnone | hunseen
    · rw [hnone entry hentry]
      rfl
    · have hother : ¬g.Reached [id] services := by
        rintro ⟨_, hpart, hpath⟩
        cases List.mem_singleton.mp hpart
        exact hunseen (hg.seen_of_reached hid hpath)
      rw [Graph.entries, hstep₂.flattens.other hother, ← Graph.entries, ← isTaken_eq hg h₂ hentry]
      exact hintact entry hentry

omit hg in
/-- The services are flattened in both runs or in neither. -/
theorem inStep_of_same : InStep g g' services fun g₁ g₂ => OnWay g g services g₁ ∧
    OnWay g g' services g₂ ∧ (g₁.node services).content = (g₂.node services).content where
  left := And.left
  right := fun h => h.2.1
  step := by
    rintro id g₁ g₂ f₁ f₂ hid hmap ⟨h₁, h₂, hsame⟩ hstep₁ hstep₂
    refine ⟨h₁.step hid hmap hstep₁, h₂.step hid hmap hstep₂, ?_⟩
    by_cases hreached : g.Reached [id] services
    · obtain ⟨entries, hflat, hcontent⟩ := hstep₁.flattens.reached hreached
      obtain ⟨entries', hflat', hcontent'⟩ := hstep₂.flattens.reached hreached
      cases hflat.symm.trans hflat'
      exact hcontent.trans hcontent'.symm
    · rw [hstep₁.flattens.other hreached, hstep₂.flattens.other hreached, hsame]

include hw hr

/-- One service after the other is as good as each of them from the first graph, if none is taken.
The induction is on the services of the run alone, so they may come in any order. -/
theorem readServices_parallel (hstays : StaysIntact g services) {entries : List (Nat × Nat)}
    (hentries : ∀ entry ∈ entries, entry ∈ g.entries services) (before : List Service) {g₂ : Graph}
    (h₂ : OnWay g g' services g₂) (hintact : Intact g services g₂) :
    Parallel (fun alone found => ∃ next, List.Forall₂ Service.Alike alone next ∧
        found = next.foldl (fun found s => putService s found) before)
      (entries.mapM fun entry => readNamed entry g >>= fun r => pure r.1)
      (readServices services entries before g₂) := by
  induction entries generalizing before g₂ with
  | nil => exact ⟨[], .nil, rfl⟩
  | cons entry rest ih =>
      obtain ⟨hentry, hrest⟩ := List.forall_mem_cons.mp hentries
      have hself := (Reordered.refl g services).onWay hg.unread
      have hnamed := readNamed_parallel hg hw hr (hstays.inStep hg) hentry ⟨hself, h₂, hintact⟩
      rw [List.mapM_cons, readServices_cons (hintact entry hentry)]
      have hfirst : Parallel
          (fun s r => s.Alike r.1 ∧ OnWay g g' services r.2 ∧ Intact g services r.2)
          (readNamed entry g >>= fun r => pure r.1) (readNamed entry g₂) :=
        hnamed.map_left fun _ _ hr => ⟨hr.1, hr.2.2⟩
      refine hfirst.bind fun s r hs => ?_
      refine (ih hrest (putService r.1 before) hs.2.1 hs.2.2).map_left fun alone found hlater => ?_
      obtain ⟨next, hnext, hfound⟩ := hlater
      exact ⟨r.1 :: next, .cons hs.1 hnext, hfound⟩

omit hg hw hr in
theorem putService_alike {s s' : Service} (hs : s.Alike s') {found found' : List Service}
    (h : List.Forall₂ Service.Alike found found') :
    List.Forall₂ Service.Alike (putService s found) (putService s' found') := by
  induction h with
  | nil => exact .cons hs .nil
  | cons ht hrest ih =>
      rw [putService, putService, ht.name, hs.name]
      split
      · exact .cons hs hrest
      · exact .cons ht ih

/-- In the same order the services come out alike, also if some of them are taken on the way. -/
theorem readServices_same {entries : List (Nat × Nat)}
    (hentries : ∀ entry ∈ entries, entry ∈ g.entries services) {found found' : List Service}
    (hfound : List.Forall₂ Service.Alike found found') {g₁ g₂ : Graph}
    (h₁ : OnWay g g services g₁) (h₂ : OnWay g g' services g₂)
    (hsame : (g₁.node services).content = (g₂.node services).content) :
    Parallel (List.Forall₂ Service.Alike) (readServices services entries found g₁)
      (readServices services entries found' g₂) := by
  induction entries generalizing found found' g₁ g₂ with
  | nil => exact hfound
  | cons entry rest ih =>
      obtain ⟨hentry, hrest⟩ := List.forall_mem_cons.mp hentries
      have htaken : isTaken g₁ services entry = isTaken g₂ services entry := by
        rw [isTaken_eq hg h₁ hentry, isTaken_eq hg h₂ hentry, Graph.entries, Graph.entries, hsame]
      cases hkept : isTaken g₁ services entry with
      | true =>
          rw [readServices_cons_of_taken hkept, readServices_cons_of_taken (htaken ▸ hkept)]
          exact ih hrest hfound h₁ h₂ hsame
      | false =>
          rw [readServices_cons hkept, readServices_cons (htaken ▸ hkept)]
          refine (readNamed_parallel hg hw hr inStep_of_same hentry ⟨h₁, h₂, hsame⟩).bind
            fun r r' hread => ?_
          obtain ⟨halike, hf₁, hf₂, hsame⟩ := hread
          exact ih hrest (putService_alike halike hfound) hf₁ hf₂ hsame

end Walk

/-- The key stands for a name. -/
def Named (g : Graph) (key : Nat) (name : String) : Prop :=
  ∃ v g', g.value key = .ok (v, g') ∧ v.plain = .ok name

/-- No two services of the file have the same name. -/
def DistinctNames (g : Graph) (services : Nat) : Prop :=
  (g.entries services).Pairwise fun e e' => ∀ name, Named g e.1 name → ¬Named g e'.1 name

theorem DistinctNames.of_nodup {g : Graph} {services : Nat}
    (h : ((g.entries services).map fun e =>
      (g.value e.1).toOption.bind (·.1.plain.toOption)).Nodup) :
    DistinctNames g services := by
  refine (List.pairwise_map.mp h).imp fun {e e'} hne name => ?_
  rintro ⟨v, f, hvalue, hname⟩ ⟨v', f', hvalue', hname'⟩
  refine hne ?_
  simp only [hvalue, hvalue', Except.toOption, Option.bind_some, hname, hname']

theorem name_ofEntries (name : String) (line : Nat) (entries : List Entry) :
    (Service.ofEntries name line entries).name = name := by
  induction entries using List.reverseRecOn with
  | nil => rfl
  | append_singleton entries e ih =>
      rw [Service.ofEntries_concat, (Service.name_apply _ e).1, ih]

theorem named_of_readNamed {entry : Nat × Nat} {g g' : Graph} {s : Service}
    (h : readNamed entry g = .ok (s, g')) : Named g entry.1 s.name := by
  obtain ⟨⟨k, g₁⟩, hvalue, h⟩ := exists_of_bind_eq_ok h
  obtain ⟨name, hname, h⟩ := exists_of_bind_eq_ok h
  refine ⟨k, g₁, lift_eq_ok.mp hvalue, ?_⟩
  rw [liftText_eq_ok.mp (lift_eq_ok.mp hname)]
  refine congrArg Except.ok ?_
  by_cases hmap : (g₁.node entry.2).content.shape = .mapping
  · obtain ⟨flat, entries, -, -, rfl⟩ := (readService_mapping hmap).mp h
    exact (name_ofEntries _ _ _).symm
  · rw [readService] at h
    split at h
    · cases h
      rfl
    · split at h
      · next hentries => exact absurd (Graph.shape_eq_mapping hentries) hmap
      · cases h

/-- Services read from keys with names of their own have names of their own. -/
theorem names_nodup {g : Graph} {entries : List (Nat × Nat)} {alone : List Service}
    (hnames : entries.Pairwise fun e e' => ∀ name, Named g e.1 name → ¬Named g e'.1 name)
    (h : (entries.mapM fun entry => readNamed entry g >>= fun r => pure r.1) = .ok alone) :
    (∀ s ∈ alone, ∃ entry ∈ entries, Named g entry.1 s.name) ∧ (alone.map (·.name)).Nodup := by
  induction entries generalizing alone with
  | nil =>
      cases h
      exact ⟨fun _ hs => absurd hs List.not_mem_nil, .nil⟩
  | cons entry rest ih =>
      obtain ⟨hentry, hrest⟩ := List.pairwise_cons.mp hnames
      rw [List.mapM_cons] at h
      obtain ⟨s, hs, h⟩ := exists_of_bind_eq_ok h
      obtain ⟨⟨s, g₁⟩, hread, hs⟩ := exists_of_bind_eq_ok hs
      obtain ⟨later, hlater, h⟩ := exists_of_bind_eq_ok h
      cases hs
      cases h
      have hnamed := named_of_readNamed hread
      obtain ⟨hfrom, hnodup⟩ := ih hrest hlater
      constructor
      · rintro t (_ | ⟨_, ht⟩)
        · exact ⟨entry, List.mem_cons_self, hnamed⟩
        · obtain ⟨source, hsource, hname⟩ := hfrom t ht
          exact ⟨source, List.mem_cons_of_mem _ hsource, hname⟩
      · refine List.nodup_cons.mpr ⟨fun hmem => ?_, hnodup⟩
        obtain ⟨t, ht, hsame⟩ := List.mem_map.mp hmem
        obtain ⟨source, hsource, hname⟩ := hfrom t ht
        rw [hsame] at hname
        exact hentry source hsource _ hnamed hname

/-- A service with a name of its own comes last. -/
theorem putService_eq {s : Service} {before : List Service} (h : ∀ t ∈ before, t.name ≠ s.name) :
    putService s before = before ++ [s] := by
  induction before with
  | nil => rfl
  | cons t before ih =>
      obtain ⟨ht, hbefore⟩ := List.forall_mem_cons.mp h
      rw [putService, if_neg ht, ih hbefore, List.cons_append]

theorem foldl_putService {next before : List Service}
    (h : ((before ++ next).map (·.name)).Nodup) :
    next.foldl (fun found s => putService s found) before = before ++ next := by
  induction next generalizing before with
  | nil => exact (List.append_nil _).symm
  | cons s next ih =>
      have hnew : ∀ t ∈ before, t.name ≠ s.name := by
        intro t ht
        rw [List.map_append, List.nodup_append] at h
        exact h.2.2 _ (List.mem_map_of_mem ht) _ List.mem_cons_self
      rw [List.foldl_cons, putService_eq hnew, ih (by rwa [List.append_assoc]), List.append_assoc,
        List.singleton_append]

theorem Alike.map_eq {β : Type} {f : Service → β} (hf : ∀ s s', s.Alike s' → f s' = f s)
    {found found' : List Service} (h : List.Forall₂ Service.Alike found found') :
    found'.map f = found.map f := by
  induction h with
  | nil => rfl
  | cons hs _ ih => rw [List.map_cons, List.map_cons, hf _ _ hs, ih]

/-- Services with names of their own, and the same ones in another order up to what is alike. -/
def SameServices (found found' : List Service) : Prop :=
  ∃ alone alone', (alone.map (·.name)).Nodup ∧ alone'.Perm alone ∧
    List.Forall₂ Service.Alike alone found ∧ List.Forall₂ Service.Alike alone' found'

theorem names_putService {s : Service} {found : List Service} (h : (found.map (·.name)).Nodup) :
    (∀ name, name ∈ (putService s found).map (·.name) ↔ name = s.name ∨ name ∈ found.map (·.name)) ∧
      ((putService s found).map (·.name)).Nodup := by
  induction found with
  | nil => simp [putService]
  | cons t found ih =>
      rw [List.map_cons, List.nodup_cons] at h
      obtain ⟨hnames, hnodup⟩ := ih h.2
      rw [putService]
      split
      · next hsame => simp_all
      · next hne =>
          simp only [List.map_cons, List.mem_cons, List.nodup_cons, hnames]
          refine ⟨fun name => or_left_comm, ?_, hnodup⟩
          rintro (hsame | hmem)
          · exact hne hsame
          · exact h.1 hmem

theorem names_readServices {services : Nat} {entries : List (Nat × Nat)}
    {before found : List Service} {g : Graph}
    (h : readServices services entries before g = .ok found)
    (hbefore : (before.map (·.name)).Nodup) : (found.map (·.name)).Nodup := by
  induction entries generalizing before g with
  | nil =>
      cases h
      exact hbefore
  | cons entry rest ih =>
      cases hkept : isTaken g services entry with
      | true =>
          rw [readServices_cons_of_taken hkept] at h
          exact ih h hbefore
      | false =>
          rw [readServices_cons hkept] at h
          obtain ⟨r, -, h⟩ := exists_of_bind_eq_ok h
          exact ih h (names_putService hbefore).2

/-- Reading the services in another order gives the same services, or fails as well. -/
theorem readServices_reordered {g g' : Graph} {services : Nat} (ht : Tame g services)
    (hr : Reordered g g' services) (hnames : DistinctNames g services) (hunread : g.texts = [])
    (hunread' : g'.texts = []) :
    Parallel SameServices (readServices services (g.entries services) [] g)
      (readServices services (g'.entries services) [] g') := by
  obtain ⟨rank, hg⟩ := ht.exists_layered hunread
  have hself := Reordered.refl g services
  have hfirstway := hself.onWay hunread
  have hsecondway := hr.onWay hunread'
  by_cases hstays : StaysIntact g services
  · have hfirst := readServices_parallel hg ht.whole hself hstays (fun _ h => h) [] hfirstway
      (hself.intact hg hunread)
    have hsecond := readServices_parallel hg ht.whole hr hstays
      (fun _ h => hr.entries.mem_iff.mp h) [] hsecondway (hr.intact hg hunread')
    -- from the first run to the services alone, from these to the same in the other order, and from
    -- there to the second run
    refine ((hfirst.attach.symm.trans (mapM_perm _ hr.entries)).trans hsecond).mono
      fun found found' hfound => ?_
    obtain ⟨alone', ⟨alone, ⟨⟨hread, -⟩, next, hnext, rfl⟩, hperm⟩, next', hnext', rfl⟩ := hfound
    have hnodup := (names_nodup hnames hread).2
    have hname : ∀ s s' : Service, s.Alike s' → s'.name = s.name := fun _ _ h => h.name
    refine ⟨alone, alone', hnodup, hperm, ?_, ?_⟩
    · rwa [foldl_putService]
      rwa [List.nil_append, Alike.map_eq hname hnext]
    · rwa [foldl_putService]
      rw [List.nil_append, Alike.map_eq hname hnext']
      exact (hperm.map _).nodup_iff.mpr hnodup
  · -- the services are looked at themselves, and so they have been left in their order
    have hseen : Seen g services services := not_not.mp (not_or.mp hstays).2
    have hentries : g'.entries services = g.entries services := by
      rw [Graph.entries, Graph.entries, hr.same _ hseen]
    rw [hentries]
    refine (readServices_same hg ht.whole hr (fun _ h => h) .nil hfirstway hsecondway
      (by rw [hr.same _ hseen])).attach.mono fun found found' hfound => ?_
    obtain ⟨⟨hread, -⟩, halike⟩ := hfound
    exact ⟨found, found, names_readServices hread .nil, .refl found,
      List.forall₂_same.mpr fun s _ => .refl s, halike⟩

end ContainerAudit.Compose
