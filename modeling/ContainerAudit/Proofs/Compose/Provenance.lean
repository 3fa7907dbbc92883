import ContainerAudit.Compose.Read
import ContainerAudit.Proofs.Compose.Service
import ContainerAudit.Proofs.Yaml.Reshaping

/-!
# Where the fields of a service are set

A service is put together from the entries of its mapping, one after another, and a key may come
several times: in the mapping itself, or once more from a merge.  Values and lines are overwritten
separately, the lines of keys and those of items in one list.  They stay in step all the same: a
service has the value and the lines of the last entry of each key, and nothing under a key without
an entry (`Service.ofEntries_traces`).  The one thing that can go wrong is a key that looks like the
name under which the line of an item is kept (`Entry.Plain`).

The lines of entries are those of their nodes (`readEntries_spec`): building values changes the
graph, but no marks.
-/

namespace ContainerAudit.Compose

open ContainerAudit.Yaml (Graph)

/-! ## The nodes of an entry -/

/-- The nodes that a field lists: those of a list, or a single one. -/
def listed (g : Graph) (id : Nat) : List Nat :=
  match (g.node id).content with
  | .sequence items => items
  | .scalar _ => [id]
  | .mapping _ => []

/-- The node is an item of a set: a scalar, but not a null. -/
def isItem (g : Graph) (id : Nat) : Bool :=
  (g.scalarText? id).isSome && !g.isNull id

/-- The items that a field lists. -/
def itemNodes (g : Graph) (id : Nat) : List Nat :=
  (listed g id).filter (isItem g)

/-- The lines of the entry are those of its nodes: of the key, and of the items of a set. -/
structure Entry.LinesFrom (g : Graph) (nodes : Nat × Nat) (e : Entry) : Prop where
  key : e.line = g.lineOf nodes.1
  items : ∀ f items, e.setting = .set f items →
    items.map (·.2) = (itemNodes g nodes.2).map g.lineOf

theorem scalarText?_of_reshapes {g g' : Graph} (h : g.Reshapes g') (id : Nat) :
    g'.scalarText? id = g.scalarText? id := by
  rw [Graph.scalarText?, Graph.scalarText?]
  rcases (h.node id).content with hcontent | ⟨hmap, hmap'⟩
  · rw [hcontent]
  · obtain ⟨entries, hentries⟩ := Graph.eq_mapping_of_shape hmap
    obtain ⟨entries', hentries'⟩ := Graph.eq_mapping_of_shape hmap'
    rw [hentries, hentries']

theorem isNull_of_reshapes {g g' : Graph} (h : g.Reshapes g') (id : Nat) :
    g'.isNull id = g.isNull id := by
  rw [Graph.isNull, Graph.isNull, (h.node id).shape]
  rcases (h.node id).tag with htag | ⟨htag, htag'⟩
  · rw [htag]
  · rw [htag, htag']
    rfl

theorem isItem_of_reshapes {g g' : Graph} (h : g.Reshapes g') (id : Nat) :
    isItem g' id = isItem g id := by
  rw [isItem, isItem, scalarText?_of_reshapes h, isNull_of_reshapes h]

theorem listed_of_reshapes {g g' : Graph} (h : g.Reshapes g') (id : Nat) :
    listed g' id = listed g id := by
  rw [listed, listed]
  rcases (h.node id).content with hcontent | ⟨hmap, hmap'⟩
  · rw [hcontent]
  · obtain ⟨entries, hentries⟩ := Graph.eq_mapping_of_shape hmap
    obtain ⟨entries', hentries'⟩ := Graph.eq_mapping_of_shape hmap'
    rw [hentries, hentries']

theorem itemNodes_of_reshapes {g g' : Graph} (h : g.Reshapes g') (id : Nat) :
    itemNodes g' id = itemNodes g id := by
  rw [itemNodes, itemNodes, listed_of_reshapes h, funext (isItem_of_reshapes h)]

/-! ## Reading -/

/-- Only items are read. -/
theorem readItem_eq (g : Graph) (id : Nat) :
    readItem g id = if isItem g id then g.value id >>= fun r =>
        (liftText r.1.plain).map fun text => some (text, g.lineOf id)
      else .ok none := by
  rw [readItem, isItem]
  cases g.scalarText? id with
  | none => rfl
  | some text => cases g.isNull id <;> rfl

/-- The items of a field are those among the nodes that it lists. -/
theorem readItems_eq (g : Graph) (id : Nat) :
    readItems g id = ((listed g id).mapM (readItem g)).map (·.filterMap fun item => item) := by
  rw [readItems, listed]
  cases (g.node id).content with
  | sequence items => rfl
  | scalar text =>
      rw [List.mapM_cons, List.mapM_nil]
      cases readItem g id with
      | ok item => cases item <;> rfl
      | error e => rfl
  | mapping entries => rfl

theorem readItem_lines {g : Graph} {nodes : List Nat} {items : List (Option (String × Nat))}
    (h : nodes.mapM (readItem g) = .ok items) :
    (items.filterMap fun item => item).map (·.2) = (nodes.filter (isItem g)).map g.lineOf := by
  induction nodes generalizing items with
  | nil =>
      rw [← Except.ok.inj h]
      rfl
  | cons node nodes ih =>
      rw [List.mapM_cons] at h
      obtain ⟨item, hitem, h⟩ := exists_of_bind_eq_ok h
      obtain ⟨rest, hrest, h⟩ := exists_of_bind_eq_ok h
      rw [readItem_eq] at hitem
      rw [← Except.ok.inj h, List.filter_cons]
      split at hitem
      · next hkept =>
          obtain ⟨r, -, hitem⟩ := exists_of_bind_eq_ok hitem
          obtain ⟨text, -, rfl⟩ := exists_of_map_eq_ok hitem
          rw [if_pos hkept]
          exact congrArg (g.lineOf node :: ·) (ih hrest)
      · next hkept =>
          rw [← Except.ok.inj hitem, if_neg hkept, ← ih hrest]
          rfl

theorem readItems_lines {g : Graph} {id : Nat} {items : List (String × Nat)}
    (h : readItems g id = .ok items) : items.map (·.2) = (itemNodes g id).map g.lineOf := by
  rw [readItems_eq] at h
  obtain ⟨found, hfound, rfl⟩ := exists_of_map_eq_ok h
  exact readItem_lines hfound

theorem reshapes_of_readMounts {items : List Nat} {g g' : Graph} {mounts : List Mount}
    (h : readMounts items g = .ok (mounts, g')) : g.Reshapes g' := by
  induction items generalizing g mounts with
  | nil =>
      cases h
      exact .refl _
  | cons item rest ih =>
      obtain ⟨⟨v, g₁⟩, hvalue, h⟩ := exists_of_bind_eq_ok h
      obtain ⟨mount, -, h⟩ := exists_of_bind_eq_ok h
      obtain ⟨⟨later, g₂⟩, hlater, h⟩ := exists_of_bind_eq_ok h
      cases h
      exact (Graph.reshapes_of_value hvalue).trans (ih hlater)

/-- Reading the value of a field sets this field, and the items of a set have the lines of their
nodes. -/
theorem readSetting_spec {field : Field} {id : Nat} {g g' : Graph} {setting : Setting}
    (h : readSetting field id g = .ok (setting, g')) :
    g.Reshapes g' ∧ setting.field = field ∧
      ∀ f items, setting = .set f items → items.map (·.2) = (itemNodes g id).map g.lineOf := by
  cases field with
  | switch f =>
      obtain ⟨⟨v, g₁⟩, hvalue, h⟩ := exists_of_bind_eq_ok h
      obtain ⟨value, -, h⟩ := exists_of_bind_eq_ok h
      cases h
      exact ⟨Graph.reshapes_of_value hvalue, rfl, fun _ _ h => nomatch h⟩
  | word f =>
      obtain ⟨⟨v, g₁⟩, hvalue, h⟩ := exists_of_bind_eq_ok h
      obtain ⟨value, -, h⟩ := exists_of_bind_eq_ok h
      cases h
      exact ⟨Graph.reshapes_of_value hvalue, rfl, fun _ _ h => nomatch h⟩
  | set f =>
      obtain ⟨items, hitems, h⟩ := exists_of_bind_eq_ok h
      cases h
      refine ⟨.refl _, rfl, fun f' items' hset => ?_⟩
      cases hset
      exact readItems_lines hitems
  | volumes =>
      rw [readSetting] at h
      split at h
      · obtain ⟨⟨mounts, g₁⟩, hmounts, h⟩ := exists_of_bind_eq_ok h
        cases h
        exact ⟨reshapes_of_readMounts hmounts, rfl, fun _ _ h => nomatch h⟩
      · cases h
        exact ⟨.refl _, rfl, fun _ _ h => nomatch h⟩
  | other =>
      obtain ⟨⟨v, g₁⟩, hvalue, h⟩ := exists_of_bind_eq_ok h
      cases h
      exact ⟨Graph.reshapes_of_value hvalue, rfl, fun _ _ h => nomatch h⟩

theorem readEntries_spec {nodes : List (Nat × Nat)} {g₀ g g' : Graph} (hg : g₀.Reshapes g)
    {entries : List Entry} (h : readEntries nodes g = .ok (entries, g')) :
    List.Forall₂ (Entry.LinesFrom g₀) nodes entries ∧ (∀ e ∈ entries, e.Fits) ∧
      g₀.Reshapes g' := by
  induction nodes generalizing g entries with
  | nil =>
      cases h
      exact ⟨.nil, fun _ he => absurd he List.not_mem_nil, hg⟩
  | cons node rest ih =>
      obtain ⟨⟨k, g₁⟩, hkey, h⟩ := exists_of_bind_eq_ok h
      obtain ⟨name, -, h⟩ := exists_of_bind_eq_ok h
      obtain ⟨⟨setting, g₂⟩, hsetting, h⟩ := exists_of_bind_eq_ok h
      obtain ⟨⟨later, g₃⟩, hlater, h⟩ := exists_of_bind_eq_ok h
      cases h
      have hg₁ := hg.trans (Graph.reshapes_of_value hkey)
      obtain ⟨hstep, hfield, hitems⟩ := readSetting_spec hsetting
      obtain ⟨hlines, hfits, hend⟩ := ih (hg₁.trans hstep) hlater
      refine ⟨.cons ⟨hg₁.lineOf _, fun f items hset => ?_⟩ hlines,
        List.forall_mem_cons.mpr ⟨hfield, hfits⟩, hend⟩
      rw [hitems f items hset, itemNodes_of_reshapes hg₁]
      exact List.map_congr_left fun id _ => hg₁.lineOf id

theorem lift_eq_ok {α : Type} {x : Except Yaml.Error α} {a : α} : lift x = .ok a ↔ x = .ok a := by
  cases x <;> simp [lift, Except.mapError]

theorem liftText_eq_ok {α : Type} {x : Except Value.TextError α} {a : α} :
    liftText x = .ok a ↔ x = .ok a := by
  cases x <;> simp [liftText, Except.mapError]

/-- A mapping is read as a service by way of its entries. -/
theorem readService_of_mapping (name : String) (key : Nat) {value : Nat} {g : Graph}
    (hmap : (g.node value).content.shape = .mapping) :
    readService name key value g = lift (g.flatten value >>= fun flat =>
      readEntries (flat.entries value) flat >>= fun r =>
        pure (.ofEntries name (r.2.lineOf key) r.1, r.2)) := by
  have hnull : ¬g.isNull value = true := by
    rw [Graph.isNull, hmap]
    simp
  obtain ⟨nodes, hnodes⟩ := Graph.eq_mapping_of_shape hmap
  rw [readService, if_neg hnull, hnodes]

theorem readService_mapping {name : String} {key value : Nat} {g g' : Graph} {s : Service}
    (hmap : (g.node value).content.shape = .mapping) :
    readService name key value g = .ok (s, g') ↔
      ∃ flat entries, g.flatten value = .ok flat ∧
        readEntries (flat.entries value) flat = .ok (entries, g') ∧
        s = .ofEntries name (g'.lineOf key) entries := by
  rw [readService_of_mapping name key hmap, lift_eq_ok]
  constructor
  · intro h
    obtain ⟨flat, hflat, h⟩ := exists_of_bind_eq_ok h
    obtain ⟨⟨entries, g₁⟩, hentries, h⟩ := exists_of_bind_eq_ok h
    cases h
    exact ⟨flat, entries, hflat, hentries, rfl⟩
  · rintro ⟨flat, entries, hflat, hentries, rfl⟩
    rw [hflat]
    change (readEntries (flat.entries value) flat >>= _) = _
    rw [hentries]
    rfl

/-! ## The last entry counts -/

/-- The last entry with a key. -/
def latest? (key : String) (entries : List Entry) : Option Entry :=
  entries.reverse.find? fun e => e.key == key

theorem latest?_concat (key : String) (entries : List Entry) (e : Entry) :
    latest? key (entries ++ [e]) =
      if e.key = key then some e else latest? key entries := by
  rw [latest?, List.reverse_concat, List.find?_cons]
  by_cases hkey : e.key = key
  · rw [beq_iff_eq.mpr hkey, if_pos hkey]
  · rw [beq_false_of_ne hkey, if_neg hkey]
    rfl

theorem mem_of_latest? {key : String} {entries : List Entry} {e : Entry}
    (h : latest? key entries = some e) : e ∈ entries ∧ e.key = key := by
  have hkey := List.find?_some h
  exact ⟨List.mem_reverse.mp (List.mem_of_find?_eq_some h), eq_of_beq hkey⟩

/-- The key is not of the form under which the lines of items are kept. -/
def Entry.Plain (e : Entry) : Prop :=
  ∀ (f : SetField) (text : String), e.key ≠ Service.itemKey f.key text

namespace Service

/-- The service has what the entry sets, and the lines of the entry. An item of a set has the line
of its last occurrence. -/
structure Holds (s : Service) (e : Entry) : Prop where
  line : s.lines.lookup e.key = some e.line
  switch : ∀ f value, e.setting = .switch f value → s.switch f = value
  word : ∀ f value, e.setting = .word f value → s.word f = value
  set : ∀ f items, e.setting = .set f items → s.items f = sortedSet (items.map (·.1))
  itemLine : ∀ f items, e.setting = .set f items → ∀ item line,
    items.reverse.lookup item = some line → s.lines.lookup (itemKey f.key item) = some line
  volumes : ∀ mounts, e.setting = .volumes mounts → s.volumes = mounts
  other : ∀ value, e.setting = .other value → s.extras.lookup e.key = some value

theorem itemKey_inj {f f' : SetField} {item item' : String}
    (h : itemKey f.key item = itemKey f'.key item') : f = f' ∧ item = item' := by
  have hlist : f.key.toList ++ ':' :: item.toList = f'.key.toList ++ ':' :: item'.toList := by
    have h' := congrArg String.toList h
    simpa [itemKey] using h'
  cases f <;> cases f' <;> simp_all [SetField.key, String.toList_inj]

/-- A name without a colon is not one of items. -/
theorem ne_itemKey {name : String} (h : ':' ∉ name.toList) (f : SetField) (text : String) :
    name ≠ itemKey f.key text := by
  rintro rfl
  simp [itemKey] at h

/-- An entry notes no line but under its key and under names of its items. -/
theorem lookup_lines_apply_of_ne (s : Service) {e : Entry} {name : String} (hkey : name ≠ e.key)
    (hitem : ∀ item ∈ e.setting.items, name ≠ itemKey e.key item.1) :
    (s.apply e).lines.lookup name = s.lines.lookup name := by
  have hnone : e.marks.reverse.lookup name = none := by
    rw [List.lookup_eq_none_iff]
    intro mark hmark
    refine bne_iff_ne.mpr ?_
    rcases List.mem_cons.mp (List.mem_reverse.mp hmark) with rfl | hmark
    · exact hkey
    · obtain ⟨item, hmem, rfl⟩ := List.mem_map.mp hmark
      exact hitem item hmem
  rw [lookup_lines_apply, hnone, Option.none_or]

theorem lookup_map_itemKey (f : SetField) (items : List (String × Nat)) (item : String) :
    (items.map fun item => (itemKey f.key item.1, item.2)).lookup (itemKey f.key item) =
      items.lookup item := by
  induction items with
  | nil => rfl
  | cons other items ih =>
      have hsame : itemKey f.key item = itemKey f.key other.1 ↔ item = other.1 :=
        ⟨fun h => (itemKey_inj h).2, fun h => h ▸ rfl⟩
      rw [List.map_cons, lookup_cons_eq_ite, ih, lookup_cons_eq_ite, if_congr hsame rfl rfl]

/-- What an entry sets is there behind it. -/
theorem holds_apply (s : Service) {e : Entry} (hfits : e.Fits) (hplain : e.Plain) :
    (s.apply e).Holds e where
  line := by
    -- the lines of the items are noted later, but under other names
    have hnone : (e.setting.items.map fun item =>
        (itemKey e.key item.1, item.2)).reverse.lookup e.key = none := by
      rw [List.lookup_eq_none_iff]
      intro mark hmark
      obtain ⟨item, hitem, rfl⟩ := List.mem_map.mp (List.mem_reverse.mp hmark)
      obtain ⟨f, hkey⟩ := hfits.exists_key_of_items hitem
      exact bne_iff_ne.mpr (hkey ▸ hplain f item.1)
    rw [lookup_lines_apply, Entry.marks, List.reverse_cons, List.lookup_append, hnone,
      lookup_cons_eq_ite, if_pos rfl]
    rfl
  switch := fun f value hset => switch_apply s hset
  word := fun f value hset => word_apply s hset
  set := fun f items hset => items_apply s hset
  itemLine := by
    intro f items hset item line hline
    have hkey : e.key = f.key := hfits.key_eq (by rw [hset]; rfl)
    rw [lookup_lines_apply, Entry.marks, hset, hkey, List.reverse_cons, List.lookup_append,
      ← List.map_reverse, lookup_map_itemKey, Setting.items, hline]
    rfl
  volumes := fun mounts hset => volumes_apply s hset
  other := by
    intro value hset
    rw [extras_apply s hset, lookup_put, if_pos rfl]

/-- An entry leaves alone what entries with other keys set. -/
theorem Holds.apply {s : Service} {e e' : Entry} (h : s.Holds e) (hfits : e.Fits)
    (hfits' : e'.Fits) (hplain : e.Plain) (hplain' : e'.Plain) (hne : e.key ≠ e'.key) :
    (s.apply e').Holds e where
  line := by
    rw [lookup_lines_apply_of_ne s hne]
    · exact h.line
    · intro item hitem
      obtain ⟨f, hkey⟩ := hfits'.exists_key_of_items hitem
      exact hkey ▸ hplain f item.1
  switch := by
    intro f value hset
    have hother : e'.setting.field ≠ .switch f := by
      have hfield : e.setting.field = .switch f := by rw [hset]; rfl
      exact hfield ▸ hfits.field_ne hfits' hne (by rw [hfield]; rfl)
    rw [switch_apply_of_ne s hother]
    exact h.switch f value hset
  word := by
    intro f value hset
    have hother : e'.setting.field ≠ .word f := by
      have hfield : e.setting.field = .word f := by rw [hset]; rfl
      exact hfield ▸ hfits.field_ne hfits' hne (by rw [hfield]; rfl)
    rw [word_apply_of_ne s hother]
    exact h.word f value hset
  set := by
    intro f items hset
    have hother : e'.setting.field ≠ .set f := by
      have hfield : e.setting.field = .set f := by rw [hset]; rfl
      exact hfield ▸ hfits.field_ne hfits' hne (by rw [hfield]; rfl)
    rw [items_apply_of_ne s hother]
    exact h.set f items hset
  itemLine := by
    intro f items hset item line hline
    rw [lookup_lines_apply_of_ne s fun hname => hplain' f item hname.symm]
    · exact h.itemLine f items hset item line hline
    · intro item' hitem' hname
      have hkey : e.key = f.key := hfits.key_eq (by rw [hset]; rfl)
      obtain ⟨f', hkey'⟩ := hfits'.exists_key_of_items hitem'
      rw [hkey'] at hname
      obtain ⟨rfl, -⟩ := itemKey_inj hname
      exact hne (hkey.trans hkey'.symm)
  volumes := by
    intro mounts hset
    have hother : e'.setting.field ≠ .volumes := by
      have hfield : e.setting.field = .volumes := by rw [hset]; rfl
      exact hfield ▸ hfits.field_ne hfits' hne (by rw [hfield]; rfl)
    rw [volumes_apply_of_ne s hother]
    exact h.volumes mounts hset
  other := by
    intro value hset
    rw [lookup_extras_apply_of_ne s fun _ => hne]
    exact h.other value hset

/-- Nothing is set under the key: a field of its own has its default, and no other value is kept. A
name that is not one of items has no line. -/
structure Unset (s : Service) (key : String) : Prop where
  line : (∀ (f : SetField) text, key ≠ itemKey f.key text) → s.lines.lookup key = none
  switch : ∀ f, SwitchField.key f = key → s.switch f = none
  word : ∀ f, WordField.key f = key → s.word f = none
  set : ∀ f, SetField.key f = key → s.items f = []
  volumes : "volumes" = key → s.volumes = []
  other : s.extras.lookup key = none

theorem unset_new (name : String) (line : Nat) (key : String) :
    ({ name, line } : Service).Unset key where
  line := fun _ => rfl
  switch := fun f _ => by cases f <;> rfl
  word := fun f _ => by cases f <;> rfl
  set := fun f _ => by cases f <;> rfl
  volumes := fun _ => rfl
  other := rfl

theorem Unset.apply {s : Service} {e : Entry} {key : String} (h : s.Unset key) (hfits : e.Fits)
    (hne : e.key ≠ key) : (s.apply e).Unset key where
  line := by
    intro hplain
    rw [lookup_lines_apply_of_ne s hne.symm]
    · exact h.line hplain
    · intro item hitem
      obtain ⟨f, hkey⟩ := hfits.exists_key_of_items hitem
      exact hkey ▸ hplain f item.1
  switch := by
    intro f hkey
    rw [switch_apply_of_ne s fun hfield => hne ((hfits.key_eq (by rw [hfield]; rfl)).trans hkey)]
    exact h.switch f hkey
  word := by
    intro f hkey
    rw [word_apply_of_ne s fun hfield => hne ((hfits.key_eq (by rw [hfield]; rfl)).trans hkey)]
    exact h.word f hkey
  set := by
    intro f hkey
    rw [items_apply_of_ne s fun hfield => hne ((hfits.key_eq (by rw [hfield]; rfl)).trans hkey)]
    exact h.set f hkey
  volumes := by
    intro hkey
    rw [volumes_apply_of_ne s fun hfield => hne ((hfits.key_eq (by rw [hfield]; rfl)).trans hkey)]
    exact h.volumes hkey
  other := by
    rw [lookup_extras_apply_of_ne s fun _ => hne.symm]
    exact h.other

/-- The service goes back to the last entry of each key: it has what that entry sets, and nothing
under keys without an entry. Keys of interpreted fields are not among the other ones. -/
structure Traces (s : Service) (entries : List Entry) : Prop where
  held : ∀ key e, latest? key entries = some e → s.Holds e
  unset : ∀ key, latest? key entries = none → s.Unset key
  extras : ∀ key, Field.ofKey key ≠ .other → s.extras.lookup key = none

/-- Entries are applied one after another.  What the last entry of a key has set stays, since the
entries behind it have other keys. -/
theorem ofEntries_traces (name : String) (line : Nat) {entries : List Entry}
    (hfits : ∀ e ∈ entries, e.Fits) (hplain : ∀ e ∈ entries, e.Plain) :
    (ofEntries name line entries).Traces entries := by
  induction entries using List.reverseRecOn with
  | nil => exact ⟨fun _ _ h => (nomatch h), fun key _ => unset_new name line key, fun _ _ => rfl⟩
  | append_singleton entries e ih =>
      have hbefore : ∀ e' ∈ entries, e' ∈ entries ++ [e] := fun _ => List.mem_append_left [e]
      have hlast : e ∈ entries ++ [e] := List.mem_append_right entries List.mem_cons_self
      obtain ⟨held, unset, extras⟩ := ih (fun e' he' => hfits e' (hbefore e' he'))
        fun e' he' => hplain e' (hbefore e' he')
      rw [ofEntries_concat]
      refine ⟨fun key e' he' => ?_, fun key hnone => ?_, fun key hfield => ?_⟩
      · rw [latest?_concat] at he'
        split at he'
        · cases he'
          exact holds_apply _ (hfits e hlast) (hplain e hlast)
        · next hne =>
            obtain ⟨hmem, hkey⟩ := mem_of_latest? he'
            have hmem := hbefore e' hmem
            exact (held key e' he').apply (hfits e' hmem) (hfits e hlast) (hplain e' hmem)
              (hplain e hlast) (hkey ▸ Ne.symm hne)
      · rw [latest?_concat] at hnone
        split at hnone
        · exact nomatch hnone
        · next hne => exact (unset key hnone).apply (hfits e hlast) hne
      · rw [lookup_extras_apply_of_ne]
        · exact extras key hfield
        · rintro hother rfl
          exact hfield ((hfits e hlast).symm.trans hother)

end Service

end ContainerAudit.Compose
