import ContainerAudit.Proofs.Compose.Service

/-!
# Services that are alike

The items of a set field may be listed in any order, as long as none of them comes twice: the set is
the same, and each item keeps its line.  Services put together from entries that differ only in this
have the same fields and the same lines (`Service.ofEntries_alike`), though their lines may have
been noted in another order.
-/

namespace ContainerAudit.Compose

/-- Settings that differ at most in the order of their items, none of which comes twice. -/
inductive Setting.Alike : Setting → Setting → Prop
  | refl (setting : Setting) : Setting.Alike setting setting
  | set {field : SetField} {items items' : List (String × Nat)} : items'.Perm items →
      (items.map (·.1)).Nodup → Setting.Alike (.set field items) (.set field items')

/-- Entries that differ at most in the order of items. -/
structure Entry.Alike (e e' : Entry) : Prop where
  key : e'.key = e.key
  line : e'.line = e.line
  setting : e.setting.Alike e'.setting

/-- Services with the same fields and lines. -/
structure Service.Alike (s s' : Service) : Prop where
  name : s'.name = s.name
  line : s'.line = s.line
  switch : ∀ f, s'.switch f = s.switch f
  word : ∀ f, s'.word f = s.word f
  items : ∀ f, s'.items f = s.items f
  volumes : s'.volumes = s.volumes
  lines : ∀ name, s'.lines.lookup name = s.lines.lookup name

namespace Setting.Alike

variable {setting setting' : Setting} (h : setting.Alike setting')

include h

theorem field_eq : setting'.field = setting.field := by
  cases h <;> rfl

theorem eq_of_not_set (hnot : ∀ f, setting.field ≠ .set f) : setting' = setting := by
  cases h with
  | refl => rfl
  | set => exact absurd rfl (hnot _)

/-- The same items, each once, or the same list. -/
theorem items_perm : setting'.items.Perm setting.items ∧
    (setting' = setting ∨ (setting.items.map (·.1)).Nodup) := by
  cases h with
  | refl => exact ⟨.refl _, .inl rfl⟩
  | set hperm hnodup => exact ⟨hperm, .inr hnodup⟩

end Setting.Alike

namespace Service

theorem itemKey_injective (key : String) : Function.Injective (itemKey key) := by
  intro item item' h
  have hlist := congrArg String.toList h
  simpa [itemKey, String.toList_inj] using hlist

theorem Alike.refl (s : Service) : s.Alike s :=
  ⟨rfl, rfl, fun _ => rfl, fun _ => rfl, fun _ => rfl, rfl, fun _ => rfl⟩

/-- Entries that are alike note the same lines. -/
theorem lookup_marks_eq {e e' : Entry} (h : e.Alike e') (name : String) :
    e'.marks.reverse.lookup name = e.marks.reverse.lookup name := by
  obtain ⟨hperm, hsame | hnodup⟩ := h.setting.items_perm
  · rw [Entry.marks, Entry.marks, h.key, h.line, hsame]
  · have hitems : (e'.setting.items.map fun item => (itemKey e.key item.1, item.2)).reverse.lookup
        name = (e.setting.items.map fun item => (itemKey e.key item.1, item.2)).reverse.lookup
          name := by
      refine (lookup_eq_of_perm ?_ ?_ name).symm
      · exact (List.reverse_perm _).trans ((hperm.symm.map _).trans (List.reverse_perm _).symm)
      · rw [List.map_reverse, List.nodup_reverse, List.map_map]
        have hnames := hnodup.map (itemKey_injective e.key)
        rwa [List.map_map] at hnames
    rw [Entry.marks, Entry.marks, h.key, h.line, List.reverse_cons, List.reverse_cons,
      List.lookup_append, List.lookup_append, hitems]

/-- Services stay alike behind entries that are alike. -/
theorem Alike.apply {s s' : Service} (h : s.Alike s') {e e' : Entry} (he : e.Alike e') :
    (s.apply e).Alike (s'.apply e') where
  name := by rw [(name_apply s e).1, (name_apply s' e').1, h.name]
  line := by rw [(name_apply s e).2, (name_apply s' e').2, h.line]
  switch := by
    intro f
    by_cases hfield : e.setting.field = .switch f
    · obtain ⟨value, hset⟩ := Setting.eq_switch hfield
      have hset' := (he.setting.eq_of_not_set (by rw [hfield]; exact nofun)).trans hset
      rw [switch_apply s hset, switch_apply s' hset']
    · have hfield' : e'.setting.field ≠ .switch f := he.setting.field_eq ▸ hfield
      rw [switch_apply_of_ne s hfield, switch_apply_of_ne s' hfield', h.switch f]
  word := by
    intro f
    by_cases hfield : e.setting.field = .word f
    · obtain ⟨value, hset⟩ := Setting.eq_word hfield
      have hset' := (he.setting.eq_of_not_set (by rw [hfield]; exact nofun)).trans hset
      rw [word_apply s hset, word_apply s' hset']
    · have hfield' : e'.setting.field ≠ .word f := he.setting.field_eq ▸ hfield
      rw [word_apply_of_ne s hfield, word_apply_of_ne s' hfield', h.word f]
  items := by
    intro f
    by_cases hfield : e.setting.field = .set f
    · have hfield' : e'.setting.field = .set f := he.setting.field_eq.trans hfield
      obtain ⟨items, hset⟩ := Setting.eq_set hfield
      obtain ⟨items', hset'⟩ := Setting.eq_set hfield'
      have hperm := he.setting.items_perm.1
      rw [hset, hset'] at hperm
      rw [items_apply s hset, items_apply s' hset']
      exact sortedSet_eq_of_perm (hperm.map _)
    · have hfield' : e'.setting.field ≠ .set f := he.setting.field_eq ▸ hfield
      rw [items_apply_of_ne s hfield, items_apply_of_ne s' hfield', h.items f]
  volumes := by
    by_cases hfield : e.setting.field = .volumes
    · obtain ⟨mounts, hset⟩ := Setting.eq_volumes hfield
      have hset' := (he.setting.eq_of_not_set (by rw [hfield]; exact nofun)).trans hset
      rw [volumes_apply s hset, volumes_apply s' hset']
    · have hfield' : e'.setting.field ≠ .volumes := he.setting.field_eq ▸ hfield
      rw [volumes_apply_of_ne s hfield, volumes_apply_of_ne s' hfield', h.volumes]
  lines := by
    intro name
    rw [lookup_lines_apply, lookup_lines_apply, lookup_marks_eq he, h.lines]

theorem Alike.foldl {entries entries' : List Entry} (h : List.Forall₂ Entry.Alike entries entries')
    {s s' : Service} (hs : s.Alike s') :
    (entries.foldl Service.apply s).Alike (entries'.foldl Service.apply s') := by
  induction h generalizing s s' with
  | nil => exact hs
  | cons he _ ih => exact ih (hs.apply he)

theorem ofEntries_alike (name : String) (line : Nat) {entries entries' : List Entry}
    (h : List.Forall₂ Entry.Alike entries entries') :
    (ofEntries name line entries).Alike (ofEntries name line entries') :=
  Alike.foldl h (Alike.refl _)

theorem Alike.lineOf {s s' : Service} (h : s.Alike s') (key : String) :
    s'.lineOf key = s.lineOf key := by
  rw [Service.lineOf, Service.lineOf, h.lines, h.line]

theorem Alike.lineOfItem {s s' : Service} (h : s.Alike s') (key item : String) :
    s'.lineOfItem key item = s.lineOfItem key item := by
  rw [Service.lineOfItem, Service.lineOfItem, h.lines, h.lineOf]

end Service

end ContainerAudit.Compose
