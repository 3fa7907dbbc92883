import ContainerAudit.Compose.Service
import ContainerAudit.Proofs.Entries

/-!
# Services and their entries

What one entry changes in a service, and what it leaves alone.  An entry sets the field that its key
names and no other one (`Service.switch_apply` and its companions), and it notes lines: that of its
key, and those of its items if its field is a set (`Entry.marks`, `Service.lines_apply`).
-/

namespace ContainerAudit.Compose

/-! ## Keys and fields -/

def Setting.field : Setting → Field
  | .switch f _ => .switch f
  | .word f _ => .word f
  | .set f _ => .set f
  | .volumes _ => .volumes
  | .other _ => .other

theorem Setting.eq_switch {setting : Setting} {f : SwitchField} (h : setting.field = .switch f) :
    ∃ value, setting = .switch f value := by
  cases setting <;> cases h
  exact ⟨_, rfl⟩

theorem Setting.eq_word {setting : Setting} {f : WordField} (h : setting.field = .word f) :
    ∃ value, setting = .word f value := by
  cases setting <;> cases h
  exact ⟨_, rfl⟩

theorem Setting.eq_set {setting : Setting} {f : SetField} (h : setting.field = .set f) :
    ∃ items, setting = .set f items := by
  cases setting <;> cases h
  exact ⟨_, rfl⟩

theorem Setting.eq_volumes {setting : Setting} (h : setting.field = .volumes) :
    ∃ mounts, setting = .volumes mounts := by
  cases setting <;> cases h
  exact ⟨_, rfl⟩

def Setting.items : Setting → List (String × Nat)
  | .set _ items => items
  | _ => []

/-- The entry sets the field that its key names. -/
def Entry.Fits (e : Entry) : Prop :=
  e.setting.field = Field.ofKey e.key

theorem Field.ofKey_switch (f : SwitchField) : Field.ofKey f.key = .switch f := by
  cases f <;> rfl

theorem Field.ofKey_word (f : WordField) : Field.ofKey f.key = .word f := by
  cases f <;> rfl

theorem Field.ofKey_set (f : SetField) : Field.ofKey f.key = .set f := by
  cases f <;> rfl

/-- The key of a field, if it has one of its own. -/
def Field.key? : Field → Option String
  | .switch f => some f.key
  | .word f => some f.key
  | .set f => some f.key
  | .volumes => some "volumes"
  | .other => none

/-- A key names a field only if it is the key of that field. -/
theorem Field.eq_of_key? {key own : String} (h : (Field.ofKey key).key? = some own) :
    key = own := by
  unfold Field.ofKey at h
  split at h <;> first | exact Option.some.inj h | exact nomatch h

theorem Entry.Fits.key_eq {e : Entry} (h : e.Fits) {own : String}
    (hown : e.setting.field.key? = some own) : e.key = own :=
  Field.eq_of_key? (h ▸ hown)

/-- Entries with different keys set different fields, if a field has a key of its own. -/
theorem Entry.Fits.field_ne {e e' : Entry} (h : e.Fits) (h' : e'.Fits) (hne : e.key ≠ e'.key)
    {own : String} (hown : e.setting.field.key? = some own) :
    e'.setting.field ≠ e.setting.field := by
  intro hsame
  have hown' : e'.setting.field.key? = some own := hsame ▸ hown
  exact hne ((h.key_eq hown).trans (h'.key_eq hown').symm)

/-- Only set fields have items. -/
theorem Entry.Fits.exists_key_of_items {e : Entry} (h : e.Fits) {item : String × Nat}
    (hitem : item ∈ e.setting.items) : ∃ f : SetField, e.key = f.key := by
  cases hset : e.setting with
  | set f items => exact ⟨f, h.key_eq (by rw [hset]; rfl)⟩
  | _ =>
      rw [hset] at hitem
      exact absurd hitem List.not_mem_nil

/-! ## What an entry sets -/

namespace Service

def switch (s : Service) : SwitchField → Option Bool
  | .privileged => s.privileged
  | .readOnly => s.readOnly

def word (s : Service) : WordField → Option String
  | .networkMode => s.networkMode
  | .pid => s.pid
  | .ipc => s.ipc

def items (s : Service) : SetField → List String
  | .capAdd => s.capAdd
  | .capDrop => s.capDrop
  | .securityOpt => s.securityOpt

end Service

/-- The lines that an entry notes: that of its key, and those of the items of a set. -/
def Entry.marks (e : Entry) : List (String × Nat) :=
  (e.key, e.line) :: e.setting.items.map fun item => (Service.itemKey e.key item.1, item.2)

namespace Service

theorem foldl_setLine (key : String) (items : List (String × Nat)) (s : Service) :
    items.foldl (fun s (item, line) => s.setLine (itemKey key item) line) s =
      { s with
        lines := (items.map fun item => (itemKey key item.1, item.2)).foldl
          (fun lines mark => put mark.1 mark.2 lines) s.lines } := by
  induction items generalizing s with
  | nil => rfl
  | cons item items ih => exact ih (s.setLine (itemKey key item.1) item.2)

theorem lines_apply (s : Service) (e : Entry) :
    (s.apply e).lines = e.marks.foldl (fun lines mark => put mark.1 mark.2 lines) s.lines := by
  obtain ⟨key, line, setting⟩ := e
  cases setting with
  | switch f value => cases f <;> rfl
  | word f value => cases f <;> rfl
  | set f items =>
      simp only [apply, foldl_setLine]
      cases f <;> rfl
  | volumes mounts => rfl
  | other value => rfl

theorem lookup_lines_apply (s : Service) (e : Entry) (name : String) :
    (s.apply e).lines.lookup name = (e.marks.reverse.lookup name).or (s.lines.lookup name) := by
  rw [lines_apply, lookup_foldl_put]

theorem switch_apply (s : Service) {e : Entry} {f : SwitchField} {value : Option Bool}
    (h : e.setting = .switch f value) : (s.apply e).switch f = value := by
  simp only [apply, h]
  cases f <;> rfl

theorem switch_apply_of_ne (s : Service) {e : Entry} {f : SwitchField}
    (h : e.setting.field ≠ .switch f) : (s.apply e).switch f = s.switch f := by
  obtain ⟨key, line, setting⟩ := e
  cases setting with
  | switch f' value => cases f' <;> cases f <;> first | rfl | exact absurd rfl h
  | word f' value => cases f' <;> cases f <;> rfl
  | set f' items =>
      simp only [apply, foldl_setLine]
      cases f' <;> cases f <;> rfl
  | volumes mounts => cases f <;> rfl
  | other value => cases f <;> rfl

theorem word_apply (s : Service) {e : Entry} {f : WordField} {value : Option String}
    (h : e.setting = .word f value) : (s.apply e).word f = value := by
  simp only [apply, h]
  cases f <;> rfl

theorem word_apply_of_ne (s : Service) {e : Entry} {f : WordField}
    (h : e.setting.field ≠ .word f) : (s.apply e).word f = s.word f := by
  obtain ⟨key, line, setting⟩ := e
  cases setting with
  | switch f' value => cases f' <;> cases f <;> rfl
  | word f' value => cases f' <;> cases f <;> first | rfl | exact absurd rfl h
  | set f' items =>
      simp only [apply, foldl_setLine]
      cases f' <;> cases f <;> rfl
  | volumes mounts => cases f <;> rfl
  | other value => cases f <;> rfl

theorem items_apply (s : Service) {e : Entry} {f : SetField} {items : List (String × Nat)}
    (h : e.setting = .set f items) :
    (s.apply e).items f = sortedSet (items.map (·.1)) := by
  simp only [apply, h]
  cases f <;> rfl

theorem items_apply_of_ne (s : Service) {e : Entry} {f : SetField}
    (h : e.setting.field ≠ .set f) : (s.apply e).items f = s.items f := by
  obtain ⟨key, line, setting⟩ := e
  cases setting with
  | switch f' value => cases f' <;> cases f <;> rfl
  | word f' value => cases f' <;> cases f <;> rfl
  | set f' items =>
      simp only [apply, foldl_setLine]
      cases f' <;> cases f <;> first | rfl | exact absurd rfl h
  | volumes mounts => cases f <;> rfl
  | other value => cases f <;> rfl

theorem volumes_apply (s : Service) {e : Entry} {mounts : List Mount}
    (h : e.setting = .volumes mounts) : (s.apply e).volumes = mounts := by
  simp only [apply, h]

theorem volumes_apply_of_ne (s : Service) {e : Entry} (h : e.setting.field ≠ .volumes) :
    (s.apply e).volumes = s.volumes := by
  obtain ⟨key, line, setting⟩ := e
  cases setting with
  | switch f value => cases f <;> rfl
  | word f value => cases f <;> rfl
  | set f items =>
      simp only [apply, foldl_setLine]
      cases f <;> rfl
  | volumes mounts => exact absurd rfl h
  | other value => rfl

theorem extras_apply (s : Service) {e : Entry} {value : Value} (h : e.setting = .other value) :
    (s.apply e).extras = put e.key value s.extras := by
  simp only [apply, h]
  rfl

theorem extras_apply_of_ne (s : Service) {e : Entry} (h : e.setting.field ≠ .other) :
    (s.apply e).extras = s.extras := by
  obtain ⟨key, line, setting⟩ := e
  cases setting with
  | switch f value => cases f <;> rfl
  | word f value => cases f <;> rfl
  | set f items =>
      simp only [apply, foldl_setLine]
      cases f <;> rfl
  | volumes mounts => rfl
  | other value => exact absurd rfl h

/-- An entry leaves the other values alone, unless it is under their key. -/
theorem lookup_extras_apply_of_ne (s : Service) {e : Entry} {key : String}
    (h : e.setting.field = .other → key ≠ e.key) :
    (s.apply e).extras.lookup key = s.extras.lookup key := by
  by_cases hother : e.setting.field = .other
  · cases hset : e.setting with
    | other value => rw [extras_apply s hset, lookup_put, if_neg (h hother)]
    | _ => exact nomatch hset ▸ hother
  · rw [extras_apply_of_ne s hother]

theorem name_apply (s : Service) (e : Entry) :
    (s.apply e).name = s.name ∧ (s.apply e).line = s.line := by
  obtain ⟨key, line, setting⟩ := e
  cases setting with
  | switch f value => cases f <;> exact ⟨rfl, rfl⟩
  | word f value => cases f <;> exact ⟨rfl, rfl⟩
  | set f items =>
      simp only [apply, foldl_setLine]
      cases f <;> exact ⟨rfl, rfl⟩
  | volumes mounts => exact ⟨rfl, rfl⟩
  | other value => exact ⟨rfl, rfl⟩

/-- The service with some entries and a further one behind them. -/
theorem ofEntries_concat (name : String) (line : Nat) (entries : List Entry) (e : Entry) :
    ofEntries name line (entries ++ [e]) = (ofEntries name line entries).apply e := by
  rw [ofEntries, List.foldl_append]
  rfl

end Service

end ContainerAudit.Compose
