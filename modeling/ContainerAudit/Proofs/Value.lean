import ContainerAudit.Proofs.Steps
import ContainerAudit.Value

/-!
# Values that can be written

A value has a text unless a whole number somewhere in it is too long to be written.  So whether
there is one does not depend on how the parts of a value are put together, only on its numbers
(`Value.exists_shown_iff`), and a value built from writable ones can be written too.
-/

namespace ContainerAudit.Value

/-- The values that a value is put together from. -/
def parts : Value → List Value
  | list items => items
  | tuple items => items
  | set items => items
  | map entries => entries.flatMap fun entry => [entry.1, entry.2]
  | _ => []

theorem parts_map_cons (key value : Value) (rest : List (Value × Value)) :
    (map ((key, value) :: rest)).parts = key :: value :: (map rest).parts :=
  rfl

/-- Putting an entry into a map brings in no other parts. -/
theorem forall_parts_putEntry {good : Value → Prop} {key value : Value}
    {entries : List (Value × Value)} (hkey : good key) (hvalue : good value)
    (h : ∀ part ∈ (map entries).parts, good part) :
    ∀ part ∈ (map (putEntry key value entries)).parts, good part := by
  induction entries with
  | nil => simpa [putEntry, putBy, parts] using ⟨hkey, hvalue⟩
  | cons entry rest ih =>
      obtain ⟨k, v⟩ := entry
      rw [parts_map_cons, List.forall_mem_cons, List.forall_mem_cons] at h
      rw [putEntry, putBy, ← putEntry]
      split
      · rw [parts_map_cons, List.forall_mem_cons, List.forall_mem_cons]
        exact ⟨h.1, hvalue, h.2.2⟩
      · rw [parts_map_cons, List.forall_mem_cons, List.forall_mem_cons]
        exact ⟨h.1, h.2.1, ih h.2.2⟩

/-- No whole number in the value is too long to be written. -/
inductive Short : Value → Prop
  | intro {v : Value} (number : ∀ n, v = int n → n.natAbs < Decimal.tooLong)
      (parts : ∀ part ∈ v.parts, Short part) : Short v

theorem short_iff {v : Value} : v.Short ↔
    (∀ n, v = int n → n.natAbs < Decimal.tooLong) ∧ ∀ part ∈ v.parts, part.Short := by
  constructor
  · rintro ⟨hnumber, hparts⟩
    exact ⟨hnumber, hparts⟩
  · rintro ⟨hnumber, hparts⟩
    exact ⟨hnumber, hparts⟩

/-- What is no number itself is short if its parts are. -/
theorem Short.of_parts {v : Value} (hnumber : ∀ n, v ≠ int n)
    (hparts : ∀ part ∈ v.parts, part.Short) : v.Short :=
  ⟨fun n hn => absurd hn (hnumber n), hparts⟩

theorem Short.of_leaf {v : Value} (hnumber : ∀ n, v ≠ int n) (hparts : v.parts = []) : v.Short := by
  refine .of_parts hnumber fun part hpart => ?_
  rw [hparts] at hpart
  exact absurd hpart List.not_mem_nil

theorem Short.getText? {v entry : Value} {name : String} (h : v.Short)
    (hentry : v.getText? name = some entry) : entry.Short := by
  cases v with
  | map entries =>
      obtain ⟨found, hfound, rfl⟩ := Option.map_eq_some_iff.mp hentry
      refine (short_iff.mp h).2 _ (List.mem_flatMap.mpr ⟨found, ?_, ?_⟩)
      · exact List.mem_of_find?_eq_some hfound
      · exact List.mem_cons_of_mem _ List.mem_cons_self
  | _ => cases hentry

theorem sizeOf_lt_of_mem_parts {v part : Value} (h : part ∈ v.parts) : sizeOf part < sizeOf v := by
  cases v with
  | list items =>
      have hlt : sizeOf part < sizeOf items := List.sizeOf_lt_of_mem h
      exact Nat.lt_trans hlt (by simp)
  | tuple items =>
      have hlt : sizeOf part < sizeOf items := List.sizeOf_lt_of_mem h
      exact Nat.lt_trans hlt (by simp)
  | set items =>
      have hlt : sizeOf part < sizeOf items := List.sizeOf_lt_of_mem h
      exact Nat.lt_trans hlt (by simp)
  | map entries =>
      obtain ⟨⟨key, value⟩, hentry, hpart⟩ := List.mem_flatMap.mp h
      have hlt := List.sizeOf_lt_of_mem hentry
      simp only [map.sizeOf_spec, Prod.mk.sizeOf_spec] at hlt ⊢
      simp only [List.mem_cons, List.not_mem_nil, or_false] at hpart
      rcases hpart with rfl | rfl <;> omega
  | _ => exact absurd h List.not_mem_nil

/-! ## Texts -/

theorem asText?_eq_some_iff {v : Value} {s : String} :
    v.asText? = some s ↔ v = text s ∨ ∃ level : Severity, v = severity level ∧ level.name = s := by
  cases v <;> simp [asText?]

theorem exists_wholeText_iff {n : Int} :
    (∃ text, wholeText n = .ok text) ↔ n.natAbs < Decimal.tooLong := by
  unfold wholeText
  split <;> simp_all

theorem wholeText_of_lt {n : Int} (h : n.natAbs < 100) : wholeText n = .ok (toString n) := by
  have hpower : ∀ k, 2 ≤ k → 100 ≤ Decimal.tenTo k :=
    fun k hk => Nat.pow_le_pow_right (by decide : 0 < 10) hk
  exact if_pos (Nat.lt_of_lt_of_le h (hpower Decimal.digitLimit (by decide)))

theorem wholeText_tooLong : wholeText Decimal.tooLong = .error .longNumber := by
  refine if_neg ?_
  rw [Int.natAbs_natCast]
  exact Nat.lt_irrefl _

theorem plain_int (n : Int) : (int n).plain = wholeText n :=
  rfl

theorem exists_shownItems_iff {items : List Value} :
    (∃ text, shownItems items = .ok text) ↔ ∀ item ∈ items, ∃ text, item.shown = .ok text := by
  induction items with
  | nil => simp [shownItems]
  | cons item rest ih =>
      rw [List.forall_mem_cons, ← ih]
      cases rest with
      | nil => simp [shownItems]
      | cons next rest =>
          simp only [shownItems, bind_pure_comp, exists_bind_iff, exists_fmap_iff,
            exists_and_right]

theorem exists_shownEntries_iff {entries : List (Value × Value)} :
    (∃ text, shownEntries entries = .ok text) ↔
      ∀ part ∈ (map entries).parts, ∃ text, part.shown = .ok text := by
  induction entries with
  | nil => simp [shownEntries, parts]
  | cons entry rest ih =>
      obtain ⟨key, value⟩ := entry
      rw [parts_map_cons, List.forall_mem_cons, List.forall_mem_cons, ← ih]
      cases rest with
      | nil => simp [shownEntries, exists_bind_iff, exists_fmap_iff]
      | cons next rest =>
          simp only [shownEntries, bind_pure_comp, exists_bind_iff, exists_fmap_iff,
            exists_and_right]

/-- A value can be shown if its parts can, and if it is not itself a number that is too long. -/
theorem exists_shown_iff_parts {v : Value} : (∃ text, v.shown = .ok text) ↔
    (∀ n, v = int n → n.natAbs < Decimal.tooLong) ∧
      ∀ part ∈ v.parts, ∃ text, part.shown = .ok text := by
  cases v with
  | int n => simp [shown, parts, exists_wholeText_iff]
  | bool b => cases b <;> simp [shown, parts]
  | list items => simp [shown, parts, exists_fmap_iff, exists_shownItems_iff]
  | tuple items =>
      rcases items with _ | ⟨item, _ | ⟨next, rest⟩⟩ <;>
        simp [shown, parts, exists_fmap_iff, exists_shownItems_iff]
  | set items => cases items <;> simp [shown, parts, exists_fmap_iff, exists_shownItems_iff]
  | map entries => simp [shown, exists_fmap_iff, exists_shownEntries_iff]
  | _ => simp [shown, parts]

/-- Exactly the short values can be shown. -/
theorem exists_shown_iff {v : Value} : (∃ text, v.shown = .ok text) ↔ v.Short := by
  induction h : sizeOf v using Nat.strongRecOn generalizing v with
  | ind size ih =>
      subst h
      rw [exists_shown_iff_parts, short_iff]
      refine and_congr_right fun _ => forall₂_congr fun part hpart => ?_
      exact ih _ (sizeOf_lt_of_mem_parts hpart) rfl

theorem exists_plain_iff {v : Value} : (∃ text, v.plain = .ok text) ↔ v.Short := by
  cases v with
  | text s => exact iff_of_true ⟨s, rfl⟩ (.of_leaf (by simp) rfl)
  | date d => exact iff_of_true ⟨_, rfl⟩ (.of_leaf (by simp) rfl)
  | moment m => exact iff_of_true ⟨_, rfl⟩ (.of_leaf (by simp) rfl)
  | severity s => exact iff_of_true ⟨_, rfl⟩ (.of_leaf (by simp) rfl)
  | _ => exact exists_shown_iff

end ContainerAudit.Value
