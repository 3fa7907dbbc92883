import ContainerAudit.Config
import ContainerAudit.Proofs.Entries
import ContainerAudit.Proofs.Steps
import ContainerAudit.Proofs.Value

/-!
# Which values are configurations

A value is read as a configuration exactly if it is a map of known settings in which every setting
that is there has the right form (`Valid`), and if the ids, tables and items in it can be written
(`Writable`).  The configuration then holds what the settings say, and the standard values where
nothing is said (`Describes`).  A value of the wrong form is refused with a message, but one that
only cannot be written is refused without (`ofValue_accepts_valid`).

The five settings are read in one way, by `setting`.  So each of the parts is a fact about
`setting`, and takes from a reader only what it accepts, what it gives, and which errors it avoids.
-/

namespace ContainerAudit

/-- The items of a value that has them in a row: a list or a tuple. -/
inductive Value.HasItems : Value → List Value → Prop
  | list (items : List Value) : HasItems (.list items) items
  | tuple (items : List Value) : HasItems (.tuple items) items

theorem Value.HasItems.unique {v : Value} {items items' : List Value} (h : v.HasItems items)
    (h' : v.HasItems items') : items = items' := by
  cases h <;> cases h' <;> rfl

/-! ## Names -/

/-- The severities are texts too, but they have other names. -/
theorem Value.eq_text_iff_of_no_severity {v : Value} {name : String}
    (h : ∀ severity : Severity, severity.name ≠ name) : v.asText? = some name ↔ v = .text name := by
  rw [Value.asText?_eq_some_iff, or_iff_left]
  rintro ⟨severity, -, hname⟩
  exact h severity hname

theorem Table.mem_all (table : Table) : table ∈ Table.all := by
  cases table <;> decide

theorem Table.ofName?_eq_some_iff {name : String} {table : Table} :
    Table.ofName? name = some table ↔ name = table.name :=
  find?_eq_some_iff_of_all (by decide) Table.mem_all

theorem Table.asText?_eq_name_iff {v : Value} {table : Table} :
    v.asText? = some table.name ↔ v = .text table.name :=
  Value.eq_text_iff_of_no_severity fun severity => by
    cases severity <;> cases table <;> decide

theorem Table.name_injective : Function.Injective Table.name := by
  intro a b h
  have ha : Table.ofName? a.name = some a := Table.ofName?_eq_some_iff.mpr rfl
  have hb : Table.ofName? a.name = some b := Table.ofName?_eq_some_iff.mpr h
  exact Option.some.inj (ha.symm.trans hb)

namespace Patterns

/-! ## Pattern tables -/

/-- The last entry under a name.  In a map, which has no key twice, it is the only one. -/
def LastUnder (tables : List (Value × Value)) (name : String) (value : Value) : Prop :=
  ∃ before after, tables = before ++ (.text name, value) :: after ∧
    ∀ entry ∈ after, entry.1 ≠ .text name

/-- The entry gives the texts of a table. -/
def IsTable (entry : Value × Value) : Prop :=
  (∃ table : Table, entry.1 = .text table.name) ∧ ∃ items, entry.2.HasItems items

theorem items?_eq_some_iff {v : Value} {items : List Value} :
    items? v = some items ↔ v.HasItems items := by
  constructor
  · intro h
    cases v with
    | list items' => exact Option.some.inj h ▸ .list items'
    | tuple items' => exact Option.some.inj h ▸ .tuple items'
    | _ => cases h
  · rintro (_ | _) <;> rfl

theorem table?_eq_some_iff {key : Value} {table : Table} :
    key.asText?.bind Table.ofName? = some table ↔ key = .text table.name := by
  rw [Option.bind_eq_some_iff, ← Table.asText?_eq_name_iff]
  simp [Table.ofName?_eq_some_iff]

/-- An entry of the right form replaces its table, if its items can be written. -/
theorem merge_cons {p : Patterns} {entry : Value × Value} {tables : List (Value × Value)}
    {table : Table} {items : List Value} (hname : entry.1 = .text table.name)
    (hitems : entry.2.HasItems items) :
    p.merge (entry :: tables) = (items.mapM Value.plain).mapError .unwritten >>= fun texts =>
      (p.replace table texts).merge tables := by
  simp only [merge, table?_eq_some_iff.mpr hname, items?_eq_some_iff.mpr hitems]
  cases items.mapM Value.plain <;> rfl

theorem merge_cons_eq_ok_iff {p q : Patterns} {entry : Value × Value}
    {tables : List (Value × Value)} :
    p.merge (entry :: tables) = .ok q ↔
      ∃ table items texts, entry.1 = .text table.name ∧ entry.2.HasItems items ∧
        items.mapM Value.plain = .ok texts ∧ (p.replace table texts).merge tables = .ok q := by
  constructor
  · intro h
    cases htable : entry.1.asText?.bind Table.ofName? with
    | none => simp [merge, htable] at h
    | some table =>
        cases hitems : items? entry.2 with
        | none => simp [merge, htable, hitems] at h
        | some items =>
            have hname := table?_eq_some_iff.mp htable
            have hhas := items?_eq_some_iff.mp hitems
            rw [merge_cons hname hhas] at h
            cases htexts : items.mapM Value.plain with
            | ok texts =>
                rw [htexts] at h
                exact ⟨table, items, texts, hname, hhas, htexts, h⟩
            | error e =>
                rw [htexts] at h
                cases h
  · rintro ⟨table, items, texts, hname, hitems, htexts, h⟩
    rw [merge_cons hname hitems, htexts]
    exact h

/-- The items of a table can be written. -/
def IsWritable (value : Value) : Prop :=
  ∀ items, value.HasItems items → ∀ item ∈ items, item.Short

theorem isWritable_iff {value : Value} {items : List Value} (h : value.HasItems items) :
    IsWritable value ↔ ∃ texts, items.mapM Value.plain = .ok texts := by
  simp only [exists_mapM_iff, Value.exists_plain_iff]
  exact ⟨fun hwritable => hwritable items h, fun hshort items' h' => h.unique h' ▸ hshort⟩

theorem exists_merge_iff {p : Patterns} {tables : List (Value × Value)} :
    (∃ q, p.merge tables = .ok q) ↔ ∀ entry ∈ tables, IsTable entry ∧ IsWritable entry.2 := by
  induction tables generalizing p with
  | nil => exact ⟨fun _ _ h => absurd h List.not_mem_nil, fun _ => ⟨p, rfl⟩⟩
  | cons entry tables ih =>
      simp only [merge_cons_eq_ok_iff, List.forall_mem_cons]
      constructor
      · rintro ⟨q, table, items, texts, hname, hitems, htexts, hrest⟩
        exact ⟨⟨⟨⟨table, hname⟩, items, hitems⟩, (isWritable_iff hitems).mpr ⟨texts, htexts⟩⟩,
          ih.mp ⟨q, hrest⟩⟩
      · rintro ⟨⟨⟨⟨table, hname⟩, items, hitems⟩, hwritable⟩, hrest⟩
        obtain ⟨texts, htexts⟩ := (isWritable_iff hitems).mp hwritable
        obtain ⟨q, hq⟩ := ih.mpr hrest
        exact ⟨q, table, items, texts, hname, hitems, htexts, hq⟩

/-- Tables of the right form fail only for want of a text. -/
theorem merge_eq_unwritten {p : Patterns} {tables : List (Value × Value)} {e : Error}
    (h : ∀ entry ∈ tables, IsTable entry) (he : p.merge tables = .error e) :
    ∃ e', e = .unwritten e' := by
  induction tables generalizing p with
  | nil => cases he
  | cons entry tables ih =>
      obtain ⟨⟨⟨table, hname⟩, items, hitems⟩, htables⟩ := List.forall_mem_cons.mp h
      rw [merge_cons hname hitems] at he
      cases htexts : items.mapM Value.plain with
      | ok texts =>
          rw [htexts] at he
          exact ih htables he
      | error e' =>
          rw [htexts] at he
          cases he
          exact ⟨e', rfl⟩

/-- Entries that can be written fail only for their form. -/
theorem merge_error_of_writable {p : Patterns} {tables : List (Value × Value)} {e : Error}
    (h : ∀ entry ∈ tables, entry.1.Short ∧ IsWritable entry.2) (he : p.merge tables = .error e) :
    (∃ name, e = .unknownTable name ∧ name.Short) ∨ ∃ table, e = .notAList table := by
  induction tables generalizing p with
  | nil => cases he
  | cons entry tables ih =>
      obtain ⟨⟨hshort, hwritable⟩, htables⟩ := List.forall_mem_cons.mp h
      cases htable : entry.1.asText?.bind Table.ofName? with
      | none =>
          simp only [merge, htable] at he
          exact .inl ⟨entry.1, (Except.error.inj he).symm, hshort⟩
      | some table =>
          cases hitems : items? entry.2 with
          | none =>
              simp only [merge, htable, hitems] at he
              exact .inr ⟨table, (Except.error.inj he).symm⟩
          | some items =>
              have hhas := items?_eq_some_iff.mp hitems
              obtain ⟨texts, htexts⟩ := (isWritable_iff hhas).mp hwritable
              rw [merge_cons (table?_eq_some_iff.mp htable) hhas, htexts] at he
              exact ih htables he

/-- A table that is not named stays as it is. -/
theorem merge_keeps {p q : Patterns} {tables : List (Value × Value)} (h : p.merge tables = .ok q)
    {table : Table} (hother : ∀ entry ∈ tables, entry.1 ≠ .text table.name) :
    q.entries table = p.entries table := by
  induction tables generalizing p with
  | nil =>
      cases h
      rfl
  | cons entry tables ih =>
      obtain ⟨hentry, htables⟩ := List.forall_mem_cons.mp hother
      obtain ⟨named, _, _, hname, -, -, hrest⟩ := merge_cons_eq_ok_iff.mp h
      have hne : table ≠ named := by
        rintro rfl
        exact hentry hname
      rw [ih hrest htables]
      exact if_neg hne

/-- A table holds the texts of the last entry under its name. -/
theorem merge_replaces {p q : Patterns} {tables : List (Value × Value)} (h : p.merge tables = .ok q)
    {table : Table} {value : Value} (hlast : LastUnder tables table.name value)
    {items : List Value} (hitems : value.HasItems items) :
    items.mapM Value.plain = .ok (q.entries table) := by
  obtain ⟨before, after, rfl, hafter⟩ := hlast
  induction before generalizing p with
  | nil =>
      obtain ⟨named, items', texts, hname, hitems', htexts, hrest⟩ := merge_cons_eq_ok_iff.mp h
      obtain rfl : table = named := Table.name_injective (Value.text.inj hname)
      rw [merge_keeps hrest hafter, hitems.unique hitems', htexts]
      exact congrArg Except.ok (if_pos rfl).symm
  | cons entry before ih =>
      obtain ⟨_, _, _, _, _, _, hrest⟩ := merge_cons_eq_ok_iff.mp h
      exact ih hrest

end Patterns

namespace Config

open Patterns (IsTable IsWritable LastUnder)

/-! ## What a configuration has to be, and what it then says -/

/-- The value has the entry under the key. -/
def Sets (v : Value) (key : Key) (entry : Value) : Prop :=
  v.getText? key.name = some entry

/-- The entry is the severity or names it, in any case and with blanks around it. -/
inductive Names : Value → Severity → Prop
  | itself (severity : Severity) : Names (.severity severity) severity
  | name {entry : Value} {text : String} {severity : Severity} : entry.plain = .ok text →
      Text.mapChars (fun s => Text.upper (Text.trim s)) text = severity.name → Names entry severity

def IsPositive (entry : Value) : Prop :=
  ∃ n : Int, entry = .int n ∧ 1 ≤ n

/-- The value is a map of known settings, each of the right form where it is there. -/
structure Valid (v : Value) : Prop where
  known : ∃ entries, v = .map entries ∧ ∀ entry ∈ entries, ∃ key : Key, entry.1 = .text key.name
  suppressed : ∀ entry, Sets v .suppressed entry →
    entry.isMissing = true ∨ ∃ items, entry = .list items
  failOn : ∀ entry, Sets v .failOn entry → ∃ severity, Names entry severity
  recommendations : ∀ entry, Sets v .recommendations entry → IsPositive entry
  workers : ∀ entry, Sets v .workers entry → IsPositive entry
  patterns : ∀ entry, Sets v .patterns entry →
    entry.isMissing = true ∨ ∃ tables, entry = .map tables ∧ ∀ table ∈ tables, IsTable table

/-- All that has to be written can be: the ids to suppress, the names of tables and their items. -/
structure Writable (v : Value) : Prop where
  suppressed : ∀ items, Sets v .suppressed (.list items) → ∀ item ∈ items, item.Short
  patterns : ∀ tables, Sets v .patterns (.map tables) →
    ∀ entry ∈ tables, entry.1.Short ∧ IsWritable entry.2

/-- The setting under a key is as its entry gives it, and the standard one if there is none. -/
structure Follows {α : Type} (v : Value) (key : Key) (standard : α) (gives : Value → α → Prop)
    (a : α) : Prop where
  given : ∀ entry, Sets v key entry → gives entry a
  absent : (∀ entry, ¬Sets v key entry) → a = standard

/-- The ids are those of the items, without blanks around them and in capitals, each once. -/
def GivesIds (entry : Value) (ids : List String) : Prop :=
  ids.Nodup ∧ ∀ id, id ∈ ids ↔ ∃ items, entry = .list items ∧
    ∃ item ∈ items, ∃ text, item.plain = .ok text ∧ id = ruleId text

/-- The tables that the entry names hold the texts of their items in order, and all others are the
standard ones. -/
structure GivesTables (entry : Value) (p : Patterns) : Prop where
  replaced : ∀ tables table value items, entry = .map tables → LastUnder tables table.name value →
    value.HasItems items → items.mapM Value.plain = .ok (p.entries table)
  kept : ∀ table, (∀ tables, entry = .map tables → ∀ t ∈ tables, t.1 ≠ .text table.name) →
    p.entries table = table.standard

/-- The configuration is what the settings in the value say. -/
structure Describes (v : Value) (c : Config) : Prop where
  suppressed : Follows v .suppressed ({} : Config).suppressed GivesIds c.suppressed
  failOn : Follows v .failOn ({} : Config).failOn Names c.failOn
  recommendations :
    Follows v .recommendations ({} : Config).recommendations (fun entry n => entry = .int n)
      c.recommendations
  workers : Follows v .workers ({} : Config).workers (fun entry n => entry = .int n) c.workers
  patterns : Follows v .patterns ({} : Config).patterns GivesTables c.patterns

/-- If the value is a map, its keys are texts. -/
def HasTextKeys (v : Value) : Prop :=
  ∀ entries, v = .map entries → ∀ entry ∈ entries, ∃ s, entry.1.asText? = some s

/-- There is no message for the error. -/
def Error.IsSilent (e : Error) : Prop :=
  ∀ source, e.text? source = none

theorem Error.not_isSilent (source : String) {e : Error} {text : String}
    (h : e.text? source = some text) : ¬e.IsSilent := by
  intro hsilent
  rw [hsilent source] at h
  cases h

/-- Whether there is a message does not depend on the source. -/
theorem Error.exists_text {e : Error} (h : ¬e.IsSilent) (source : String) :
    ∃ text, e.text? source = some text := by
  have hsilent : e.text? source = none → e.IsSilent := by
    intro hnone
    cases e with
    | unnamedKey => exact fun _ => rfl
    | unwrittenId e => exact fun _ => rfl
    | badPatterns e =>
        cases e with
        | unknownTable name =>
            intro source'
            rw [text?, Option.map_eq_none_iff] at hnone ⊢
            exact hnone
        | notAList table => cases hnone
        | unwritten e => exact fun _ => rfl
    | _ => cases hnone
  exact Option.ne_none_iff_exists'.mp fun hnone => h (hsilent hnone)

/-! ## Keys -/

theorem Key.mem_all (key : Key) : key ∈ Key.all := by
  cases key <;> decide

theorem Key.asText?_eq_name_iff {v : Value} {key : Key} :
    v.asText? = some key.name ↔ v = .text key.name :=
  Value.eq_text_iff_of_no_severity fun severity => by
    cases severity <;> cases key <;> decide

theorem isKnown_iff {v : Value} : isKnown v = true ↔ ∃ key : Key, v = .text key.name := by
  have hname (name : String) (key : Key) : Key.ofName? name = some key ↔ name = key.name :=
    find?_eq_some_iff_of_all (by decide) Key.mem_all
  simp [isKnown, Option.isSome_iff_exists, Option.bind_eq_some_iff, hname,
    ← Key.asText?_eq_name_iff]

theorem exists_checkKeys_iff {entries : List (Value × Value)} :
    (∃ u, checkKeys entries = .ok u) ↔
      ∀ entry ∈ entries, ∃ key : Key, entry.1 = .text key.name := by
  have hnone : ((entries.map (·.1)).filter fun key => !isKnown key).isEmpty = true ↔
      ∀ entry ∈ entries, isKnown entry.1 = true := by
    rw [List.isEmpty_iff, List.filter_eq_nil_iff, List.forall_mem_map]
    simp
  simp only [← isKnown_iff, ← hnone, checkKeys]
  split
  · next hempty => exact iff_of_true ⟨(), rfl⟩ hempty
  · next hempty =>
      refine iff_of_false ?_ hempty
      rintro ⟨_, h⟩
      split at h <;> cases h

/-- Unknown keys that are texts can be named. -/
theorem checkKeys_avoids {entries : List (Value × Value)}
    (h : ∀ entry ∈ entries, ∃ s, entry.1.asText? = some s) :
    Avoids Error.IsSilent (fun _ => True) (checkKeys entries) := by
  have hnamed : ((entries.map (·.1)).filter fun key => !isKnown key).all
      (fun key => key.asText?.isSome) = true := by
    rw [List.all_eq_true]
    intro key hkey
    obtain ⟨entry, hentry, rfl⟩ := List.mem_map.mp (List.mem_of_mem_filter hkey)
    obtain ⟨s, hs⟩ := h entry hentry
    rw [hs]
    rfl
  simp only [checkKeys, hnamed]
  split
  · exact trivial
  · exact Error.not_isSilent "" rfl

/-! ## Readers -/

/-- An empty list counts as missing, but is read like any other. -/
theorem readSuppressed_list (items : List Value) :
    readSuppressed (.list items) = ((items.mapM Value.plain).map fun ids =>
      sortedSet (ids.map ruleId)).mapError .unwrittenId := by
  cases items with
  | nil =>
      rw [List.mapM_nil]
      have hnone : sortedSet (([] : List String).map ruleId) = [] :=
        List.eq_nil_iff_forall_not_mem.mpr fun id => by simp [mem_sortedSet]
      exact congrArg Except.ok hnone.symm
  | cons item items =>
      simp only [readSuppressed, Value.isMissing]
      cases (item :: items).mapM Value.plain <;> rfl

theorem readSuppressed_of_not_list {v : Value} (h : ∀ items, v ≠ .list items) :
    readSuppressed v = if v.isMissing then .ok [] else .error .suppressedNotAList := by
  cases v with
  | list items => exact absurd rfl (h items)
  | _ => rfl

theorem exists_readSuppressed_iff {v : Value} :
    (∃ ids, readSuppressed v = .ok ids) ↔
      (v.isMissing = true ∨ ∃ items, v = .list items) ∧
        ∀ items, v = .list items → ∀ item ∈ items, item.Short := by
  by_cases hlist : ∃ items, v = .list items
  · obtain ⟨items, rfl⟩ := hlist
    have hread : (∃ ids, readSuppressed (.list items) = .ok ids) ↔
        ∃ texts, items.mapM Value.plain = .ok texts := by
      rw [readSuppressed_list]
      cases items.mapM Value.plain <;> simp [Except.map, Except.mapError]
    simp [hread, exists_mapM_iff, Value.exists_plain_iff]
  · have hne : ∀ items, v ≠ .list items := fun items h => hlist ⟨items, h⟩
    rw [readSuppressed_of_not_list hne]
    cases v.isMissing <;> simp [hne]

theorem readSuppressed_avoids {v : Value}
    (h : ∀ items, v = .list items → ∀ item ∈ items, item.Short) :
    Avoids Error.IsSilent (GivesIds v) (readSuppressed v) := by
  by_cases hlist : ∃ items, v = .list items
  · obtain ⟨items, rfl⟩ := hlist
    rw [readSuppressed_list]
    have hshort := h items rfl
    simp only [← Value.exists_plain_iff] at hshort
    obtain ⟨texts, htexts⟩ := exists_mapM_iff.mpr hshort
    rw [htexts]
    refine ⟨(List.mergeSort_perm _ _).nodup_iff.mpr (nodup_distinctBy _), fun id => ?_⟩
    simp only [mem_sortedSet, List.mem_map, mem_of_mapM_eq_ok htexts, Value.list.injEq,
      exists_eq_left']
    constructor
    · rintro ⟨text, ⟨item, hitem, htext⟩, rfl⟩
      exact ⟨item, hitem, text, htext, rfl⟩
    · rintro ⟨item, hitem, text, htext, rfl⟩
      exact ⟨text, ⟨item, hitem, htext⟩, rfl⟩
  · have hne : ∀ items, v ≠ .list items := fun items h => hlist ⟨items, h⟩
    rw [readSuppressed_of_not_list hne]
    split
    · refine ⟨List.nodup_nil, fun id => ⟨fun h => absurd h List.not_mem_nil, ?_⟩⟩
      rintro ⟨items, hitems, -⟩
      exact absurd hitems (hne items)
    · exact Error.not_isSilent "" rfl

/-- A list fails only for want of a text. -/
theorem readSuppressed_of_form {v : Value} (h : v.isMissing = true ∨ ∃ items, v = .list items) :
    Avoids (¬·.IsSilent) (fun _ => True) (readSuppressed v) := by
  rcases h with hmissing | ⟨items, rfl⟩
  · unfold readSuppressed
    rw [if_pos hmissing]
    exact trivial
  · rw [readSuppressed_list]
    cases items.mapM Value.plain with
    | ok texts => exact trivial
    | error e => exact not_not_intro fun _ => rfl

theorem ofValue?_eq_some_iff {v : Value} {severity : Severity} :
    Severity.ofValue? v = some severity ↔ Names v severity := by
  have hall : ∀ severity, severity ∈ Severity.all := by
    intro severity
    cases severity <;> decide
  have hname (name : String) : Severity.ofName? name = some severity ↔ name = severity.name :=
    find?_eq_some_iff_of_all (by decide) hall
  constructor
  · intro h
    unfold Severity.ofValue? at h
    split at h
    · cases h
      exact .itself severity
    · split at h
      · next htext => exact .name htext ((hname _).mp h)
      · cases h
  · rintro (_ | ⟨htext, hsame⟩)
    · rfl
    · unfold Severity.ofValue?
      split
      · next level =>
          -- with the name of its kind in front, a severity does not name one
          cases htext
          exact absurd hsame (by cases level <;> cases severity <;> decide)
      · simp only [htext]
        exact (hname _).mpr hsame

theorem exists_readSeverity_iff {v : Value} :
    (∃ severity, readSeverity v = .ok severity) ↔ ∃ severity, Names v severity := by
  simp only [← ofValue?_eq_some_iff, readSeverity]
  cases Severity.ofValue? v <;> simp

theorem readSeverity_avoids (v : Value) :
    Avoids Error.IsSilent (Names v) (readSeverity v) := by
  unfold readSeverity
  cases hseverity : Severity.ofValue? v with
  | some severity => exact ofValue?_eq_some_iff.mp hseverity
  | none => exact Error.not_isSilent "" rfl

theorem exists_readPositive_iff {key : Key} {v : Value} :
    (∃ n, readPositive key v = .ok n) ↔ IsPositive v := by
  unfold IsPositive
  cases v with
  | int n => by_cases hn : 1 ≤ n <;> simp [readPositive, hn]
  | _ => simp [readPositive]

theorem readPositive_avoids (key : Key) (v : Value) :
    Avoids Error.IsSilent (fun n => v = .int n) (readPositive key v) := by
  cases v with
  | int n =>
      by_cases hn : 1 ≤ n
      · simp only [readPositive, if_pos hn]
        exact rfl
      · simp only [readPositive, if_neg hn]
        exact Error.not_isSilent "" rfl
  | _ => exact Error.not_isSilent "" rfl

theorem readPatterns_map (tables : List (Value × Value)) :
    readPatterns (.map tables) = (Patterns.standard.merge tables).mapError .badPatterns := by
  cases tables <;> rfl

theorem readPatterns_of_not_map {v : Value} (h : ∀ tables, v ≠ .map tables) :
    readPatterns v = if v.isMissing then .ok .standard else .error .patternsNotAMap := by
  cases v with
  | map tables => exact absurd rfl (h tables)
  | _ => rfl

theorem exists_readPatterns_iff {v : Value} :
    (∃ p, readPatterns v = .ok p) ↔
      (v.isMissing = true ∨ ∃ tables, v = .map tables ∧ ∀ entry ∈ tables, IsTable entry) ∧
        ∀ tables, v = .map tables → ∀ entry ∈ tables, IsWritable entry.2 := by
  by_cases hmap : ∃ tables, v = .map tables
  · obtain ⟨tables, rfl⟩ := hmap
    have hmissing : (Value.map tables).isMissing = true → ∀ entry ∈ tables, IsTable entry := by
      intro h entry hentry
      rw [List.isEmpty_iff.mp h] at hentry
      exact absurd hentry List.not_mem_nil
    have hread : (∃ p, readPatterns (.map tables) = .ok p) ↔
        ∃ p, Patterns.standard.merge tables = .ok p := by
      rw [readPatterns_map]
      cases Patterns.standard.merge tables <;> simp [Except.mapError]
    simp only [hread, Patterns.exists_merge_iff, forall₂_and, Value.map.injEq, exists_eq_left',
      forall_eq', or_iff_right_of_imp hmissing]
  · have hne : ∀ tables, v ≠ .map tables := fun tables h => hmap ⟨tables, h⟩
    rw [readPatterns_of_not_map hne]
    cases v.isMissing <;> simp [hne]

theorem readPatterns_avoids {v : Value}
    (h : ∀ tables, v = .map tables → ∀ entry ∈ tables, entry.1.Short ∧ IsWritable entry.2) :
    Avoids Error.IsSilent (GivesTables v) (readPatterns v) := by
  by_cases hmap : ∃ tables, v = .map tables
  · obtain ⟨tables, rfl⟩ := hmap
    rw [readPatterns_map]
    cases hmerge : Patterns.standard.merge tables with
    | ok p =>
        constructor
        · rintro _ table value items ⟨⟩ hlast hitems
          exact Patterns.merge_replaces hmerge hlast hitems
        · intro table hother
          exact Patterns.merge_keeps hmerge (hother tables rfl)
    | error e =>
        rcases Patterns.merge_error_of_writable (h tables rfl) hmerge with
          ⟨name, rfl, hname⟩ | ⟨table, rfl⟩
        · obtain ⟨text, htext⟩ := Value.exists_shown_iff.mpr hname
          exact Error.not_isSilent "" (by rw [Error.text?, htext]; rfl)
        · exact Error.not_isSilent "" rfl
  · have hne : ∀ tables, v ≠ .map tables := fun tables h => hmap ⟨tables, h⟩
    rw [readPatterns_of_not_map hne]
    split
    · exact ⟨fun tables _ _ _ hmap => absurd hmap (hne tables), fun _ _ => rfl⟩
    · exact Error.not_isSilent "" rfl

theorem readPatterns_of_form {v : Value}
    (h : v.isMissing = true ∨ ∃ tables, v = .map tables ∧ ∀ entry ∈ tables, IsTable entry) :
    Avoids (¬·.IsSilent) (fun _ => True) (readPatterns v) := by
  rcases h with hmissing | ⟨tables, rfl, htables⟩
  · unfold readPatterns
    rw [if_pos hmissing]
    exact trivial
  · rw [readPatterns_map]
    cases hmerge : Patterns.standard.merge tables with
    | ok p => exact trivial
    | error e =>
        obtain ⟨e', rfl⟩ := Patterns.merge_eq_unwritten htables hmerge
        exact not_not_intro fun _ => rfl

/-! ## Settings -/

section Setting

variable {α : Type} {v : Value} {key : Key} {standard : α} {read : Value → Except Error α}

theorem exists_setting_iff :
    (∃ a, setting v key standard read = .ok a) ↔
      ∀ entry, Sets v key entry → ∃ a, read entry = .ok a := by
  unfold setting Sets
  cases v.getText? key.name <;> simp

theorem setting_avoids {bad : Error → Prop} {gives : Value → α → Prop}
    (h : ∀ entry, Sets v key entry → Avoids bad (gives entry) (read entry)) :
    Avoids bad (Follows v key standard gives) (setting v key standard read) := by
  unfold setting
  cases hentry : v.getText? key.name with
  | none => exact ⟨fun entry h => by simp [Sets, hentry] at h, fun _ => rfl⟩
  | some entry =>
      refine (h entry hentry).mono fun a ha => ⟨fun entry' h' => ?_, fun habsent => ?_⟩
      · rwa [← Option.some.inj (hentry.symm.trans h')]
      · exact absurd hentry (habsent entry)

end Setting

/-! ## Configurations -/

theorem short_of_isTable {entry : Value × Value} (h : IsTable entry) : entry.1.Short := by
  obtain ⟨⟨table, hname⟩, -⟩ := h
  rw [hname]
  exact .of_leaf (by simp) rfl

theorem exists_ofValue_iff {v : Value} : (∃ c, ofValue v = .ok c) ↔ Valid v ∧ Writable v := by
  cases v with
  | map entries =>
      -- no step depends on what another one gives, so each has to succeed by itself
      simp only [ofValue, exists_bind_iff, pure, Except.pure, Except.ok.injEq, exists_eq',
        and_true, exists_and_right, exists_checkKeys_iff, exists_setting_iff,
        exists_readSuppressed_iff, exists_readSeverity_iff, exists_readPositive_iff,
        exists_readPatterns_iff]
      constructor
      · rintro ⟨hknown, hsuppressed, hfailOn, hrecommendations, hworkers, hpatterns⟩
        refine ⟨⟨⟨entries, rfl, hknown⟩, fun entry h => (hsuppressed entry h).1, hfailOn,
          hrecommendations, hworkers, fun entry h => (hpatterns entry h).1⟩,
          fun items h => (hsuppressed _ h).2 items rfl, fun tables h entry hentry => ?_⟩
        obtain ⟨hform, hitems⟩ := hpatterns _ h
        refine ⟨?_, hitems tables rfl entry hentry⟩
        rcases hform with hmissing | ⟨_, ⟨⟩, htables⟩
        · rw [List.isEmpty_iff.mp hmissing] at hentry
          exact absurd hentry List.not_mem_nil
        · exact short_of_isTable (htables entry hentry)
      · rintro ⟨hvalid, hwritable⟩
        obtain ⟨_, ⟨⟩, hknown⟩ := hvalid.known
        refine ⟨hknown, fun entry h => ⟨hvalid.suppressed entry h, ?_⟩, hvalid.failOn,
          hvalid.recommendations, hvalid.workers, fun entry h => ⟨hvalid.patterns entry h, ?_⟩⟩
        · rintro items rfl
          exact hwritable.suppressed items h
        · rintro tables rfl entry hentry
          exact (hwritable.patterns tables h entry hentry).2
  | _ =>
      refine iff_of_false ?_ fun h => ?_
      · rintro ⟨c, hc⟩
        cases hc
      · obtain ⟨_, hmap, _⟩ := h.1.known
        cases hmap

theorem ofValue_avoids {v : Value} (hkeys : HasTextKeys v) (hwritable : Writable v) :
    Avoids Error.IsSilent (Describes v) (ofValue v) := by
  cases v with
  | map entries =>
      refine (checkKeys_avoids (hkeys entries rfl)).bind fun _ _ => ?_
      refine (setting_avoids fun entry hentry => readSuppressed_avoids ?_).bind
        fun suppressed hsuppressed => ?_
      · rintro items rfl
        exact hwritable.suppressed items hentry
      refine (setting_avoids fun entry _ => readSeverity_avoids entry).bind
        fun failOn hfailOn => ?_
      refine (setting_avoids fun entry _ => readPositive_avoids _ entry).bind
        fun recommendations hrecommendations => ?_
      refine (setting_avoids fun entry _ => readPositive_avoids _ entry).bind
        fun workers hworkers => ?_
      refine (setting_avoids fun entry hentry => readPatterns_avoids ?_).bind
        fun patterns hpatterns => ?_
      · rintro tables rfl
        exact hwritable.patterns tables hentry
      exact ⟨hsuppressed, hfailOn, hrecommendations, hworkers, hpatterns⟩
  | _ => exact Error.not_isSilent "" rfl

theorem Valid.hasTextKeys {v : Value} (h : Valid v) : HasTextKeys v := by
  intro entries hmap entry hentry
  obtain ⟨_, hmap', hknown⟩ := h.known
  cases hmap.symm.trans hmap'
  obtain ⟨key, hkey⟩ := hknown entry hentry
  exact ⟨key.name, hkey ▸ rfl⟩

/-- A value of the right form fails only for want of a text, and then silently. -/
theorem isSilent_of_valid {v : Value} (h : Valid v) {e : Error} (he : ofValue v = .error e) :
    e.IsSilent := by
  obtain ⟨entries, rfl, hknown⟩ := h.known
  have hsilent : Avoids (¬·.IsSilent) (fun _ => True) (ofValue (.map entries)) := by
    refine (Avoids.of_exists (exists_checkKeys_iff.mpr hknown)).bind fun _ _ => ?_
    refine (setting_avoids fun entry hentry =>
      readSuppressed_of_form (h.suppressed entry hentry)).bind fun _ _ => ?_
    refine (Avoids.of_exists (exists_setting_iff.mpr fun entry hentry =>
      exists_readSeverity_iff.mpr (h.failOn entry hentry))).bind fun _ _ => ?_
    refine (Avoids.of_exists (exists_setting_iff.mpr fun entry hentry =>
      exists_readPositive_iff.mpr (h.recommendations entry hentry))).bind fun _ _ => ?_
    refine (Avoids.of_exists (exists_setting_iff.mpr fun entry hentry =>
      exists_readPositive_iff.mpr (h.workers entry hentry))).bind fun _ _ => ?_
    refine (setting_avoids fun entry hentry => readPatterns_of_form (h.patterns entry hentry)).bind
      fun _ _ => ?_
    exact trivial
  rw [he] at hsilent
  exact not_not.mp hsilent

/-- **Exactly the valid values that can be written are configurations.**  Such a value is read as
the configuration that it describes.  A value that is not valid is refused with a message, unless it
is a map with a key that is not a text, or something in it cannot be written.  A valid value that
cannot be written is refused without a message. -/
theorem ofValue_accepts_valid (v : Value) :
    (Valid v → Writable v → ∃ c, ofValue v = .ok c ∧ Describes v c) ∧
    (¬Valid v → ∃ e, ofValue v = .error e ∧
      (HasTextKeys v → Writable v → ∀ source, ∃ text, e.text? source = some text)) ∧
    (Valid v → ¬Writable v → ∃ e, ofValue v = .error e ∧ ∀ source, e.text? source = none) := by
  refine ⟨fun hvalid hwritable => ?_, fun hinvalid => ?_, fun hvalid hunwritable => ?_⟩
  · obtain ⟨c, hc⟩ := exists_ofValue_iff.mpr ⟨hvalid, hwritable⟩
    exact ⟨c, hc, (ofValue_avoids hvalid.hasTextKeys hwritable).of_ok hc⟩
  · cases hread : ofValue v with
    | ok c => exact absurd (exists_ofValue_iff.mp ⟨c, hread⟩).1 hinvalid
    | error e =>
        refine ⟨e, rfl, fun hkeys hwritable source => Error.exists_text ?_ source⟩
        have havoids := ofValue_avoids hkeys hwritable
        rw [hread] at havoids
        exact havoids
  · cases hread : ofValue v with
    | ok c => exact absurd (exists_ofValue_iff.mp ⟨c, hread⟩).2 hunwritable
    | error e => exact ⟨e, rfl, isSilent_of_valid hvalid hread⟩

/-- Tables with a number among texts and a tuple. -/
def untidyTables : List (Value × Value) :=
  [(.text "sensitive_ports", .list [.int 22, .text "x"]),
    (.text "slim_tag_markers", .tuple [.text "lite", .bool true, .severity .high])]

/-- A map that leaves much to tidy up, also ids in small letters and twice. -/
def untidy : Value :=
  .map [(.text "patterns", .map untidyTables), (.text "fail_on_severity", .text " medium"),
    (.text "suppress_rules", .list [.text " opt-010", .int 7, .text "OPT-010"])]

/-- A map of the right form with an id that cannot be written. -/
def unwritable : Value :=
  .map [(.text "suppress_rules", .list [.int Decimal.tooLong])]

theorem valid_untidy : Valid untidy where
  known := by
    refine ⟨_, rfl, ?_⟩
    simp only [List.forall_mem_cons, List.not_mem_nil, IsEmpty.forall_iff, implies_true, and_true]
    exact ⟨⟨.patterns, rfl⟩, ⟨.failOn, rfl⟩, ⟨.suppressed, rfl⟩⟩
  suppressed := by
    intro entry h
    exact .inr ⟨_, (Option.some.inj h).symm⟩
  failOn := by
    intro entry h
    cases h
    exact ⟨.medium, .name rfl rfl⟩
  recommendations := by
    intro entry h
    cases h
  workers := by
    intro entry h
    cases h
  patterns := by
    intro entry h
    refine .inr ⟨untidyTables, (Option.some.inj h).symm, ?_⟩
    simp only [untidyTables, List.forall_mem_cons, List.not_mem_nil, IsEmpty.forall_iff,
      implies_true, and_true]
    exact ⟨⟨⟨.sensitivePorts, rfl⟩, _, .list _⟩, ⟨⟨.slimTagMarkers, rfl⟩, _, .tuple _⟩⟩

theorem plain_seven : (Value.int 7).plain = .ok "7" := by
  rw [Value.plain_int, Value.wholeText_of_lt (by decide)]
  rfl

theorem mapM_plain_ports : [Value.int 22, .text "x"].mapM Value.plain = .ok ["22", "x"] := by
  rw [List.mapM_cons, Value.plain_int, Value.wholeText_of_lt (by decide)]
  rfl

theorem writable_untidy : Writable untidy where
  suppressed := by
    intro items h
    cases h
    simp only [List.forall_mem_cons, List.not_mem_nil, IsEmpty.forall_iff, implies_true, and_true]
    exact ⟨.of_leaf (by simp) rfl, Value.exists_plain_iff.mp ⟨_, plain_seven⟩,
      .of_leaf (by simp) rfl⟩
  patterns := by
    intro tables h
    cases h
    simp only [untidyTables, List.forall_mem_cons, List.not_mem_nil, IsEmpty.forall_iff,
      implies_true, and_true]
    exact ⟨⟨.of_leaf (by simp) rfl, (Patterns.isWritable_iff (.list _)).mpr ⟨_, mapM_plain_ports⟩⟩,
      ⟨.of_leaf (by simp) rfl, (Patterns.isWritable_iff (.tuple _)).mpr ⟨_, rfl⟩⟩⟩

theorem valid_unwritable : Valid unwritable where
  known := ⟨_, rfl, List.forall_mem_singleton.mpr ⟨.suppressed, rfl⟩⟩
  suppressed := fun entry h => .inr ⟨_, (Option.some.inj h).symm⟩
  failOn := by
    intro entry h
    cases h
  recommendations := by
    intro entry h
    cases h
  workers := by
    intro entry h
    cases h
  patterns := by
    intro entry h
    cases h

/-- The untidy map is read, with the standard number of workers and of actions.  A truth value for
the number of workers is refused with a message, an id that cannot be written without one. -/
theorem ofValue_accepts_untidy :
    (∃ c, ofValue untidy = .ok c ∧ (∀ id, id ∈ c.suppressed ↔ id = "OPT-010" ∨ id = "7") ∧
      c.failOn = .medium ∧ c.recommendations = 5 ∧ c.workers = 4 ∧
      c.patterns.entries .sensitivePorts = ["22", "x"] ∧
      c.patterns.entries .slimTagMarkers = ["lite", "True", "Severity.HIGH"] ∧
      c.patterns.entries .secretNameKeywords = Table.secretNameKeywords.standard) ∧
    (∃ e, ofValue (.map [(.text "workers", .bool true)]) = .error e ∧
      ∀ source, ∃ text, e.text? source = some text) ∧
    ∃ e, ofValue unwritable = .error e ∧ ∀ source, e.text? source = none := by
  refine ⟨?_, ?_, ?_⟩
  · obtain ⟨c, hc, h⟩ := (ofValue_accepts_valid untidy).1 valid_untidy writable_untidy
    have hids := (h.suppressed.given
      (.list [.text " opt-010", .int 7, .text "OPT-010"]) rfl).2
    have hmedium := h.failOn.given (.text " medium") rfl
    have htables := h.patterns.given (.map untidyTables) rfl
    refine ⟨c, hc, fun id => ?_, ?_, h.recommendations.absent ?_, h.workers.absent ?_, ?_, ?_, ?_⟩
    · have htext (s : String) : (Value.text s).plain = .ok s := rfl
      have hfirst : ruleId " opt-010" = "OPT-010" := rfl
      have hsecond : ruleId "7" = "7" := rfl
      have hthird : ruleId "OPT-010" = "OPT-010" := rfl
      simp only [hids, Value.list.injEq, exists_eq_left', List.exists_mem_cons_iff, htext,
        plain_seven, Except.ok.injEq, hfirst, hsecond, hthird, List.not_mem_nil, false_and,
        exists_false, or_false]
      constructor
      · rintro (h | h | h)
        exacts [.inl h, .inr h, .inl h]
      · rintro (h | h)
        exacts [.inl h, .inr (.inl h)]
    · exact Option.some.inj ((ofValue?_eq_some_iff.mpr hmedium).symm.trans rfl)
    · intro entry hentry
      cases hentry
    · intro entry hentry
      cases hentry
    · have hports := htables.replaced untidyTables .sensitivePorts
        (.list [.int 22, .text "x"]) _ rfl ⟨[], _, rfl, by simp [Table.name]⟩ (.list _)
      exact Except.ok.inj (hports.symm.trans mapM_plain_ports)
    · exact (Except.ok.inj (htables.replaced untidyTables .slimTagMarkers
        (.tuple [.text "lite", .bool true, .severity .high]) _ rfl ⟨[_], [], rfl, by simp⟩
        (.tuple _))).symm
    · refine htables.kept _ fun tables hmap => ?_
      cases hmap
      simp [untidyTables, Table.name]
  · obtain ⟨e, he, htext⟩ := (ofValue_accepts_valid (.map [(.text "workers", .bool true)])).2.1 (by
      intro h
      obtain ⟨n, hn, -⟩ := h.workers _ rfl
      cases hn)
    refine ⟨e, he, htext ?_ ⟨fun _ h => (by cases h), fun _ h => (by cases h)⟩⟩
    rintro _ ⟨⟩
    simp [Value.asText?]
  · refine (ofValue_accepts_valid unwritable).2.2 valid_unwritable fun h => ?_
    obtain ⟨text, htext⟩ := Value.exists_plain_iff.mpr (h.suppressed _ rfl _ List.mem_cons_self)
    rw [Value.plain_int, Value.wholeText_tooLong] at htext
    cases htext

/-- A list of ids is of the right form whatever its items are, and still it is refused, without a
message, if a number in it cannot be written. -/
theorem ofValue_refuses_unwritable :
    Valid unwritable ∧ ofValue unwritable = .error (.unwrittenId .longNumber) ∧
      ∀ source, (Error.unwrittenId .longNumber).text? source = none := by
  refine ⟨valid_unwritable, ?_, fun _ => rfl⟩
  have hread : setting unwritable .suppressed [] readSuppressed =
      .error (.unwrittenId .longNumber) := by
    have hentry : unwritable.getText? Key.suppressed.name =
        some (.list [.int Decimal.tooLong]) := rfl
    simp only [setting, hentry]
    rw [readSuppressed_list, List.mapM_cons, Value.plain_int, Value.wholeText_tooLong]
    rfl
  change (checkKeys _ >>= fun _ => setting unwritable .suppressed [] readSuppressed >>= _) = _
  rw [hread]
  rfl

end Config

end ContainerAudit
