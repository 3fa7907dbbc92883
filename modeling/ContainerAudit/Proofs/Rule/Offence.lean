import ContainerAudit.Proofs.Compose.Provenance
import ContainerAudit.Proofs.Rule.Service

/-!
# Where rules on services find what they report

Seven of the nine rules on services object to the value of a key or to an item of a set
(`Rule.offences`).  They report it where it is set: on the line of the last entry with the key, or
of the last occurrence of the item in the last entry of its field, and never on the line of the
service for want of a better one (`Rule.readService_traces`).
-/

namespace ContainerAudit

open ContainerAudit.Compose
open ContainerAudit.Text (mapChars upper)
open ContainerAudit.Yaml (Graph)

namespace Rule

/-! ## Offences -/

/-- What a rule may object to: the value of a key, or an item of a set.  The text is that of the
match. -/
inductive Offence where
  | key (key : String) (text? : Setting → Option String)
  | item (field : SetField) (text? : String → Option String)

/-- The line and the text of an offence: the line is that of the last entry with the key, or of the
last occurrence of the item in the last entry of its field. -/
def Offence.At (entries : List Entry) (line : Int) (text : String) : Offence → Prop
  | .key name text? => ∃ e, latest? name entries = some e ∧ text? e.setting = some text ∧
      line = e.line
  | .item field text? => ∃ e item, ∃ n : Nat, latest? field.key entries = some e ∧
      text? item = some text ∧ e.setting.items.reverse.lookup item = some n ∧ line = n

def switchedOn (f : SwitchField) : Setting → Option String
  | .switch g (some true) => if g = f then some (f.key ++ ": true") else none
  | _ => none

def notSwitchedOn (f : SwitchField) : Setting → Option String
  | .switch g value =>
    if g = f ∧ value ≠ some true then
      some (f.key ++ ": " ++ if value = some false then "false" else "none")
    else none
  | _ => none

def hostWord (f : WordField) : Setting → Option String
  | .word g value =>
    if g = f ∧ isHost value = true then some (f.key ++ ": " ++ value.getD "") else none
  | _ => none

def badOption (bad : List String) (option : String) : Option String :=
  if bad.contains (normalOption option) then some option else none

def badCapability (p : Patterns) (capability : String) : Option String :=
  if ((p.entries .dangerousCapabilities).map (mapChars upper)).contains
      (normalCapability capability) then some ("cap_add: " ++ capability) else none

/-- What each rule objects to that names a key or an item of a service. -/
def offences (p : Patterns) : List (String × List Offence) :=
  [("COMPOSE-SEC-001", [.key "privileged" (switchedOn .privileged)]),
   ("COMPOSE-SEC-003", [.item .securityOpt (badOption ["seccomp:unconfined"])]),
   ("COMPOSE-SEC-004", [.key "network_mode" (hostWord .networkMode)]),
   ("COMPOSE-SEC-005", [.item .capAdd (badCapability p)]),
   ("COMPOSE-SEC-006", [.key "pid" (hostWord .pid), .key "ipc" (hostWord .ipc)]),
   ("COMPOSE-SEC-008", [.item .securityOpt (badOption ["label:disable", "apparmor:unconfined"])]),
   ("COMPOSE-SEC-009", [.key "read_only" (notSwitchedOn .readOnly)])]

/-- The matches have the lines and the texts of the offences. -/
def Reports (found : List Match) (offences : List Offence) (entries : List Entry) : Prop :=
  ∀ line text, (∃ m ∈ found, m.line = line ∧ m.text = text) ↔
    ∃ offence ∈ offences, offence.At entries line text

theorem Reports.append {found found' : List Match} {offences offences' : List Offence}
    {entries : List Entry} (h : Reports found offences entries)
    (h' : Reports found' offences' entries) :
    Reports (found ++ found') (offences ++ offences') entries := by
  intro line text
  simp only [List.mem_append, or_and_right, exists_or, h line text, h' line text]

theorem reports_of_check {rule : Rule} {g : Patterns → Service → List Match}
    (hcheck : rule.check = .ofCompose fun d p => eachService (g p) d) {p : Patterns} {s : Service}
    {offences : List Offence} {entries : List Entry} (h : Reports (g p s) offences entries) :
    Reports (rule.foundFor p s) offences entries := by
  rw [foundFor_eq hcheck]
  exact h

theorem mem_map_fst_iff {items : List (String × Nat)} {item : String} :
    item ∈ items.map (·.1) ↔ ∃ n, items.reverse.lookup item = some n := by
  rw [← Option.isSome_iff_exists, ← Option.ne_none_iff_isSome, ne_eq, List.lookup_eq_none_iff]
  simp

/-! ## Keys -/

section Traced

variable {s : Service} {entries : List Entry} (ht : s.Traces entries)
  (hfits : ∀ e ∈ entries, e.Fits)

/-- A rule on a key reports the text of the offence on the line of the last entry with the key. -/
theorem reports_key {key : String} {text? : Setting → Option String} {found : List Match}
    (hnone : latest? key entries = none → found = [])
    (hsome : ∀ e, latest? key entries = some e →
      found.map (fun m => (m.line, m.text)) =
        ((text? e.setting).map fun text => ((e.line : Int), text)).toList) :
    Reports found [.key key text?] entries := by
  intro line text
  have hfound : (∃ m ∈ found, m.line = line ∧ m.text = text) ↔
      (line, text) ∈ found.map fun m => (m.line, m.text) := by
    simp only [List.mem_map, Prod.mk.injEq]
  rw [hfound]
  simp only [List.mem_singleton, exists_eq_left, Offence.At]
  cases hlast : latest? key entries with
  | none =>
      rw [hnone hlast]
      simp
  | some e =>
      rw [hsome e hlast]
      cases htext : text? e.setting with
      | none => simp [htext]
      | some found => simp [htext, and_comm, eq_comm]

include ht hfits

theorem latest_switch (f : SwitchField) {e : Entry} (h : latest? f.key entries = some e) :
    e.setting = .switch f (s.switch f) ∧ s.lineOf f.key = e.line := by
  obtain ⟨hmem, hkey⟩ := mem_of_latest? h
  have hheld := ht.held f.key e h
  have hfield : e.setting.field = .switch f := by
    rw [hfits e hmem, hkey]
    exact Field.ofKey_switch f
  obtain ⟨value, hset⟩ := Setting.eq_switch hfield
  refine ⟨?_, ?_⟩
  · rw [hheld.switch f value hset, hset]
  · rw [Service.lineOf, ← hkey, hheld.line]
    rfl

theorem latest_word (f : WordField) {e : Entry} (h : latest? f.key entries = some e) :
    e.setting = .word f (s.word f) ∧ s.lineOf f.key = e.line := by
  obtain ⟨hmem, hkey⟩ := mem_of_latest? h
  have hheld := ht.held f.key e h
  have hfield : e.setting.field = .word f := by
    rw [hfits e hmem, hkey]
    exact Field.ofKey_word f
  obtain ⟨value, hset⟩ := Setting.eq_word hfield
  refine ⟨?_, ?_⟩
  · rw [hheld.word f value hset, hset]
  · rw [Service.lineOf, ← hkey, hheld.line]
    rfl

theorem privileged_reports (message : Option String) :
    Reports
      (if s.privileged = some true then
        [⟨s.lineOf "privileged", "privileged: true", message, none⟩] else [])
      [.key "privileged" (switchedOn .privileged)] entries := by
  refine reports_key (fun hnone => ?_) fun e he => ?_
  · have hunset : s.privileged = none := (ht.unset _ hnone).switch .privileged rfl
    rw [hunset, if_neg nofun]
  · obtain ⟨hset, hline⟩ := latest_switch ht hfits .privileged he
    rw [hset, ← hline]
    change _ = (Option.map _ (switchedOn .privileged (.switch .privileged s.privileged))).toList
    rcases s.privileged with _ | _ | _ <;> rfl

theorem hostWord_reports (f : WordField) (message : Option String) :
    Reports
      (if isHost (s.word f) then
        [⟨s.lineOf f.key, f.key ++ ": " ++ (s.word f).getD "", message, none⟩] else [])
      [.key f.key (hostWord f)] entries := by
  refine reports_key (fun hnone => ?_) fun e he => ?_
  · have hunset : s.word f = none := (ht.unset _ hnone).word f rfl
    rw [hunset]
    rfl
  · obtain ⟨hset, hline⟩ := latest_word ht hfits f he
    rw [hset, ← hline]
    by_cases hhost : isHost (s.word f) = true
    · simp only [hhost, hostWord, if_true, and_self, List.map_cons, List.map_nil, Option.map_some,
        Option.toList_some]
    · simp only [hhost, hostWord, if_false, and_false, List.map_nil, Option.map_none,
        Option.toList_none, Bool.false_eq_true]

theorem notSwitchedOn_reports (message : Option String) :
    Reports
      (if (s.lines.lookup "read_only").isSome && s.readOnly ≠ some true then
        [⟨s.lineOf "read_only",
          "read_only: " ++ if s.readOnly = some false then "false" else "none", message, none⟩]
      else [])
      [.key "read_only" (notSwitchedOn .readOnly)] entries := by
  refine reports_key (fun hnone => ?_) fun e he => ?_
  · have hline : s.lines.lookup "read_only" = none :=
      (ht.unset _ hnone).line (Service.ne_itemKey (by decide))
    rw [hline]
    rfl
  · obtain ⟨hset, hline⟩ := latest_switch ht hfits .readOnly he
    have hthere := (ht.held _ e he).line
    rw [(mem_of_latest? he).2] at hthere
    rw [hset, ← hline, hthere]
    change _ = (Option.map _ (notSwitchedOn .readOnly (.switch .readOnly s.readOnly))).toList
    rcases s.readOnly with _ | _ | _ <;> rfl

/-! ## Items -/

/-- The items of a set are those of the last entry of its field, and each has the line of its last
occurrence there. -/
theorem mem_items_iff (f : SetField) (item : String) (line : Int) :
    item ∈ s.items f ∧ line = s.lineOfItem f.key item ↔
      ∃ e, ∃ n : Nat, latest? f.key entries = some e ∧
        e.setting.items.reverse.lookup item = some n ∧ line = n := by
  cases hlast : latest? f.key entries with
  | none =>
      rw [(ht.unset _ hlast).set f rfl]
      simp
  | some e =>
      obtain ⟨hmem, hkey⟩ := mem_of_latest? hlast
      have hheld := ht.held f.key e hlast
      have hfield : e.setting.field = .set f := by
        rw [hfits e hmem, hkey]
        exact Field.ofKey_set f
      obtain ⟨items, hset⟩ := Setting.eq_set hfield
      have hline (n : Nat) (hn : items.reverse.lookup item = some n) :
          s.lineOfItem f.key item = n := by
        rw [Service.lineOfItem, hheld.itemLine f items hset item n hn]
        rfl
      rw [hheld.set f items hset, mem_sortedSet, mem_map_fst_iff]
      constructor
      · rintro ⟨⟨n, hn⟩, rfl⟩
        exact ⟨e, n, rfl, hset ▸ hn, congrArg _ (hline n hn)⟩
      · rintro ⟨e', n, he, hn, rfl⟩
        cases he
        rw [hset] at hn
        exact ⟨⟨n, hn⟩, congrArg _ (hline n hn).symm⟩

/-- A rule on the items of a set reports each offending item on its line. -/
theorem reports_items {f : SetField} {text? : String → Option String} {found : List Match}
    (h : ∀ line text, (∃ m ∈ found, m.line = line ∧ m.text = text) ↔
      ∃ item ∈ s.items f, text? item = some text ∧ line = s.lineOfItem f.key item) :
    Reports found [.item f text?] entries := by
  intro line text
  rw [h]
  simp only [List.mem_singleton, exists_eq_left, Offence.At]
  constructor
  · rintro ⟨item, hitem, htext, hline⟩
    obtain ⟨e, n, hlast, hn, hline⟩ := (mem_items_iff ht hfits f item line).mp ⟨hitem, hline⟩
    exact ⟨e, item, n, hlast, htext, hn, hline⟩
  · rintro ⟨e, item, n, hlast, htext, hn, hline⟩
    obtain ⟨hitem, hline⟩ := (mem_items_iff ht hfits f item line).mpr ⟨e, n, hlast, hn, hline⟩
    exact ⟨item, hitem, htext, hline⟩

theorem optionMatches_report (bad : List String) (message : Service → String → String) :
    Reports (optionMatches bad message s) [.item .securityOpt (badOption bad)] entries := by
  refine reports_items ht hfits fun line text => ?_
  simp only [optionMatches, normalOptions, List.mem_map, List.mem_filter, List.mem_mergeSort]
  constructor
  · rintro ⟨m, ⟨pair, ⟨⟨option, hoption, rfl⟩, hbad⟩, rfl⟩, rfl, rfl⟩
    exact ⟨option, hoption, if_pos hbad, rfl⟩
  · rintro ⟨option, hoption, htext, rfl⟩
    rw [badOption] at htext
    split at htext
    · next hbad =>
        cases htext
        exact ⟨_, ⟨_, ⟨⟨_, hoption, rfl⟩, hbad⟩, rfl⟩, rfl, rfl⟩
    · exact nomatch htext

theorem capabilities_report (p : Patterns) (message : String → Option String) :
    Reports
      ((s.capAdd.filter fun c => ((p.entries .dangerousCapabilities).map (mapChars upper)).contains
          (normalCapability c)).map fun c =>
        ⟨s.lineOfItem "cap_add" c, "cap_add: " ++ c, message c, none⟩)
      [.item .capAdd (badCapability p)] entries := by
  refine reports_items ht hfits fun line text => ?_
  simp only [List.mem_map, List.mem_filter]
  constructor
  · rintro ⟨m, ⟨c, ⟨hc, hbad⟩, rfl⟩, rfl, rfl⟩
    exact ⟨c, hc, if_pos hbad, rfl⟩
  · rintro ⟨c, hc, htext, rfl⟩
    rw [badCapability] at htext
    split at htext
    · next hbad =>
        cases htext
        exact ⟨_, ⟨c, ⟨hc, hbad⟩, rfl⟩, rfl, rfl⟩
    · exact nomatch htext

/-- Each rule that names a key or an item of a service reports what it objects to where the last
entry sets it. -/
theorem serviceRules_report (p : Patterns) : ∀ rule ∈ serviceRules, ∀ objections,
    (offences p).lookup rule.id = some objections →
      Reports (rule.foundFor p s) objections entries := by
  simp only [serviceRules, List.forall_mem_cons, List.not_mem_nil, IsEmpty.forall_iff, implies_true,
    and_true]
  refine ⟨?_, ?_, ?_, ?_, ?_, ?_, ?_, ?_, ?_⟩ <;> intro objections hobjections <;>
    cases hobjections
  all_goals refine reports_of_check rfl ?_
  · exact privileged_reports ht hfits _
  · exact optionMatches_report ht hfits _ _
  · exact hostWord_reports ht hfits .networkMode _
  · exact capabilities_report ht hfits p _
  · exact (hostWord_reports ht hfits .pid _).append (hostWord_reports ht hfits .ipc _)
  · exact optionMatches_report ht hfits _ _
  · exact notSwitchedOn_reports ht hfits _

end Traced

/-- A service is read from the entries of its mapping, once merges are flattened, and these have the
lines of their nodes.  Unless a key looks like the name of an item, the service goes back to the
last entry of each key, and the rules report the lines of these entries and of their items. -/
theorem readService_traces {name : String} {key value : Nat} {g g' : Graph} {s : Service}
    (h : readService name key value g = .ok (s, g'))
    (hmap : (g.node value).content.shape = .mapping) :
    ∃ flat entries, g.flatten value = .ok flat ∧
      readEntries (flat.entries value) flat = .ok (entries, g') ∧
      List.Forall₂ (Entry.LinesFrom g) (flat.entries value) entries ∧
      ((∀ e ∈ entries, e.Plain) → s.Traces entries ∧
        ∀ p, ∀ rule ∈ serviceRules, ∀ objections, (offences p).lookup rule.id = some objections →
          Reports (rule.foundFor p s) objections entries) := by
  obtain ⟨flat, entries, hflat, hentries, rfl⟩ := (readService_mapping hmap).mp h
  have hreshapes := Graph.reshapes_of_flatten hflat hmap
  obtain ⟨hlines, hfits, -⟩ := readEntries_spec hreshapes hentries
  refine ⟨flat, entries, hflat, hentries, hlines, fun hplain => ?_⟩
  have ht := Service.ofEntries_traces name (g'.lineOf key) hfits hplain
  exact ⟨ht, serviceRules_report ht hfits⟩

/-- A service that sets some fields again after a merge, and an item twice. -/
def overridden : Graph :=
  match Yaml.Document.read (.ofText ("services:\n  web:\n" ++
    "    <<: \x7bcap_add: [NET_ADMIN], privileged: true\x7d\n\n    privileged: false\n" ++
    "    cap_add: [SYS_ADMIN, sys_admin,\n      SYS_ADMIN]\n").toList) with
  | .ok (some d) => d.graph
  | _ => .empty

theorem readService_traces_overridden :
    ∃ s g', readService "web" 3 4 overridden = .ok (s, g') ∧
      ∃ entries, s.Traces entries ∧
        entries.map (fun e => (e.key, e.line, e.setting.items)) =
          [("cap_add", 3, [("NET_ADMIN", 3)]), ("privileged", 3, []), ("privileged", 5, []),
            ("cap_add", 6, [("SYS_ADMIN", 6), ("sys_admin", 6), ("SYS_ADMIN", 7)])] ∧
        ∃ rule ∈ serviceRules, rule.id = "COMPOSE-SEC-005" ∧
          ∃ m ∈ rule.foundFor .standard s, m.line = 7 ∧ m.text = "cap_add: SYS_ADMIN" := by
  have hread : (overridden.node 4).content.shape = .mapping ∧
      (overridden.flatten 4 >>= fun flat => readEntries (flat.entries 4) flat).toOption.map
        (fun r => r.1.map fun e => (e.key, e.line, e.setting.items)) =
          some [("cap_add", 3, [("NET_ADMIN", 3)]), ("privileged", 3, []), ("privileged", 5, []),
            ("cap_add", 6, [("SYS_ADMIN", 6), ("sys_admin", 6), ("SYS_ADMIN", 7)])] := by
    decide +kernel
  obtain ⟨hmap, hview⟩ := hread
  cases hread : overridden.flatten 4 >>= fun flat => readEntries (flat.entries 4) flat with
  | error e =>
      rw [hread] at hview
      exact nomatch hview
  | ok r =>
      obtain ⟨entries, g'⟩ := r
      rw [hread] at hview
      have hview := Option.some.inj hview
      obtain ⟨flat, hflat, hentries⟩ := exists_of_bind_eq_ok hread
      have hservice : readService "web" 3 4 overridden =
          .ok (.ofEntries "web" (g'.lineOf 3) entries, g') :=
        (readService_mapping hmap).mpr ⟨flat, entries, hflat, hentries, rfl⟩
      obtain ⟨flat', entries', hflat', hentries', -, htraces⟩ := readService_traces hservice hmap
      cases hflat.symm.trans hflat'
      cases hentries.symm.trans hentries'
      obtain ⟨e₁, rest, rfl, h₁, hview'⟩ := List.map_eq_cons_iff.mp hview
      obtain ⟨e₂, rest, rfl, h₂, hview'⟩ := List.map_eq_cons_iff.mp hview'
      obtain ⟨e₃, rest, rfl, h₃, hview'⟩ := List.map_eq_cons_iff.mp hview'
      obtain ⟨e₄, rest, rfl, h₄, hview'⟩ := List.map_eq_cons_iff.mp hview'
      cases List.map_eq_nil_iff.mp hview'
      simp only [Prod.mk.injEq] at h₁ h₂ h₃ h₄
      have hplain : ∀ e ∈ [e₁, e₂, e₃, e₄], e.Plain := by
        simp only [List.forall_mem_cons, Entry.Plain, h₁.1, h₂.1, h₃.1, h₄.1]
        exact ⟨Service.ne_itemKey (by decide), Service.ne_itemKey (by decide),
          Service.ne_itemKey (by decide), Service.ne_itemKey (by decide),
          fun _ h => absurd h List.not_mem_nil⟩
      obtain ⟨ht, hreports⟩ := htraces hplain
      refine ⟨_, g', hservice, _, ht, hview, serviceRules[4], List.getElem_mem _, rfl, ?_⟩
      refine (hreports .standard _ (List.getElem_mem _) _ rfl 7 "cap_add: SYS_ADMIN").mpr ?_
      have hlast : latest? "cap_add" [e₁, e₂, e₃, e₄] = some e₄ := by
        simp [latest?, h₄.1]
      refine ⟨_, List.mem_singleton_self _, e₄, "SYS_ADMIN", 7, hlast, ?_, ?_, rfl⟩
      · decide +kernel
      · rw [h₄.2.2]
        rfl

end Rule

end ContainerAudit
