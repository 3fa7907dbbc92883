import ContainerAudit.Proofs.Report.Evaluation

/-!
# What rules find in services

The rules on compose files look at each service on its own, whatever the other services are, and go
through the services in the order of their names.  Each match has a message of its own, which names
the service (`serviceRules_perService`).
-/

namespace ContainerAudit

open ContainerAudit.Compose (Service)

/-- The match has a message, and it is not empty. -/
def Match.Speaks (m : Match) : Prop :=
  ∃ message, m.message = some message ∧ message ≠ ""

/-- A match that has a message keeps it as a finding. -/
theorem Match.Speaks.message_ofMatch {m : Match} (h : m.Speaks) (rule : Rule) (path : String) :
    m.message = some (Finding.ofMatch rule path m).message := by
  obtain ⟨message, hmessage, hne⟩ := h
  have hempty : message.isEmpty = false := String.isEmpty_eq_false_iff.mpr hne
  rw [Finding.ofMatch, hmessage]
  simp only [orText, hempty, Bool.false_eq_true, if_false, Option.getD_some]

namespace Rule

/-- The matches of a rule for a service: those on a file that holds this service alone. -/
def foundFor (rule : Rule) (p : Patterns) (s : Service) : List Match :=
  rule.found p ⟨"", .compose ⟨[s]⟩⟩

/-- A rule that looks at each service on its own, and has something to say of each match. -/
def PerService (rule : Rule) : Prop :=
  ∃ g : Patterns → Service → List Match,
    rule.check = .ofCompose (fun d p => eachService (g p) d) ∧ ∀ p s, ∀ m ∈ g p s, m.Speaks

/-! ## The rules -/

theorem speaks_ite {found found' : List Match} {c : Prop} [Decidable c]
    (h : ∀ m ∈ found, m.Speaks) (h' : ∀ m ∈ found', m.Speaks) :
    ∀ m ∈ if c then found else found', m.Speaks := by
  split
  · exact h
  · exact h'

theorem speaks_nil : ∀ m ∈ ([] : List Match), m.Speaks :=
  fun _ hm => absurd hm List.not_mem_nil

theorem speaks_singleton {line : Int} {text message : String} (h : message ≠ "") :
    ∀ m ∈ [(⟨line, text, some message, none⟩ : Match)], m.Speaks := by
  intro m hm
  rw [List.mem_singleton.mp hm]
  exact ⟨message, rfl, h⟩

theorem speaks_map_filter {α : Type} {make : α → Match} (h : ∀ a, (make a).Speaks)
    (test : α → Bool) (as : List α) : ∀ m ∈ (as.filter test).map make, m.Speaks := by
  intro m hm
  obtain ⟨a, -, rfl⟩ := List.mem_map.mp hm
  exact h a

theorem serviceName_ne (s : Service) : serviceName s ≠ "" := by
  simp [serviceName]

theorem optionMatches_speak {bad : List String} {message : Service → String → String}
    (h : ∀ s option, message s option ≠ "") (s : Service) :
    ∀ m ∈ optionMatches bad message s, m.Speaks :=
  speaks_map_filter (fun option => ⟨_, rfl, h s option.2⟩) _ _

theorem namespaceMatches_speak (key label : String) (word : Option String) (s : Service) :
    ∀ m ∈ namespaceMatches key label word s, m.Speaks :=
  speaks_ite (speaks_singleton (by simp [serviceName_ne])) speaks_nil

theorem serviceRules_perService : ∀ rule ∈ serviceRules, rule.PerService := by
  simp only [serviceRules, List.forall_mem_cons, List.not_mem_nil, IsEmpty.forall_iff, implies_true,
    and_true]
  refine ⟨⟨_, rfl, fun p s => ?_⟩, ⟨_, rfl, fun p s => ?_⟩, ⟨_, rfl, fun p s => ?_⟩,
    ⟨_, rfl, fun p s => ?_⟩, ⟨_, rfl, fun p s => ?_⟩, ⟨_, rfl, fun p s => ?_⟩,
    ⟨_, rfl, fun p s => ?_⟩, ⟨_, rfl, fun p s => ?_⟩, ⟨_, rfl, fun p s => ?_⟩⟩
  · exact speaks_ite (speaks_singleton (by simp [serviceName_ne])) speaks_nil
  · exact speaks_map_filter (fun m => ⟨_, rfl, by simp [serviceName_ne]⟩) _ _
  · exact optionMatches_speak (fun s _ => by simp [serviceName_ne]) s
  · exact speaks_ite (speaks_singleton (by simp [serviceName_ne])) speaks_nil
  · exact speaks_map_filter (fun c => ⟨_, rfl, by simp [serviceName_ne]⟩) _ _
  · exact List.forall_mem_append.mpr
      ⟨namespaceMatches_speak "pid" "PID" s.pid s, namespaceMatches_speak "ipc" "IPC" s.ipc s⟩
  · exact speaks_ite speaks_nil (speaks_singleton (by simp [serviceName_ne]))
  · exact optionMatches_speak (fun s _ => by simp [serviceName_ne]) s
  · exact speaks_ite (speaks_singleton (by simp [serviceName_ne])) speaks_nil

/-! ## Service by service -/

theorem foundFor_eq {rule : Rule} {g : Patterns → Service → List Match}
    (hcheck : rule.check = .ofCompose fun d p => eachService (g p) d) (p : Patterns) (s : Service) :
    rule.foundFor p s = g p s := by
  refine found_of_check ?_
  rw [hcheck]
  simp only [Check.ofCompose, eachService, Compose.Document.sorted, List.mergeSort_singleton,
    List.flatMap_singleton]

section PerService

variable {rule : Rule} (h : rule.PerService) (p : Patterns)

include h

/-- The matches on a file are those for its services, in the order of their names. -/
theorem PerService.check_eq (path : String) (d : Compose.Document) :
    rule.check ⟨path, .compose d⟩ p = .ok (d.sorted.flatMap (rule.foundFor p)) := by
  obtain ⟨g, hcheck, -⟩ := h
  rw [hcheck, funext (foundFor_eq hcheck p)]
  rfl

theorem PerService.speaks (s : Service) : ∀ m ∈ rule.foundFor p s, m.Speaks := by
  obtain ⟨g, hcheck, hspeaks⟩ := h
  rw [foundFor_eq hcheck]
  exact hspeaks p s

end PerService

end Rule

end ContainerAudit
