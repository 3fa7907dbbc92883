import ContainerAudit.Proofs.Text.Occurrence
import Mathlib.Logic.Relation

/-!
# What a pattern takes

A pattern is searched for by asking what comes behind it, and a repetition tries a bounded number of
rounds.  Here a pattern is a relation between places, with no bound on the rounds: from the first
place it can be matched up to the second one (`Pattern.Takes`).  The search finds a way exactly if
there is one (`Pattern.leads_iff`), since a round that takes no character may be left out.
-/

namespace ContainerAudit.Text.Pattern

/-- The pattern can be matched from one place up to another. -/
def Takes : Pattern → Place → Place → Prop
  | empty, p, q => q = p
  | one accepts, p, q => ∃ c rest, p.rest = c :: rest ∧ accepts c = true ∧ q = ⟨.some c, rest⟩
  | seq a b, p, q => ∃ r, a.Takes p r ∧ b.Takes r q
  | alt a b, p, q => a.Takes p q ∨ b.Takes p q
  | many a, p, q => Relation.ReflTransGen a.Takes p q
  | boundary, p, q => isBoundary p.before p.rest = true ∧ q = p
  | textStart, p, q => p.before = none ∧ q = p
  | textEnd, p, q => (p.rest = [] ∨ p.rest = ['\n']) ∧ q = p

/-- A pattern stays where it is, or takes some characters. -/
theorem Takes.stays_or_lt {a : Pattern} {p q : Place} (h : a.Takes p q) :
    q = p ∨ q.rest.length < p.rest.length := by
  induction a generalizing p q with
  | empty => exact .inl h
  | one accepts =>
      obtain ⟨c, rest, hrest, -, rfl⟩ := h
      rw [hrest]
      exact .inr (Nat.lt_succ_self _)
  | seq a b iha ihb =>
      obtain ⟨r, ha, hb⟩ := h
      rcases iha ha with rfl | hlt
      · exact ihb hb
      · rcases ihb hb with rfl | hlt'
        · exact .inr hlt
        · exact .inr (Nat.lt_trans hlt' hlt)
  | alt a b iha ihb => exact h.elim iha ihb
  | many a ih =>
      induction h with
      | refl => exact .inl rfl
      | tail _ hstep hsofar =>
          rcases ih hstep with rfl | hlt
          · exact hsofar
          · rcases hsofar with rfl | hlt'
            · exact .inr hlt
            · exact .inr (Nat.lt_trans hlt hlt')
  | boundary => exact .inl h.2
  | textStart => exact .inl h.2
  | textEnd => exact .inl h.2

section Repeatedly

variable {step : (Place → Bool) → Place → Bool} {R : Place → Place → Prop}
  (hstep : ∀ next p, step next p = true ↔ ∃ q, R p q ∧ next q = true)

include hstep

theorem exists_of_repeatedly {next : Place → Bool} {count : Nat} {p : Place}
    (h : repeatedly step next count p = true) :
    ∃ q, Relation.ReflTransGen R p q ∧ next q = true := by
  induction count generalizing p with
  | zero => exact ⟨p, .refl, h⟩
  | succ count ih =>
      rcases Bool.or_eq_true_iff.mp h with hnext | hround
      · exact ⟨p, .refl, hnext⟩
      · obtain ⟨q, hq, hrest⟩ := (hstep _ p).mp hround
        obtain ⟨r, hr, hnext⟩ := ih hrest
        exact ⟨r, hr.head hq, hnext⟩

/-- As many rounds as there are characters are enough. -/
theorem repeatedly_of_reaches (hR : ∀ p q, R p q → q = p ∨ q.rest.length < p.rest.length)
    {next : Place → Bool} {p q : Place} (h : Relation.ReflTransGen R p q) (hnext : next q = true)
    {count : Nat} (hcount : p.rest.length ≤ count) : repeatedly step next count p = true := by
  induction h using Relation.ReflTransGen.head_induction_on generalizing count with
  | refl =>
      cases count with
      | zero => exact hnext
      | succ count => exact Bool.or_eq_true_iff.mpr (.inl hnext)
  | @head p r hround hrest ih =>
      rcases hR p r hround with rfl | hlt
      · exact ih hcount
      · obtain ⟨count, rfl⟩ := Nat.exists_eq_succ_of_ne_zero (by omega : count ≠ 0)
        refine Bool.or_eq_true_iff.mpr (.inr ((hstep _ p).mpr ⟨r, hround, ih ?_⟩))
        omega

end Repeatedly

/-- The search finds a way through the text exactly if the pattern takes one. -/
theorem leads_iff {a : Pattern} {next : Place → Bool} {p : Place} :
    a.leads next p = true ↔ ∃ q, a.Takes p q ∧ next q = true := by
  induction a generalizing next p with
  | empty => simp [leads, Takes]
  | one accepts =>
      rw [leads_one]
      constructor
      · rintro ⟨c, rest, hrest, hc, hnext⟩
        exact ⟨_, ⟨c, rest, hrest, hc, rfl⟩, hnext⟩
      · rintro ⟨q, ⟨c, rest, hrest, hc, rfl⟩, hnext⟩
        exact ⟨c, rest, hrest, hc, hnext⟩
  | seq a b iha ihb =>
      rw [leads, iha]
      constructor
      · rintro ⟨r, hr, hnext⟩
        obtain ⟨q, hq, hnext⟩ := ihb.mp hnext
        exact ⟨q, ⟨r, hr, hq⟩, hnext⟩
      · rintro ⟨q, ⟨r, hr, hq⟩, hnext⟩
        exact ⟨r, hr, ihb.mpr ⟨q, hq, hnext⟩⟩
  | alt a b iha ihb =>
      rw [leads, Bool.or_eq_true, iha, ihb, ← exists_or]
      simp only [← or_and_right]
      rfl
  | many a ih =>
      have hround : ∀ next p, a.leads next p = true ↔ ∃ q, a.Takes p q ∧ next q = true :=
        fun next p => ih
      rw [leads]
      constructor
      · exact exists_of_repeatedly hround
      · rintro ⟨q, hq, hnext⟩
        exact repeatedly_of_reaches hround (fun p q => Takes.stays_or_lt) hq hnext (Nat.le_refl _)
  | boundary => simp [leads, Takes, and_assoc]
  | textStart => simp [leads, Takes, and_assoc]
  | textEnd => simp [leads, Takes, and_assoc]

theorem takes_all_nil {p q : Place} : (all []).Takes p q ↔ q = p :=
  Iff.rfl

theorem takes_all_cons {a : Pattern} {as : List Pattern} {p q : Place} :
    (all (a :: as)).Takes p q ↔ ∃ r, a.Takes p r ∧ (all as).Takes r q :=
  Iff.rfl

theorem matchesStart_iff {a : Pattern} {s : List Char} :
    a.matchesStart s = true ↔ ∃ q, a.Takes ⟨none, s⟩ q := by
  rw [matchesStart, matchesAt, leads_iff]
  simp only [and_true]

theorem foundIn_iff_takes {a : Pattern} {s : List Char} :
    a.foundIn s = true ↔
      ∃ before after q, s = before ++ after ∧ a.Takes ⟨before.getLast?, after⟩ q := by
  simp only [foundIn_iff, matchesAt, leads_iff, and_true, exists_and_left]

/-! ## Runs of characters -/

theorem takes_lit {s : List Char} {p q : Place} :
    (lit s).Takes p q ↔ p.rest = s ++ q.rest ∧ q.before = s.getLast?.or p.before := by
  obtain ⟨before, text⟩ := p
  obtain ⟨before', rest⟩ := q
  induction s generalizing before text with
  | nil =>
      show (⟨before', rest⟩ : Place) = ⟨before, text⟩ ↔ _
      simp [and_comm, eq_comm]
  | cons c s ih =>
      show (∃ r, (one (· == c)).Takes ⟨before, text⟩ r ∧ (lit s).Takes r ⟨before', rest⟩) ↔ _
      simp only [Takes]
      constructor
      · rintro ⟨_, ⟨d, text, rfl, hd, rfl⟩, hs⟩
        obtain rfl := beq_iff_eq.mp hd
        obtain ⟨rfl, hbefore⟩ := (ih _ _).mp hs
        exact ⟨rfl, hbefore.trans (getLast?_cons_or d s before).symm⟩
      · rintro ⟨rfl, hbefore⟩
        refine ⟨_, ⟨c, s ++ rest, rfl, beq_self_eq_true c, rfl⟩, (ih _ _).mpr ⟨rfl, ?_⟩⟩
        rw [hbefore]
        exact getLast?_cons_or c s before

theorem takes_many_one {accepts : Char → Bool} {p q : Place} :
    (many (one accepts)).Takes p q ↔ ∃ read, p.rest = read ++ q.rest ∧
      (∀ c ∈ read, accepts c = true) ∧ q.before = read.getLast?.or p.before := by
  constructor
  · intro h
    induction h using Relation.ReflTransGen.head_induction_on with
    | refl => exact ⟨[], rfl, by simp, rfl⟩
    | head hone _ ih =>
        obtain ⟨c, rest, hrest, hc, rfl⟩ := hone
        obtain ⟨read, rfl, hread, hbefore⟩ := ih
        refine ⟨c :: read, hrest, List.forall_mem_cons.mpr ⟨hc, hread⟩, ?_⟩
        rw [hbefore]
        exact (getLast?_cons_or c read _).symm
  · obtain ⟨before, text⟩ := p
    obtain ⟨before', rest⟩ := q
    rintro ⟨read, rfl, hread, hbefore⟩
    induction read generalizing before with
    | nil =>
        obtain rfl : before' = before := hbefore
        exact .refl
    | cons c read ih =>
        obtain ⟨hc, hread⟩ := List.forall_mem_cons.mp hread
        refine .head ⟨c, read ++ rest, rfl, hc, rfl⟩ (ih _ hread ?_)
        exact hbefore.trans (getLast?_cons_or c read before)

/-- At least one character is taken, and then as many more as wanted. -/
theorem takes_some_one {accepts : Char → Bool} {p q : Place} :
    (Pattern.some (one accepts)).Takes p q ↔ ∃ read, read ≠ [] ∧ p.rest = read ++ q.rest ∧
      (∀ c ∈ read, accepts c = true) ∧ q.before = read.getLast? := by
  show (∃ r, (one accepts).Takes p r ∧ (many (one accepts)).Takes r q) ↔ _
  simp only [takes_many_one]
  constructor
  · rintro ⟨r, ⟨c, rest, hrest, hc, rfl⟩, read, rfl, hread, hbefore⟩
    refine ⟨c :: read, List.cons_ne_nil c read, hrest, List.forall_mem_cons.mpr ⟨hc, hread⟩, ?_⟩
    rw [hbefore, ← getLast?_cons_or c read none, Option.or_none]
  · rintro ⟨read, hne, hrest, hread, hbefore⟩
    obtain ⟨c, read, rfl⟩ := List.exists_cons_of_ne_nil hne
    obtain ⟨hc, hread⟩ := List.forall_mem_cons.mp hread
    refine ⟨_, ⟨c, read ++ q.rest, hrest, hc, rfl⟩, read, rfl, hread, ?_⟩
    rw [hbefore, ← getLast?_cons_or c read none, Option.or_none]

end ContainerAudit.Text.Pattern
