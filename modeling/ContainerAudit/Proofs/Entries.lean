import ContainerAudit.Entries
import Mathlib.Data.Finset.Card
import Mathlib.Data.List.Forall2
import Mathlib.Data.List.Nodup
import Mathlib.Data.List.Perm.Basic

/-!
# Distinct elements

An element is among the distinct ones exactly if it is the first with its key (`mem_distinctBy`),
and no key is there twice (`nodup_map_distinctBy`).  These two facts fix the distinct elements up to
their order.  From them: of lists that come in blocks, where elements of different blocks never
share a key, only the set of the blocks matters (`mem_distinctBy_flatMap`), and lists without a
common key are thinned out one by one (`distinctBy_append`).  It makes no difference whether some
keys are taken out before or after (`distinctBy_filter`).  The distinct elements stand in the order
of the list (`distinctBy_sublist`), and those of its front part come first (`distinctBy_isPrefix`).
An element whose key has come before adds nothing to them (`distinctBy_concat_of_mem`).
-/

namespace ContainerAudit

section DistinctBy

variable {α β κ : Type} [BEq κ] [LawfulBEq κ] {key : α → κ}

theorem distinctFrom_cons_of_mem {seen : List κ} {b : α} (h : key b ∈ seen) (l : List α) :
    distinctFrom key seen (b :: l) = distinctFrom key seen l := by
  rw [distinctFrom, if_pos (List.contains_iff_mem.mpr h)]

theorem distinctFrom_cons_of_notMem {seen : List κ} {b : α} (h : key b ∉ seen) (l : List α) :
    distinctFrom key seen (b :: l) = b :: distinctFrom key (key b :: seen) l := by
  rw [distinctFrom, if_neg fun hb => h (List.contains_iff_mem.mp hb)]

/-! ## Membership -/

theorem mem_distinctFrom {seen : List κ} {l : List α} {a : α} :
    a ∈ distinctFrom key seen l ↔
      key a ∉ seen ∧ l.find? (fun b => key b == key a) = some a := by
  induction l generalizing seen with
  | nil => simp [distinctFrom]
  | cons b l ih =>
      by_cases hseen : key b ∈ seen
      · -- `b` is passed over, and nothing with its key is looked for
        rw [distinctFrom_cons_of_mem hseen, ih]
        refine and_congr_right fun hkey => ?_
        have hne : key b ≠ key a := fun h => hkey (h ▸ hseen)
        rw [List.find?_cons, beq_false_of_ne hne]
      · rw [distinctFrom_cons_of_notMem hseen, List.mem_cons, ih, List.mem_cons, not_or]
        by_cases hab : key b = key a
        · rw [List.find?_cons, beq_iff_eq.mpr hab]
          constructor
          · rintro (rfl | ⟨⟨hne, -⟩, -⟩)
            · exact ⟨hseen, rfl⟩
            · exact absurd hab.symm hne
          · rintro ⟨-, hfirst⟩
            exact Or.inl (Option.some.inj hfirst).symm
        · rw [List.find?_cons, beq_false_of_ne hab]
          constructor
          · rintro (rfl | ⟨⟨-, hkey⟩, hfirst⟩)
            · exact absurd rfl hab
            · exact ⟨hkey, hfirst⟩
          · rintro ⟨hkey, hfirst⟩
            exact Or.inr ⟨⟨fun h => hab h.symm, hkey⟩, hfirst⟩

theorem mem_distinctBy {l : List α} {a : α} :
    a ∈ distinctBy key l ↔ l.find? (fun b => key b == key a) = some a := by
  rw [distinctBy, mem_distinctFrom]
  exact and_iff_right List.not_mem_nil

theorem mem_of_mem_distinctBy {l : List α} {a : α} (h : a ∈ distinctBy key l) : a ∈ l :=
  List.mem_of_find?_eq_some (mem_distinctBy.mp h)

/-- For each element there is a distinct one with its key. -/
theorem exists_mem_distinctBy {l : List α} {a : α} (h : a ∈ l) :
    ∃ b ∈ distinctBy key l, key b = key a := by
  cases hfirst : l.find? (fun b => key b == key a) with
  | none => exact absurd (beq_self_eq_true (key a)) (List.find?_eq_none.mp hfirst a h)
  | some b =>
      have hb := List.find?_some hfirst
      have hkey : key b = key a := eq_of_beq hb
      exact ⟨b, mem_distinctBy.mpr (hkey ▸ hfirst), hkey⟩

theorem nodup_map_distinctFrom (seen : List κ) (l : List α) :
    ((distinctFrom key seen l).map key).Nodup := by
  induction l generalizing seen with
  | nil => exact List.nodup_nil
  | cons b l ih =>
      by_cases hseen : key b ∈ seen
      · rw [distinctFrom_cons_of_mem hseen]
        exact ih seen
      · rw [distinctFrom_cons_of_notMem hseen]
        refine List.nodup_cons.mpr ⟨?_, ih _⟩
        intro hmem
        obtain ⟨a, ha, hkey⟩ := List.mem_map.mp hmem
        exact (mem_distinctFrom.mp ha).1 (hkey ▸ List.mem_cons_self)

theorem nodup_map_distinctBy (l : List α) : ((distinctBy key l).map key).Nodup :=
  nodup_map_distinctFrom [] l

theorem nodup_distinctBy (l : List α) : (distinctBy key l).Nodup :=
  (nodup_map_distinctBy l).of_map key

/-- Distinct elements with the same key are the same. -/
theorem eq_of_mem_distinctBy {l : List α} {a b : α} (ha : a ∈ distinctBy key l)
    (hb : b ∈ distinctBy key l) (h : key a = key b) : a = b :=
  List.inj_on_of_nodup_map (nodup_map_distinctBy l) ha hb h

theorem distinctFrom_of_nodup {seen : List κ} {l : List α} (h : (l.map key).Nodup)
    (hseen : ∀ a ∈ l, key a ∉ seen) : distinctFrom key seen l = l := by
  induction l generalizing seen with
  | nil => rfl
  | cons b l ih =>
      obtain ⟨hb, hl⟩ := List.nodup_cons.mp h
      rw [distinctFrom_cons_of_notMem (hseen b List.mem_cons_self)]
      refine congrArg (b :: ·) (ih hl fun a ha => ?_)
      rw [List.mem_cons, not_or]
      have hne : key a ≠ key b := fun hab => hb (hab ▸ List.mem_map_of_mem ha)
      exact ⟨hne, hseen a (List.mem_cons_of_mem b ha)⟩

/-- Nothing is left out of a list in which no two elements share a key. -/
theorem distinctBy_of_nodup {l : List α} (h : (l.map key).Nodup) : distinctBy key l = l :=
  distinctFrom_of_nodup h fun _ _ => List.not_mem_nil

/-- Where no two elements share a key, looking for a key finds the one that has it. -/
theorem find?_eq_some_of_nodup {l : List α} (h : (l.map key).Nodup) {k : κ} {a : α} :
    l.find? (fun b => key b == k) = some a ↔ a ∈ l ∧ key a = k := by
  constructor
  · intro hfirst
    have hkey := List.find?_some hfirst
    exact ⟨List.mem_of_find?_eq_some hfirst, eq_of_beq hkey⟩
  · rintro ⟨ha, rfl⟩
    rw [← distinctBy_of_nodup h] at ha
    exact mem_distinctBy.mp ha

/-- In a list of all elements, whose keys are different, each is found under its own key. -/
theorem find?_eq_some_iff_of_all {l : List α} (hkeys : (l.map key).Nodup) (hall : ∀ a, a ∈ l)
    {k : κ} {a : α} : l.find? (fun b => key b == k) = some a ↔ k = key a := by
  rw [find?_eq_some_of_nodup hkeys, and_iff_right (hall a), eq_comm]

/-- The first element with a key is there to be found among the distinct ones. -/
theorem find?_distinctBy (l : List α) (k : κ) :
    (distinctBy key l).find? (fun b => key b == k) = l.find? fun b => key b == k := by
  refine Option.ext fun a => ?_
  rw [find?_eq_some_of_nodup (nodup_map_distinctBy l), mem_distinctBy]
  constructor
  · rintro ⟨hfirst, rfl⟩
    exact hfirst
  · intro hfirst
    have hkey := List.find?_some hfirst
    obtain rfl : key a = k := eq_of_beq hkey
    exact ⟨hfirst, rfl⟩

/-- If elements with the same key are the same, only repetitions are left out. -/
theorem mem_distinctBy_of_injOn {l : List α} (h : ∀ a ∈ l, ∀ b ∈ l, key a = key b → a = b) {a : α} :
    a ∈ distinctBy key l ↔ a ∈ l := by
  refine ⟨mem_of_mem_distinctBy, fun ha => ?_⟩
  obtain ⟨b, hb, hkey⟩ : ∃ b ∈ distinctBy key l, key b = key a := exists_mem_distinctBy ha
  rwa [h b (mem_of_mem_distinctBy hb) a ha hkey] at hb

/-- The distinct elements of two lists are the same up to order if they are the same as a set. -/
theorem distinctBy_perm {l m : List α}
    (h : ∀ a, a ∈ distinctBy key l ↔ a ∈ distinctBy key m) :
    (distinctBy key l).Perm (distinctBy key m) :=
  (List.perm_ext_iff_of_nodup (nodup_distinctBy l) (nodup_distinctBy m)).mpr h

/-! ## Order -/

theorem distinctFrom_sublist (seen : List κ) (l : List α) :
    (distinctFrom key seen l).Sublist l := by
  induction l generalizing seen with
  | nil => exact .slnil
  | cons b l ih =>
      by_cases hseen : key b ∈ seen
      · rw [distinctFrom_cons_of_mem hseen]
        exact (ih seen).cons b
      · rw [distinctFrom_cons_of_notMem hseen]
        exact (ih _).cons_cons b

/-- The distinct elements stand in the order in which they came. -/
theorem distinctBy_sublist (l : List α) : (distinctBy key l).Sublist l :=
  distinctFrom_sublist [] l

theorem distinctFrom_map (seen : List κ) (l : List α) :
    distinctFrom id seen (l.map key) = (distinctFrom key seen l).map key := by
  induction l generalizing seen with
  | nil => rfl
  | cons b l ih =>
      rw [List.map_cons]
      by_cases hseen : key b ∈ seen
      · have hid : id (key b) ∈ seen := hseen
        rw [distinctFrom_cons_of_mem hseen, distinctFrom_cons_of_mem hid, ih]
      · have hid : id (key b) ∉ seen := hseen
        rw [distinctFrom_cons_of_notMem hseen, distinctFrom_cons_of_notMem hid, ih]
        rfl

/-- The distinct keys are the keys of the distinct elements. -/
theorem distinct_map (l : List α) : distinct (l.map key) = (distinctBy key l).map key :=
  distinctFrom_map [] l

theorem distinctFrom_isPrefix {seen : List κ} {l m : List α} {a : α} (hseen : key a ∉ seen)
    (h : ∀ b ∈ l, key b ≠ key a) :
    distinctFrom key seen l ++ [a] <+: distinctFrom key seen (l ++ a :: m) := by
  induction l generalizing seen with
  | nil =>
      rw [List.nil_append, distinctFrom_cons_of_notMem hseen]
      exact List.cons_prefix_cons.mpr ⟨rfl, List.nil_prefix⟩
  | cons b l ih =>
      obtain ⟨hb, hl⟩ := List.forall_mem_cons.mp h
      rw [List.cons_append]
      by_cases hbseen : key b ∈ seen
      · rw [distinctFrom_cons_of_mem hbseen, distinctFrom_cons_of_mem hbseen]
        exact ih hseen hl
      · rw [distinctFrom_cons_of_notMem hbseen, distinctFrom_cons_of_notMem hbseen]
        refine List.cons_prefix_cons.mpr ⟨rfl, ih ?_ hl⟩
        rw [List.mem_cons, not_or]
        exact ⟨hb.symm, hseen⟩

/-- The first element with its key comes right behind the distinct elements before it. -/
theorem distinctBy_isPrefix {l m : List α} {a : α} (h : ∀ b ∈ l, key b ≠ key a) :
    distinctBy key l ++ [a] <+: distinctBy key (l ++ a :: m) :=
  distinctFrom_isPrefix List.not_mem_nil h

theorem distinctFrom_concat_of_mem {seen : List κ} {l : List α} {a : α}
    (h : key a ∈ seen ∨ key a ∈ l.map key) :
    distinctFrom key seen (l ++ [a]) = distinctFrom key seen l := by
  induction l generalizing seen with
  | nil => exact distinctFrom_cons_of_mem (h.resolve_right List.not_mem_nil) []
  | cons b l ih =>
      rw [List.map_cons, List.mem_cons] at h
      rw [List.cons_append]
      by_cases hbseen : key b ∈ seen
      · rw [distinctFrom_cons_of_mem hbseen, distinctFrom_cons_of_mem hbseen]
        refine ih ?_
        rcases h with h | hab | h
        · exact .inl h
        · exact .inl (hab.symm ▸ hbseen)
        · exact .inr h
      · rw [distinctFrom_cons_of_notMem hbseen, distinctFrom_cons_of_notMem hbseen]
        refine congrArg (b :: ·) (ih ?_)
        rw [List.mem_cons, or_assoc, or_left_comm]
        exact h

theorem distinctBy_concat_of_mem {l : List α} {a : α} (h : key a ∈ l.map key) :
    distinctBy key (l ++ [a]) = distinctBy key l :=
  distinctFrom_concat_of_mem (.inr h)

/-! ## Blocks -/

/-- What is looked for lies in one block, so it is found where it stands first there. -/
theorem find?_flatMap {g : β → List α} {p : α → Bool} {bs : List β} {b : β} (hb : b ∈ bs)
    {x : α} (hx : x ∈ g b) (hpx : p x = true)
    (honly : ∀ c ∈ bs, ∀ y ∈ g c, p y = true → c = b) :
    (bs.flatMap g).find? p = (g b).find? p := by
  induction bs with
  | nil => exact absurd hb List.not_mem_nil
  | cons c cs ih =>
      rw [List.flatMap_cons, List.find?_append]
      cases hc : (g c).find? p with
      | some y =>
          have hcb := honly c List.mem_cons_self y (List.mem_of_find?_eq_some hc)
            (List.find?_some hc)
          rw [← hcb, hc, Option.some_or]
      | none =>
          have hne : b ≠ c := by
            rintro rfl
            exact List.find?_eq_none.mp hc x hx hpx
          rw [Option.none_or]
          exact ih ((List.mem_cons.mp hb).resolve_left hne)
            fun d hd => honly d (List.mem_cons_of_mem c hd)

theorem mem_distinctBy_flatMap {g : β → List α} {bs : List β}
    (hblocks : ∀ b ∈ bs, ∀ c ∈ bs, ∀ x ∈ g b, ∀ y ∈ g c, key x = key y → b = c) {a : α} :
    a ∈ distinctBy key (bs.flatMap g) ↔ ∃ b ∈ bs, a ∈ distinctBy key (g b) := by
  have hsame : ∀ b ∈ bs, a ∈ g b →
      (bs.flatMap g).find? (fun y => key y == key a) = (g b).find? (fun y => key y == key a) := by
    intro b hb ha
    refine find?_flatMap hb ha (beq_self_eq_true _) ?_
    intro c hc y hy hkey
    exact hblocks c hc b hb y hy a ha (eq_of_beq hkey)
  constructor
  · intro ha
    obtain ⟨b, hb, hab⟩ := List.mem_flatMap.mp (mem_of_mem_distinctBy ha)
    refine ⟨b, hb, mem_distinctBy.mpr ?_⟩
    rw [← hsame b hb hab]
    exact mem_distinctBy.mp ha
  · rintro ⟨b, hb, ha⟩
    rw [mem_distinctBy, hsame b hb (mem_of_mem_distinctBy ha)]
    exact mem_distinctBy.mp ha

/-! ## Lists without a common key -/

/-- Of the keys seen before, only those that come again matter. -/
theorem distinctFrom_congr {seen seen' : List κ} {l : List α}
    (h : ∀ a ∈ l, key a ∈ seen ↔ key a ∈ seen') :
    distinctFrom key seen l = distinctFrom key seen' l := by
  induction l generalizing seen seen' with
  | nil => rfl
  | cons b l ih =>
      have hb := h b List.mem_cons_self
      have hl : ∀ a ∈ l, key a ∈ seen ↔ key a ∈ seen' := fun a ha => h a (List.mem_cons_of_mem b ha)
      by_cases hseen : key b ∈ seen
      · rw [distinctFrom_cons_of_mem hseen, distinctFrom_cons_of_mem (hb.mp hseen), ih hl]
      · rw [distinctFrom_cons_of_notMem hseen, distinctFrom_cons_of_notMem (mt hb.mpr hseen)]
        refine congrArg (b :: ·) (ih fun a ha => ?_)
        rw [List.mem_cons, List.mem_cons, hl a ha]

theorem distinctFrom_append {seen : List κ} {l m : List α}
    (h : ∀ a ∈ l, ∀ b ∈ m, key a ≠ key b) :
    distinctFrom key seen (l ++ m) = distinctFrom key seen l ++ distinctFrom key seen m := by
  induction l generalizing seen with
  | nil => rfl
  | cons b l ih =>
      have hl : ∀ a ∈ l, ∀ c ∈ m, key a ≠ key c := fun a ha => h a (List.mem_cons_of_mem b ha)
      rw [List.cons_append]
      by_cases hseen : key b ∈ seen
      · rw [distinctFrom_cons_of_mem hseen, distinctFrom_cons_of_mem hseen, ih hl]
      · rw [distinctFrom_cons_of_notMem hseen, distinctFrom_cons_of_notMem hseen, ih hl,
          List.cons_append]
        refine congrArg (fun rest => b :: (_ ++ rest)) (distinctFrom_congr fun c hc => ?_)
        have hne : key c ≠ key b := (h b List.mem_cons_self c hc).symm
        rw [List.mem_cons, or_iff_right hne]

theorem distinctBy_append {l m : List α} (h : ∀ a ∈ l, ∀ b ∈ m, key a ≠ key b) :
    distinctBy key (l ++ m) = distinctBy key l ++ distinctBy key m :=
  distinctFrom_append h

/-! ## Some of the keys -/

theorem distinctFrom_filter (keep : κ → Bool) (seen : List κ) (l : List α) :
    distinctFrom key seen (l.filter fun a => keep (key a)) =
      (distinctFrom key seen l).filter fun a => keep (key a) := by
  induction l generalizing seen with
  | nil => rfl
  | cons b l ih =>
      by_cases hkeep : keep (key b) = true
      · have hcons (m : List α) : (b :: m).filter (fun a => keep (key a)) =
            b :: m.filter fun a => keep (key a) := List.filter_cons_of_pos hkeep
        rw [hcons]
        by_cases hseen : key b ∈ seen
        · rw [distinctFrom_cons_of_mem hseen, distinctFrom_cons_of_mem hseen, ih]
        · rw [distinctFrom_cons_of_notMem hseen, distinctFrom_cons_of_notMem hseen, ih, hcons]
      · have hcons (m : List α) : (b :: m).filter (fun a => keep (key a)) =
            m.filter fun a => keep (key a) := List.filter_cons_of_neg hkeep
        rw [hcons]
        by_cases hseen : key b ∈ seen
        · rw [distinctFrom_cons_of_mem hseen, ih]
        · rw [distinctFrom_cons_of_notMem hseen, hcons, ← ih]
          -- the key of `b` is noted, but nothing that is kept has it
          refine distinctFrom_congr fun a ha => ?_
          have hne : key a ≠ key b := fun h => hkeep (h ▸ (List.mem_filter.mp ha).2)
          rw [List.mem_cons, or_iff_right hne]

theorem distinctBy_filter (keep : κ → Bool) (l : List α) :
    distinctBy key (l.filter fun a => keep (key a)) =
      (distinctBy key l).filter fun a => keep (key a) :=
  distinctFrom_filter keep [] l

/-! ## Lists that correspond -/

theorem forall₂_distinctFrom {R : α → α → Prop} {φ : κ → κ} (hφ : Function.Injective φ)
    (hkey : ∀ a b, R a b → key b = φ (key a)) {l m : List α} (h : List.Forall₂ R l m)
    (seen : List κ) :
    List.Forall₂ R (distinctFrom key seen l) (distinctFrom key (seen.map φ) m) := by
  induction h generalizing seen with
  | nil => exact .nil
  | @cons a b l m hab _ ih =>
      have hseen : key b ∈ seen.map φ ↔ key a ∈ seen := by
        rw [hkey a b hab, List.mem_map_of_injective hφ]
      by_cases ha : key a ∈ seen
      · rw [distinctFrom_cons_of_mem ha, distinctFrom_cons_of_mem (hseen.mpr ha)]
        exact ih seen
      · rw [distinctFrom_cons_of_notMem ha, distinctFrom_cons_of_notMem (mt hseen.mp ha),
          hkey a b hab, ← List.map_cons]
        exact .cons hab (ih (key a :: seen))

theorem forall₂_distinctBy {R : α → α → Prop} {φ : κ → κ} (hφ : Function.Injective φ)
    (hkey : ∀ a b, R a b → key b = φ (key a)) {l m : List α} (h : List.Forall₂ R l m) :
    List.Forall₂ R (distinctBy key l) (distinctBy key m) :=
  forall₂_distinctFrom hφ hkey h []

end DistinctBy

/-! ## Elements that are their own keys -/

section Distinct

variable {α : Type} [BEq α] [LawfulBEq α]

theorem mem_distinct {l : List α} {a : α} : a ∈ distinct l ↔ a ∈ l := by
  refine ⟨mem_of_mem_distinctBy, fun ha => ?_⟩
  obtain ⟨b, hb, rfl⟩ : ∃ b ∈ distinct l, id b = id a := exists_mem_distinctBy ha
  exact hb

theorem distinct_perm {l m : List α} (h : ∀ a, a ∈ l ↔ a ∈ m) :
    (distinct l).Perm (distinct m) :=
  distinctBy_perm fun a => mem_distinct.trans ((h a).trans mem_distinct.symm)

theorem distinct_append {l m : List α} (h : ∀ a ∈ l, ∀ b ∈ m, a ≠ b) :
    distinct (l ++ m) = distinct l ++ distinct m :=
  distinctBy_append h

theorem distinct_filter (keep : α → Bool) (l : List α) :
    distinct (l.filter keep) = (distinct l).filter keep :=
  distinctBy_filter keep l

theorem length_distinct [DecidableEq α] (l : List α) : (distinct l).length = l.toFinset.card := by
  have hset : (distinct l).toFinset = l.toFinset := by
    ext a
    rw [List.mem_toFinset, List.mem_toFinset, mem_distinct]
  have hnodup : (distinct l).Nodup := nodup_distinctBy l
  rw [← hset, List.toFinset_card_of_nodup hnodup]

end Distinct

theorem mem_sortedSet {texts : List String} {text : String} :
    text ∈ sortedSet texts ↔ text ∈ texts := by
  rw [sortedSet, List.mem_mergeSort, mem_distinct]

/-- Sorting by texts that differ takes away every other order. -/
theorem mergeSort_eq_of_perm {α : Type} (key : α → String) {l m : List α} (h : m.Perm l)
    (hkey : ∀ a ∈ l, ∀ b ∈ l, key a = key b → a = b) :
    m.mergeSort (fun a b => decide (key a ≤ key b)) =
      l.mergeSort fun a b => decide (key a ≤ key b) := by
  have hsorted (l : List α) : (l.mergeSort fun a b => decide (key a ≤ key b)).Pairwise
      fun a b => decide (key a ≤ key b) = true := by
    refine List.pairwise_mergeSort (fun a b c hab hbc => ?_) (fun a b => ?_) l
    · rw [decide_eq_true_eq] at hab hbc ⊢
      exact String.le_trans hab hbc
    · rw [Bool.or_eq_true, decide_eq_true_eq, decide_eq_true_eq]
      exact String.le_total (key a) (key b)
  refine List.Perm.eq_of_pairwise (fun a b ha hb hab hba => ?_) (hsorted m) (hsorted l) ?_
  · refine hkey a (h.mem_iff.mp (List.mem_mergeSort.mp ha)) b (List.mem_mergeSort.mp hb) ?_
    exact String.le_antisymm (of_decide_eq_true hab) (of_decide_eq_true hba)
  · exact (List.mergeSort_perm _ _).trans (h.trans (List.mergeSort_perm _ _).symm)

/-- Lists with the same texts make the same set. -/
theorem sortedSet_eq_of_perm {l m : List String} (h : l.Perm m) : sortedSet l = sortedSet m :=
  mergeSort_eq_of_perm id (distinct_perm fun _ => h.mem_iff) fun _ _ _ _ hab => hab

/-! ## Entries under names -/

section Put

variable {α : Type} {name : String} {a : α}

theorem lookup_cons_eq_ite (k : String) (b : α) (entries : List (String × α)) (key : String) :
    ((k, b) :: entries).lookup key = if key = k then some b else entries.lookup key := by
  rw [List.lookup_cons]
  by_cases hkey : key = k
  · rw [beq_iff_eq.mpr hkey, if_pos hkey]
  · rw [beq_false_of_ne hkey, if_neg hkey]

theorem lookup_put (entries : List (String × α)) (key : String) :
    (put name a entries).lookup key = if key = name then some a else entries.lookup key := by
  induction entries with
  | nil => exact lookup_cons_eq_ite name a [] key
  | cons entry entries ih =>
      obtain ⟨k, b⟩ := entry
      rw [put, putBy, ← put]
      by_cases hk : k = name
      · rw [if_pos (beq_iff_eq.mpr hk), lookup_cons_eq_ite, lookup_cons_eq_ite, hk]
        split <;> rfl
      · rw [if_neg (by simpa using hk), lookup_cons_eq_ite, lookup_cons_eq_ite, ih]
        -- no key is both the name and the one in front
        by_cases hkey : key = k
        · have hne : key ≠ name := hkey ▸ hk
          rw [if_pos hkey, if_neg hne, if_pos hkey]
        · rw [if_neg hkey, if_neg hkey]

theorem map_fst_put (entries : List (String × α)) :
    (put name a entries).map (·.1) =
      if name ∈ entries.map (·.1) then entries.map (·.1) else entries.map (·.1) ++ [name] := by
  induction entries with
  | nil => rfl
  | cons entry entries ih =>
      obtain ⟨k, b⟩ := entry
      rw [put, putBy, ← put]
      by_cases hk : k = name
      · rw [if_pos (beq_iff_eq.mpr hk), if_pos (hk ▸ List.mem_cons_self)]
        rfl
      · rw [if_neg (by simpa using hk), List.map_cons, ih]
        simp only [List.map_cons, List.mem_cons, Ne.symm hk, false_or]
        split <;> rfl

theorem put_of_notMem {entries : List (String × α)} (h : name ∉ entries.map (·.1)) :
    put name a entries = entries ++ [(name, a)] := by
  induction entries with
  | nil => rfl
  | cons entry entries ih =>
      rw [List.map_cons, List.mem_cons, not_or] at h
      rw [put, putBy, ← put, if_neg (by simpa using Ne.symm h.1), ih h.2, List.cons_append]

/-- The order of entries does not matter if no two of them are under one name. -/
theorem lookup_eq_of_perm {l m : List (String × α)} (hperm : l.Perm m)
    (h : (l.map (·.1)).Nodup) (key : String) : l.lookup key = m.lookup key := by
  induction hperm with
  | nil => rfl
  | cons entry _ ih =>
      obtain ⟨-, hrest⟩ := List.nodup_cons.mp h
      rw [lookup_cons_eq_ite entry.1 entry.2, lookup_cons_eq_ite entry.1 entry.2, ih hrest]
  | swap first second _ =>
      have hne : second.1 ≠ first.1 := fun hsame =>
        (List.nodup_cons.mp h).1 (List.mem_cons.mpr (.inl hsame))
      rw [lookup_cons_eq_ite second.1 second.2, lookup_cons_eq_ite first.1 first.2,
        lookup_cons_eq_ite first.1 first.2, lookup_cons_eq_ite second.1 second.2]
      by_cases hkey : key = second.1
      · rw [if_pos hkey, if_neg (hkey ▸ hne), if_pos hkey]
      · rw [if_neg hkey, if_neg hkey]
  | trans hfirst _ ih ih' =>
      rw [ih h, ih' ((hfirst.map (·.1)).nodup_iff.mp h)]

/-- Of entries put one after another the last one with a key counts. -/
theorem lookup_foldl_put (later entries : List (String × α)) (key : String) :
    (later.foldl (fun entries entry => put entry.1 entry.2 entries) entries).lookup key =
      (later.reverse.lookup key).or (entries.lookup key) := by
  induction later generalizing entries with
  | nil => rfl
  | cons entry later ih =>
      rw [List.foldl_cons, ih, lookup_put, List.reverse_cons, List.lookup_append,
        lookup_cons_eq_ite, List.lookup_nil, Option.or_assoc]
      split
      · rw [Option.some_or]
      · rw [Option.none_or]

theorem nodup_map_fst_put {entries : List (String × α)} (h : (entries.map (·.1)).Nodup) :
    ((put name a entries).map (·.1)).Nodup := by
  rw [map_fst_put]
  split
  · exact h
  · next hnew =>
      rw [List.nodup_append]
      refine ⟨h, List.nodup_singleton name, fun key hkey other hother => ?_⟩
      rw [List.mem_singleton.mp hother]
      rintro rfl
      exact hnew hkey

end Put

end ContainerAudit
