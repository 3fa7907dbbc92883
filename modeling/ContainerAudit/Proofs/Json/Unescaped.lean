import ContainerAudit.Proofs.Json.RoundTrip

/-!
# Texts put between quotes as they are

A text that is put between quotes without escaping need not be read back.  It is, exactly if none of
its characters has to be escaped (`stringRest_quoted_iff`), and the same holds of a list of texts
that is written as an array (`read?_quotedArray_iff`).

That nothing else is read back is a matter of counting.  An escape is longer than the character it
stands for, so a text that is spelled by itself is spelled without any; and a quote is spelled only
by an escape that holds it, so reading cannot go on behind a quote and still give the text.
-/

namespace ContainerAudit.Json

/-- A character that stands for itself between quotes. -/
def IsPlain (c : Char) : Prop :=
  c ≠ '"' ∧ c ≠ '\\' ∧ 0x20 ≤ c.toNat

/-! ## Spellings -/

/-- What stands between quotes, and the text it spells.  Of an escape it only matters that it takes
two characters at least, and that it holds a quote only if it spells one. -/
inductive Spells : List Char → List Char → Prop
  | nil : Spells [] []
  | plain {c : Char} {spelling s : List Char} : IsPlain c → Spells spelling s →
      Spells (c :: spelling) (c :: s)
  | escape {c : Char} {code spelling s : List Char} : 2 ≤ code.length →
      code.count '"' ≤ [c].count '"' → Spells spelling s → Spells (code ++ spelling) (c :: s)

theorem Spells.length_le {spelling s : List Char} (h : Spells spelling s) :
    s.length ≤ spelling.length := by
  induction h with
  | nil => exact Nat.le_refl 0
  | plain _ _ ih => exact Nat.succ_le_succ ih
  | escape hlength _ _ ih =>
      rw [List.length_append, List.length_cons]
      omega

theorem Spells.count_le {spelling s : List Char} (h : Spells spelling s) :
    spelling.count '"' ≤ s.count '"' := by
  induction h with
  | nil => exact Nat.le_refl 0
  | plain _ _ ih =>
      rw [List.count_cons, List.count_cons]
      exact Nat.add_le_add_right ih _
  | @escape c code spelling s _ hcount _ ih =>
      show (code ++ spelling).count '"' ≤ ([c] ++ s).count '"'
      rw [List.count_append, List.count_append]
      exact Nat.add_le_add hcount ih

/-- A spelling that is no longer than its text is the text itself. -/
theorem Spells.eq_of_length_eq {spelling s : List Char} (h : Spells spelling s)
    (hlength : spelling.length = s.length) : spelling = s ∧ ∀ c ∈ s, IsPlain c := by
  induction h with
  | nil => exact ⟨rfl, by simp⟩
  | plain hc _ ih =>
      obtain ⟨rfl, hs⟩ := ih (Nat.succ.inj hlength)
      exact ⟨rfl, List.forall_mem_cons.mpr ⟨hc, hs⟩⟩
  | escape hcode _ hspells _ =>
      have hle := hspells.length_le
      rw [List.length_append, List.length_cons] at hlength
      omega

/-! ## Reading a spelling -/

theorem ne_quote_of_hexValue? {c : Char} {n : Nat} (h : hexValue? c = some n) : c ≠ '"' := by
  rintro rfl
  have hnone : hexValue? '"' = none := by decide
  rw [hnone] at h
  exact absurd h (by simp)

theorem count_quote_unit {a b c d : Char} {n : Nat} (h : unit? a b c d = some n) :
    ['\\', 'u', a, b, c, d].count '"' = 0 := by
  simp only [unit?, Option.bind_eq_bind, Option.bind_eq_some_iff] at h
  obtain ⟨_, ha, _, hb, _, hc, _, hd, -⟩ := h
  refine List.count_eq_zero.mpr fun hmem => ?_
  simp only [List.mem_cons, List.not_mem_nil, or_false] at hmem
  rcases hmem with h | h | rfl | rfl | rfl | rfl
  · exact absurd h (by decide)
  · exact absurd h (by decide)
  · exact ne_quote_of_hexValue? ha rfl
  · exact ne_quote_of_hexValue? hb rfl
  · exact ne_quote_of_hexValue? hc rfl
  · exact ne_quote_of_hexValue? hd rfl

theorem prepend_eq_some {c : Char} {o : Option (List Char × List Char)} {s r : List Char}
    (h : prepend c o = some (s, r)) : ∃ s', o = some (s', r) ∧ s = c :: s' := by
  cases o with
  | none => exact absurd h (by simp [prepend])
  | some p =>
      obtain ⟨s', r'⟩ := p
      obtain ⟨rfl, rfl⟩ := Prod.mk.inj (Option.some.inj h)
      exact ⟨s', rfl, rfl⟩

/-- An escape and the character it stands for: a short one, a unit or a pair of units.  Which
character a unit stands for is left open. -/
inductive IsEscape : List Char → Char → Prop
  | short {c e : Char} : shortEscape? c = some e → IsEscape ['\\', c] e
  | unit {a b c d e : Char} {n : Nat} : unit? a b c d = some n →
      IsEscape ['\\', 'u', a, b, c, d] e
  | pair {a b c d a' b' c' d' e : Char} {n m : Nat} : unit? a b c d = some n →
      unit? a' b' c' d' = some m →
      IsEscape (['\\', 'u', a, b, c, d] ++ ['\\', 'u', a', b', c', d']) e

/-- What is read between quotes stands there character by character, up to the quote in front of the
rest. -/
theorem exists_spelling_of_stringRest {motive : List Char → List Char → Prop} (hnil : motive [] [])
    (hplain : ∀ {c spelling s}, IsPlain c → motive spelling s → motive (c :: spelling) (c :: s))
    (hescape : ∀ {c code spelling s}, IsEscape code c → motive spelling s →
      motive (code ++ spelling) (c :: s))
    {t s r : List Char} (h : stringRest t = some (s, r)) :
    ∃ spelling, t = spelling ++ '"' :: r ∧ motive spelling s := by
  fun_induction stringRest t generalizing s with
  | case1 rest =>
      obtain ⟨rfl, rfl⟩ := Prod.mk.inj (Option.some.inj h)
      exact ⟨[], rfl, hnil⟩
  | case2 a b c d e f g i rest n m hm hn _ ih =>
      obtain ⟨s, hs, rfl⟩ := prepend_eq_some h
      obtain ⟨spelling, rfl, hspelling⟩ := ih hs
      exact ⟨_, rfl, hescape (.pair hn hm) hspelling⟩
  | case3 a b c d e f g i rest n m hm hn _ ih =>
      obtain ⟨s, hs, rfl⟩ := prepend_eq_some h
      obtain ⟨spelling, hrest, hspelling⟩ := ih hs
      refine ⟨_, ?_, hescape (.unit hn) hspelling⟩
      rw [List.append_assoc, ← hrest]
      rfl
  | case4 => exact absurd h (by simp)
  | case5 a b c d rest _ n hn ih =>
      obtain ⟨s, hs, rfl⟩ := prepend_eq_some h
      obtain ⟨spelling, rfl, hspelling⟩ := ih hs
      exact ⟨_, rfl, hescape (.unit hn) hspelling⟩
  | case6 => exact absurd h (by simp)
  | case7 c rest _ _ e he ih =>
      obtain ⟨s, hs, rfl⟩ := prepend_eq_some h
      obtain ⟨spelling, rfl, hspelling⟩ := ih hs
      exact ⟨_, rfl, hescape (.short he) hspelling⟩
  | case8 => exact absurd h (by simp)
  | case9 => exact absurd h (by simp)
  | case10 c rest hquote _ _ _ hc ih =>
      obtain ⟨s, hs, rfl⟩ := prepend_eq_some h
      obtain ⟨spelling, rfl, hspelling⟩ := ih hs
      obtain ⟨hslash, hcontrol⟩ := not_or.mp hc
      exact ⟨c :: spelling, rfl, hplain ⟨hquote, hslash, Nat.not_lt.mp hcontrol⟩ hspelling⟩
  | case11 => exact absurd h (by simp)

theorem IsEscape.two_le_length {code : List Char} {e : Char} (h : IsEscape code e) :
    2 ≤ code.length := by
  cases h <;> simp

/-- An escape holds a quote only if it stands for one. -/
theorem IsEscape.count_quote_le {code : List Char} {e : Char} (h : IsEscape code e) :
    code.count '"' ≤ [e].count '"' := by
  cases h with
  | @short c _ he =>
      by_cases hc : c = '"'
      · subst hc
        obtain rfl : '"' = e := Option.some.inj he
        decide
      · have hnone : ['\\', c].count '"' = 0 :=
          List.count_eq_zero.mpr (by simp [Ne.symm hc])
        exact hnone.trans_le (Nat.zero_le _)
  | unit hn => exact (count_quote_unit hn).trans_le (Nat.zero_le _)
  | pair hn hm =>
      rw [List.count_append, count_quote_unit hn, count_quote_unit hm]
      exact Nat.zero_le _

theorem exists_spells_of_stringRest {t s r : List Char} (h : stringRest t = some (s, r)) :
    ∃ spelling, t = spelling ++ '"' :: r ∧ Spells spelling s :=
  exists_spelling_of_stringRest .nil .plain
    (fun hcode hspells => .escape hcode.two_le_length hcode.count_quote_le hspells) h

/-- A text is read back from between quotes exactly if all its characters stand for themselves. -/
theorem stringRest_quoted_iff {w rest r : List Char} :
    stringRest (w ++ '"' :: rest) = some (w, r) ↔ (∀ c ∈ w, IsPlain c) ∧ r = rest := by
  constructor
  · intro h
    obtain ⟨spelling, hsplit, hspells⟩ := exists_spells_of_stringRest h
    rcases Nat.eq_or_lt_of_le hspells.length_le with hlength | hlength
    · obtain ⟨rfl, hplain⟩ := hspells.eq_of_length_eq hlength.symm
      exact ⟨hplain, (List.cons.inj (List.append_cancel_left hsplit)).2.symm⟩
    · -- The spelling goes on behind the quote that closes the text, so it has one more quote.
      have hbegins : w ++ ['"'] <+: spelling := by
        have hwhole : w ++ ['"'] <+: w ++ '"' :: rest := ⟨rest, by simp⟩
        refine List.prefix_of_prefix_length_le hwhole ⟨'"' :: r, hsplit.symm⟩ ?_
        rw [List.length_append, List.length_singleton]
        exact hlength
      have hmore := hbegins.sublist.count_le '"'
      rw [List.count_append, List.count_singleton_self] at hmore
      have hfewer := hspells.count_le
      omega
  · rintro ⟨hplain, rfl⟩
    induction w with
    | nil => rw [List.nil_append, stringRest]
    | cons c w ih =>
        obtain ⟨⟨hquote, hslash, hcontrol⟩, hplain⟩ := List.forall_mem_cons.mp hplain
        exact stringRest_plain hquote hslash hcontrol (ih hplain)

/-! ## Arrays -/

def quoted (w : List Char) : List Char :=
  '"' :: (w ++ ['"'])

theorem quoted_append (w rest : List Char) : quoted w ++ rest = '"' :: (w ++ '"' :: rest) := by
  simp [quoted]

/-- Texts between quotes, with a comma and a blank between two of them. -/
def quotedItems (ws : List (List Char)) : List Char :=
  [',', ' '].intercalate (ws.map quoted)

theorem quotedItems_singleton (w : List Char) : quotedItems [w] = quoted w := by
  simp [quotedItems]

theorem quotedItems_cons_cons (w v : List Char) (ws : List (List Char)) :
    quotedItems (w :: v :: ws) = quoted w ++ ',' :: ' ' :: quotedItems (v :: ws) := by
  simp [quotedItems]

theorem starts_quotedItems (w : List Char) (ws : List (List Char)) :
    Starts (quotedItems (w :: ws)) := by
  have hquoted : Starts (quoted w) := ⟨'"', w ++ ['"'], rfl, by decide⟩
  cases ws with
  | nil => rwa [quotedItems_singleton]
  | cons v ws =>
      rw [quotedItems_cons_cons]
      exact hquoted.append _

theorem value_quoted_iff {fuel : Nat} {w rest r : List Char} :
    value (fuel + 1) (quoted w ++ rest) = some (str (String.ofList w), r) ↔
      (∀ c ∈ w, IsPlain c) ∧ r = rest := by
  rw [quoted_append, value, Option.map_eq_some_iff, ← stringRest_quoted_iff]
  constructor
  · rintro ⟨⟨s, after⟩, hs, heq⟩
    obtain ⟨hw, rfl⟩ := Prod.mk.inj heq
    obtain rfl : s = w := String.ofList_injective (Json.str.inj hw)
    exact hs
  · intro h
    exact ⟨(w, r), h, rfl⟩

/-- An item is followed by the end of the array or by a comma and the other items. -/
theorem items_cons {fuel : Nat} {s after : List Char} {j : Json} {js : List Json}
    (h : items (fuel + 1) s = some (j :: js, after)) :
    ∃ rest, value fuel s = some (j, rest) ∧
      (js = [] ∧ skipBlanks rest = ']' :: after ∨
        ∃ more, skipBlanks rest = ',' :: more ∧
          items fuel (skipBlanks more) = some (js, after)) := by
  rw [items] at h
  split at h
  · exact absurd h (by simp)
  · next first rest hvalue =>
      split at h
      · next hend =>
          obtain ⟨hjs, rfl⟩ := Prod.mk.inj (Option.some.inj h)
          obtain ⟨rfl, rfl⟩ := List.cons.inj hjs
          exact ⟨rest, hvalue, .inl ⟨rfl, hend⟩⟩
      · next more hcomma =>
          split at h
          · next others _ hitems =>
              obtain ⟨hjs, rfl⟩ := Prod.mk.inj (Option.some.inj h)
              obtain ⟨rfl, rfl⟩ := List.cons.inj hjs
              exact ⟨rest, hvalue, .inr ⟨more, hcomma, hitems⟩⟩
          · exact absurd h (by simp)
      · exact absurd h (by simp)

def texts (ws : List (List Char)) : List Json :=
  ws.map fun w => str (String.ofList w)

theorem items_quotedItems_iff {fuel : Nat} {w after tail : List Char} {ws : List (List Char)}
    (hfuel : ws.length + 1 < fuel) :
    items fuel (quotedItems (w :: ws) ++ ']' :: tail) = some (texts (w :: ws), after) ↔
      (∀ v ∈ w :: ws, ∀ c ∈ v, IsPlain c) ∧ after = tail := by
  induction ws generalizing w fuel with
  | nil =>
      obtain ⟨fuel, rfl⟩ : ∃ n, fuel = n + 2 := ⟨fuel - 2, by simp at hfuel; omega⟩
      rw [quotedItems_singleton, List.forall_mem_singleton]
      constructor
      · intro h
        obtain ⟨rest, hvalue, ⟨-, hend⟩ | ⟨more, hcomma, -⟩⟩ := items_cons h
        · obtain ⟨hplain, rfl⟩ := value_quoted_iff.mp hvalue
          exact ⟨hplain, (List.cons.inj hend).2.symm⟩
        · obtain ⟨-, rfl⟩ := value_quoted_iff.mp hvalue
          exact absurd (List.cons.inj hcomma).1 (by decide)
      · rintro ⟨hplain, rfl⟩
        exact items_last (value_quoted_iff.mpr ⟨hplain, rfl⟩) rfl
  | cons v ws ih =>
      obtain ⟨fuel, rfl⟩ : ∃ n, fuel = n + 2 := ⟨fuel - 2, by simp at hfuel; omega⟩
      have hnext : skipBlanks (' ' :: (quotedItems (v :: ws) ++ ']' :: tail)) =
          quotedItems (v :: ws) ++ ']' :: tail :=
        ((starts_quotedItems v ws).append (']' :: tail)).skipBlanks_eq
      have ih := @ih (fuel + 1) v (by simp at hfuel ⊢; omega)
      rw [quotedItems_cons_cons, List.append_assoc, List.forall_mem_cons]
      constructor
      · intro h
        obtain ⟨rest, hvalue, ⟨hnil, -⟩ | ⟨more, hcomma, hitems⟩⟩ := items_cons h
        · exact absurd hnil (by simp)
        · obtain ⟨hplain, rfl⟩ := value_quoted_iff.mp hvalue
          obtain rfl := (List.cons.inj hcomma).2
          obtain ⟨hothers, hafter⟩ := ih.mp (hnext ▸ hitems)
          exact ⟨⟨hplain, hothers⟩, hafter⟩
      · rintro ⟨⟨hplain, hothers⟩, hafter⟩
        refine items_more (value_quoted_iff.mpr ⟨hplain, rfl⟩) rfl ?_
        exact hnext.symm ▸ ih.mpr ⟨hothers, hafter⟩

theorem length_le_quotedItems (ws : List (List Char)) : ws.length ≤ (quotedItems ws).length := by
  induction ws with
  | nil => exact Nat.zero_le _
  | cons w ws ih =>
      cases ws with
      | nil => simp [quotedItems_singleton, quoted]
      | cons v ws =>
          rw [quotedItems_cons_cons, List.length_append]
          simp only [List.length_cons, quoted] at ih ⊢
          omega

/-- The array of some texts is read back exactly if all their characters stand for themselves. -/
theorem read?_quotedArray_iff {ws : List (List Char)} (hne : ws ≠ []) :
    read? ('[' :: (quotedItems ws ++ [']'])) = some (arr (texts ws)) ↔
      ∀ w ∈ ws, ∀ c ∈ w, IsPlain c := by
  obtain ⟨w, ws, rfl⟩ := List.exists_cons_of_ne_nil hne
  have hstarts := (starts_quotedItems w ws).append [']']
  have hself : skipBlanks (quotedItems (w :: ws) ++ [']']) = quotedItems (w :: ws) ++ [']'] :=
    hstarts.skipBlanks_eq
  obtain ⟨fuel, hfuel, henough⟩ : ∃ fuel,
      2 * ('[' :: (quotedItems (w :: ws) ++ [']'])).length + 2 = fuel + 1 ∧
        ws.length + 1 < fuel := by
    have := length_le_quotedItems (w :: ws)
    simp only [List.length_cons, List.length_append] at this ⊢
    exact ⟨_, rfl, by omega⟩
  have hvalue : value (fuel + 1) (skipBlanks ('[' :: (quotedItems (w :: ws) ++ [']']))) =
      (items fuel (quotedItems (w :: ws) ++ [']'])).map fun found => (arr found.1, found.2) := by
    show value (fuel + 1) ('[' :: (quotedItems (w :: ws) ++ [']'])) = _
    rw [value_arr (by rwa [hself]), hself]
  rw [read?, hfuel, hvalue]
  constructor
  · intro h
    cases hitems : items fuel (quotedItems (w :: ws) ++ [']']) with
    | none =>
        rw [hitems] at h
        exact absurd h (by simp)
    | some found =>
        obtain ⟨values, after⟩ := found
        simp only [hitems, Option.map_some, Option.ite_none_right_eq_some, Option.some.injEq,
          Json.arr.injEq] at h
        obtain ⟨-, rfl⟩ := h
        exact ((items_quotedItems_iff henough).mp hitems).1
  · intro hplain
    rw [(items_quotedItems_iff henough).mpr ⟨hplain, rfl⟩]
    rfl

end ContainerAudit.Json
