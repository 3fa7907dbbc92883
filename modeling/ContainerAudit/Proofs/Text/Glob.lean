import ContainerAudit.Text.Glob
import Mathlib.Data.List.Basic

/-!
# What file name patterns match

The table of matched endings decides the relation `GlobFits`, in which each item of a pattern takes
its own part of the text (`matchItems_iff_fits`).  Of a text that fits, the characters written out
at the front and at the end of the pattern can be read off, whatever stands between them.  So
patterns whose fronts or ends contradict each other match no text in common
(`not_globMatches_both`).
-/

namespace ContainerAudit.Text

/-- The items fit the text: `*` takes any part of it, and each other item one character. -/
inductive GlobFits : List GlobItem → List Char → Prop
  | done : GlobFits [] []
  | one {item : GlobItem} {items : List GlobItem} {c : Char} {s : List Char} : item ≠ .anyText →
      item.accepts c = true → GlobFits items s → GlobFits (item :: items) (c :: s)
  | any {items : List GlobItem} {s : List Char} (t : List Char) : GlobFits items s →
      GlobFits (.anyText :: items) (t ++ s)

/-! ## The table of matched endings -/

theorem matchedEndings_one {item : GlobItem} (h : item ≠ .anyText) (items : List GlobItem)
    (s : List Char) :
    matchedEndings (item :: items) s = List.zipWith (fun c mark => item.accepts c && mark) s
      (matchedEndings items s).tail ++ [false] := by
  cases item with
  | anyText => exact absurd rfl h
  | _ => rfl

theorem matchedEndings_nil (items : List GlobItem) :
    matchedEndings items [] = [matchItems items []] := by
  induction items with
  | nil => rfl
  | cons item items ih =>
      by_cases hitem : item = .anyText
      · rw [matchItems, hitem, matchedEndings, ih]
        rfl
      · rw [matchItems, matchedEndings_one hitem]
        rfl

/-- The endings of a text are the text itself and the endings of what comes behind its first
character. -/
theorem matchedEndings_cons (items : List GlobItem) (c : Char) (s : List Char) :
    matchedEndings items (c :: s) = matchItems items (c :: s) :: matchedEndings items s := by
  induction items generalizing c s with
  | nil => rfl
  | cons item items ih =>
      by_cases hitem : item = .anyText
      · rw [matchItems, hitem, matchedEndings, matchedEndings, ih]
        rfl
      · obtain ⟨mark, marks, hmarks⟩ : ∃ mark marks, matchedEndings items s = mark :: marks := by
          cases s with
          | nil => exact ⟨_, _, matchedEndings_nil items⟩
          | cons d s => exact ⟨_, _, ih d s⟩
        rw [matchItems, matchedEndings_one hitem, matchedEndings_one hitem, ih, List.tail_cons,
          hmarks]
        rfl

/-! ## Matching item by item -/

theorem matchItems_anyText_nil (items : List GlobItem) :
    matchItems (.anyText :: items) [] = matchItems items [] := by
  rw [matchItems, matchedEndings, matchedEndings_nil]
  exact Bool.or_false _

theorem matchItems_anyText_cons (items : List GlobItem) (c : Char) (s : List Char) :
    matchItems (.anyText :: items) (c :: s) =
      (matchItems items (c :: s) || matchItems (.anyText :: items) s) := by
  rw [matchItems, matchedEndings, matchedEndings_cons]
  rfl

theorem matchItems_one_nil {item : GlobItem} (h : item ≠ .anyText) (items : List GlobItem) :
    matchItems (item :: items) [] = false := by
  rw [matchItems, matchedEndings_one h]
  rfl

theorem matchItems_one_cons {item : GlobItem} (h : item ≠ .anyText) (items : List GlobItem)
    (c : Char) (s : List Char) :
    matchItems (item :: items) (c :: s) = (item.accepts c && matchItems items s) := by
  rw [matchItems, matchedEndings_one h, matchedEndings_cons, List.tail_cons, matchItems]
  cases s with
  | nil => rw [matchedEndings_nil]; rfl
  | cons d s => rw [matchedEndings_cons]; rfl

theorem matchItems_iff_fits {items : List GlobItem} {s : List Char} :
    matchItems items s = true ↔ GlobFits items s := by
  constructor
  · intro h
    induction items generalizing s with
    | nil =>
        cases s with
        | nil => exact .done
        | cons c s => cases h
    | cons item items ih =>
        by_cases hitem : item = .anyText
        · subst hitem
          -- `*` takes one character after the other, until the rest fits
          induction s with
          | nil => exact .any [] (ih (matchItems_anyText_nil items ▸ h))
          | cons c s ihs =>
              rw [matchItems_anyText_cons, Bool.or_eq_true] at h
              rcases h with h | h
              · exact .any [] (ih h)
              · cases ihs h with
                | one hitem => exact absurd rfl hitem
                | any t hrest => exact .any (c :: t) hrest
        · cases s with
          | nil => rw [matchItems_one_nil hitem] at h; cases h
          | cons c s =>
              rw [matchItems_one_cons hitem, Bool.and_eq_true] at h
              exact .one hitem h.1 (ih h.2)
  · intro h
    induction h with
    | done => rfl
    | one hitem hc _ ih => rw [matchItems_one_cons hitem, hc, ih]; rfl
    | @any items s t _ ih =>
        induction t with
        | nil =>
            cases s with
            | nil => exact (matchItems_anyText_nil items).trans ih
            | cons c s => rw [List.nil_append, matchItems_anyText_cons, ih, Bool.true_or]
        | cons c t iht => rw [List.cons_append, matchItems_anyText_cons, iht, Bool.or_true]

/-! ## Fronts and ends -/

theorem GlobFits.append {items items' : List GlobItem} {s s' : List Char} (h : GlobFits items s)
    (h' : GlobFits items' s') : GlobFits (items ++ items') (s ++ s') := by
  induction h with
  | done => exact h'
  | one hitem hc _ ih => exact .one hitem hc ih
  | any t _ ih => exact List.append_assoc t _ s' ▸ .any t ih

/-- A text read backwards fits the pattern read backwards. -/
theorem GlobFits.reverse {items : List GlobItem} {s : List Char} (h : GlobFits items s) :
    GlobFits items.reverse s.reverse := by
  induction h with
  | done => exact .done
  | one hitem hc _ ih =>
      rw [List.reverse_cons, List.reverse_cons]
      exact ih.append (.one hitem hc .done)
  | any t _ ih =>
      rw [List.reverse_cons, List.reverse_append]
      exact ih.append (List.append_nil t.reverse ▸ .any t.reverse .done)

/-- The characters written out at the front of a pattern. -/
def stem : List GlobItem → List Char
  | .literal c :: items => c :: stem items
  | _ => []

theorem GlobFits.stem_isPrefix {items : List GlobItem} {s : List Char} (h : GlobFits items s) :
    stem items <+: s := by
  induction h with
  | done => exact List.nil_prefix
  | @one item items c s _ hc _ ih =>
      cases item with
      | literal d =>
          obtain rfl : c = d := by simpa [GlobItem.accepts] using hc
          exact List.cons_prefix_cons.mpr ⟨rfl, ih⟩
      | _ => exact List.nil_prefix
  | any => exact List.nil_prefix

/-- Neither text continues the other. -/
def Clash (s t : List Char) : Prop :=
  ¬s <+: t ∧ ¬t <+: s

instance (s t : List Char) : Decidable (Clash s t) :=
  inferInstanceAs (Decidable (_ ∧ _))

theorem not_fits_both {items items' : List GlobItem} (h : Clash (stem items) (stem items'))
    {s : List Char} (hfits : GlobFits items s) (hfits' : GlobFits items' s) : False :=
  (List.prefix_or_prefix_of_prefix hfits.stem_isPrefix hfits'.stem_isPrefix).elim h.1 h.2

/-- The patterns differ in what is written out at their fronts, or at their ends. -/
def GlobApart (pattern pattern' : List Char) : Prop :=
  Clash (stem (globItems pattern)) (stem (globItems pattern')) ∨
    Clash (stem (globItems pattern).reverse) (stem (globItems pattern').reverse)

instance (pattern pattern' : List Char) : Decidable (GlobApart pattern pattern') :=
  inferInstanceAs (Decidable (_ ∨ _))

theorem not_globMatches_both {pattern pattern' : List Char} (h : GlobApart pattern pattern')
    {name : List Char} (hmatch : globMatches pattern name = true)
    (hmatch' : globMatches pattern' name = true) : False := by
  have hfits : GlobFits (globItems pattern) name := matchItems_iff_fits.mp hmatch
  have hfits' : GlobFits (globItems pattern') name := matchItems_iff_fits.mp hmatch'
  rcases h with h | h
  · exact not_fits_both h hfits hfits'
  · exact not_fits_both h hfits.reverse hfits'.reverse

end ContainerAudit.Text
