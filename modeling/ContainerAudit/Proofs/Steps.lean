/-!
# Steps that can fail

What can be said of a step without looking into it: which errors it avoids, and what its result is
like (`Avoids`).  A run made of such steps avoids what each of them avoids.  Where it matters when a
run succeeds, it does so exactly if each step does (`exists_bind_iff`, `exists_mapM_iff`).
-/

namespace ContainerAudit

/-! ## Steps that avoid errors -/

/-- The step gives a result as promised, or else an error that is not bad. -/
def Avoids {ε α : Type} (bad : ε → Prop) (post : α → Prop) : Except ε α → Prop
  | .ok a => post a
  | .error e => ¬bad e

namespace Avoids

variable {ε α β : Type} {bad : ε → Prop} {post : α → Prop} {post' : β → Prop}

theorem bind {x : Except ε α} {f : α → Except ε β} (hx : Avoids bad post x)
    (hf : ∀ a, post a → Avoids bad post' (f a)) : Avoids bad post' (x >>= f) := by
  cases x with
  | ok a => exact hf a hx
  | error e => exact hx

theorem map {x : Except ε α} {f : α → β} (hx : Avoids bad post x)
    (hf : ∀ a, post a → post' (f a)) : Avoids bad post' (x.map f) := by
  cases x with
  | ok a => exact hf a hx
  | error e => exact hx

theorem mono {post' : α → Prop} {x : Except ε α} (hx : Avoids bad post x)
    (h : ∀ a, post a → post' a) : Avoids bad post' x := by
  cases x with
  | ok a => exact h a hx
  | error e => exact hx

theorem of_exists {x : Except ε α} (h : ∃ a, x = .ok a) : Avoids bad (fun _ => True) x := by
  obtain ⟨a, rfl⟩ := h
  exact trivial

/-- With nothing to avoid, only results count. -/
theorem of_forall_ok {x : Except ε α} (h : ∀ a, x = .ok a → post a) :
    Avoids (fun _ => False) post x := by
  cases x with
  | ok a => exact h a rfl
  | error e => exact not_false

theorem of_ok {x : Except ε α} {a : α} (h : Avoids bad post x) (hx : x = .ok a) : post a := by
  rw [hx] at h
  exact h

theorem mapM {f : α → Except ε β} (l : List α) (hf : ∀ a, Avoids bad post' (f a)) :
    Avoids bad (fun _ => True) (l.mapM f) := by
  induction l with
  | nil => exact trivial
  | cons a l ih =>
      rw [List.mapM_cons]
      exact (hf a).bind fun b _ => ih.bind fun bs _ => trivial

end Avoids

/-- A step that gives a result has one from its first part. -/
theorem exists_of_bind_eq_ok {ε α β : Type} {x : Except ε α} {f : α → Except ε β} {b : β}
    (h : (x >>= f) = .ok b) : ∃ a, x = .ok a ∧ f a = .ok b := by
  cases x with
  | ok a => exact ⟨a, rfl, h⟩
  | error e => exact nomatch h

theorem exists_of_map_eq_ok {ε α β : Type} {x : Except ε α} {f : α → β} {b : β}
    (h : x.map f = .ok b) : ∃ a, x = .ok a ∧ f a = b := by
  cases x with
  | ok a => exact ⟨a, rfl, Except.ok.inj h⟩
  | error e => exact nomatch h

/-! ## Success -/

theorem exists_bind_iff {ε α β : Type} {x : Except ε α} {f : α → Except ε β} :
    (∃ b, x >>= f = .ok b) ↔ ∃ a, x = .ok a ∧ ∃ b, f a = .ok b := by
  cases x <;> simp [bind, Except.bind]

theorem exists_fmap_iff {ε α β : Type} {x : Except ε α} {f : α → β} :
    (∃ b, f <$> x = .ok b) ↔ ∃ a, x = .ok a := by
  cases x <;> simp [Functor.map, Except.map]

theorem exists_mapM_iff {ε α β : Type} {f : α → Except ε β} {l : List α} :
    (∃ bs, l.mapM f = .ok bs) ↔ ∀ a ∈ l, ∃ b, f a = .ok b := by
  induction l with
  | nil => exact ⟨fun _ _ h => absurd h List.not_mem_nil, fun _ => ⟨[], rfl⟩⟩
  | cons a l ih =>
      rw [List.mapM_cons, exists_bind_iff, List.forall_mem_cons, ← ih]
      simp only [bind_pure_comp, exists_fmap_iff, exists_and_right]

theorem mem_of_mapM_eq_ok {ε α β : Type} {f : α → Except ε β} {l : List α} {bs : List β}
    (h : l.mapM f = .ok bs) {b : β} : b ∈ bs ↔ ∃ a ∈ l, f a = .ok b := by
  induction l generalizing bs with
  | nil =>
      cases h
      simp
  | cons a l ih =>
      rw [List.mapM_cons] at h
      obtain ⟨first, hfirst, h⟩ := exists_of_bind_eq_ok h
      obtain ⟨rest, hrest, h⟩ := exists_of_bind_eq_ok h
      cases h
      simp [ih hrest, hfirst, eq_comm]

end ContainerAudit
