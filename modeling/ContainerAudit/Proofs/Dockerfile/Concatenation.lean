import ContainerAudit.Proofs.Dockerfile.Stage

/-!
# Files put one behind the other

If a file can be read and ends with a line feed, what is put behind it is read as if it stood alone,
only with other numbers: its lines are counted on from those of the first file, and its stages from
the `FROM`s there (`parse_append`).  The reason is that a file which can be read leaves nothing
open: its reading ends between two instructions, so no continued line and no here-document of it
reaches into the second file.

What must be asked for besides is the escape character.  It is set at the head of a file and holds
for the whole of it, so it has to be the same for both files and for the two together.
-/

namespace ContainerAudit.Dockerfile

/-- A text behind one that leaves nothing open is read from between instructions, with its lines
counted on. -/
theorem readText_append {t₁ t₂ : String} {out₁ : List Statement} {escape : Char}
    (hend : Text.EndsLine t₁.toList) (h₁ : readText t₁ = (.between, out₁))
    (he₁ : escapeChar (Text.lines t₁.toList) = escape)
    (he₂ : escapeChar (Text.lines t₂.toList) = escape)
    (he : escapeChar (Text.lines (t₁ ++ t₂).toList) = escape) :
    readText (t₁ ++ t₂) =
      ((readText t₂).1.shift (Text.lines t₁.toList).length,
        out₁ ++ (readText t₂).2.map (·.shift (Text.lines t₁.toList).length)) := by
  have hlines : Text.lines (t₁ ++ t₂).toList =
      Text.lines t₁.toList ++ Text.lines t₂.toList := by
    rw [String.toList_append, Text.lines_append hend]
  have hbelow : ∀ k, feed escape .between (1 + k) (Text.lines t₂.toList) =
      ((feed escape .between 1 (Text.lines t₂.toList)).1.shift k,
        (feed escape .between 1 (Text.lines t₂.toList)).2.map (·.shift k)) :=
    fun k => feed_shift escape k (Text.lines t₂.toList) .between 1
  simp only [readText, he₁] at h₁
  simp only [readText, he, he₂]
  rw [hlines, feed_append, h₁]
  simp only [hbelow]

/-- **A file behind another is read as if alone,** with its lines and stages counted on.  If it is
refused, so are the two together, for the same reason. -/
theorem parse_append (t₁ t₂ : String) {d₁ : Document} {escape : Char}
    (hend : t₁ = "" ∨ t₁.toList.getLast? = some '\n') (h₁ : parse t₁ = .ok d₁)
    (he₁ : escapeChar (Text.lines t₁.toList) = escape)
    (he₂ : escapeChar (Text.lines t₂.toList) = escape)
    (he : escapeChar (Text.lines (t₁ ++ t₂).toList) = escape) :
    let lines := (Text.lines t₁.toList).length
    let froms := d₁.instructions.countP (·.isFrom)
    (∀ d₂, parse t₂ = .ok d₂ →
      parse (t₁ ++ t₂) =
        .ok (.ofInstructions (d₁.instructions ++ continued lines froms d₂.instructions))) ∧
    (∀ e, parse t₂ = .error e →
      ∃ e', parse (t₁ ++ t₂) = .error e' ∧ e'.reason = e.reason ∧ e'.line = e.line + lines) := by
  intro lines froms
  obtain ⟨out₁, hread₁, rfl⟩ := parse_eq_ok.mp h₁
  have hends : Text.EndsLine t₁.toList := hend.imp_left fun h => by rw [h]; rfl
  have hread := readText_append hends hread₁ he₁ he₂ he
  constructor
  · intro d₂ h₂
    obtain ⟨out₂, hread₂, rfl⟩ := parse_eq_ok.mp h₂
    refine parse_eq_ok.mpr ⟨out₁ ++ out₂.map (·.shift lines), by rw [hread, hread₂]; rfl, ?_⟩
    rw [stageFrom_append, stageFrom_map_shift lines _ 0, ← countP_isFrom_stageFrom 0, Nat.zero_add]
    rfl
  · intro e h₂
    refine ⟨e.shift lines, parse_eq_error.mpr ?_, e.reason_shift lines, e.line_shift lines⟩
    rw [hread, State.error?_shift, parse_eq_error.mp h₂]
    rfl

/-- A here-document that a continued line announces ends the first file, and the `FROM` in its body
opens no stage.  Behind it one file goes on in the same stage, and another is refused in the third
of its own lines. -/
theorem parse_append_behind_heredoc :
    parse ("FROM a\nRUN <<E \\\n x\nFROM b\nE\n" ++ "USER u\nFROM c\n") =
        .ok ⟨[⟨"FROM", "a", 1, 0⟩, ⟨"RUN", "<<E x\nFROM b\nE", 2, 0⟩, ⟨"USER", "u", 6, 0⟩,
          ⟨"FROM", "c", 7, 1⟩], 2⟩ ∧
      ∃ e, parse ("FROM a\nRUN <<E \\\n x\nFROM b\nE\n" ++ "\n\nRUN \\\n#\n") = .error e ∧
        e.reason = "line continuation at end of file" ∧ e.line = 8 := by
  have h₁ : parse "FROM a\nRUN <<E \\\n x\nFROM b\nE\n" =
      .ok ⟨[⟨"FROM", "a", 1, 0⟩, ⟨"RUN", "<<E x\nFROM b\nE", 2, 0⟩], 1⟩ := by rfl
  have hescape : escapeChar (Text.lines "FROM a\nRUN <<E \\\n x\nFROM b\nE\n".toList) = '\\' := by
    decide
  constructor
  · exact (parse_append _ "USER u\nFROM c\n" (Or.inr (by decide)) h₁ hescape (by decide)
      (by decide)).1 ⟨[⟨"USER", "u", 1, 0⟩, ⟨"FROM", "c", 2, 0⟩], 1⟩ (by rfl)
  · exact (parse_append _ "\n\nRUN \\\n#\n" (Or.inr (by decide)) h₁ hescape (by decide)
      (by decide)).2 (.danglingContinuation 3) (by rfl)

end ContainerAudit.Dockerfile
