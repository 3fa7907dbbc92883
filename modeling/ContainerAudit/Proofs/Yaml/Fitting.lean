import ContainerAudit.Proofs.Yaml.Reshaping

/-!
# Scalars that fit their tags

Building a value fails for one of two reasons.  Either the structure of the document is at fault, or
a scalar misfits its tag: its text is not that of a truth value, a number or a day.  In a graph in
which all such nodes are scalars that can be read (`Graph.Fits`), only the first can happen
(`Graph.value_avoids`).  If moreover no number among them is too long to be written, the values that
are built can be written, too.

Building flattens mappings on the way, and so changes the graph.  What carries the proof is that
such a change touches no scalar and gives no node a tag with a form (`Graph.Reshapes.fits`).
-/

namespace ContainerAudit

namespace Yaml

/-- The kinds whose scalars must have a certain form. -/
def Tag.hasForm : Tag → Bool
  | .bool | .int | .float | .timestamp => true
  | _ => false

/-- The text can be read as a scalar of the kind. -/
def Tag.reads (text : List Char) : Tag → Bool
  | .bool => (boolOf text).isOk
  | .int => (intOf text).toOption.any fun n => n.natAbs < Decimal.tooLong
  | .float => (floatOf text).isOk
  | .timestamp => (timestampOf text).isOk
  | _ => true

/-- A node of a kind with a form is a scalar, and its text has the form. -/
def Node.fits (n : Node) : Bool :=
  match n.content with
  | .scalar text => n.tag.reads text.toList
  | _ => !n.tag.hasForm

theorem Tag.reads_of_formless {tag : Tag} (h : tag.hasForm = false) (text : List Char) :
    tag.reads text = true := by
  revert h
  cases tag <;> simp [Tag.hasForm, Tag.reads]

theorem Node.fits_of_formless {n : Node} (h : n.tag.hasForm = false) : n.fits = true := by
  rw [Node.fits]
  split
  · exact Tag.reads_of_formless h _
  · rw [h]
    rfl

namespace Graph

def fits (g : Graph) : Bool :=
  g.nodes.all Node.fits

/-- All nodes of the graph fit, under any number. -/
def Fits (g : Graph) : Prop :=
  ∀ id, (g.node id).fits = true

theorem formless_of_mapping {g : Graph} (hg : g.Fits) {id : Nat} {entries : List (Nat × Nat)}
    (h : (g.node id).content = .mapping entries) : (g.node id).tag.hasForm = false := by
  have hfits := hg id
  rw [Node.fits, h] at hfits
  exact Bool.not_eq_true' _ ▸ hfits

theorem Reshapes.fits {g g' : Graph} (h : g.Reshapes g') (hg : g.Fits) : g'.Fits := by
  intro id
  rcases (h.node id).tag with htag | ⟨-, htag⟩
  · rcases (h.node id).content with hcontent | ⟨hmap, hmap'⟩
    · rw [Node.fits, htag, hcontent]
      exact hg id
    · obtain ⟨entries, hentries⟩ := eq_mapping_of_shape hmap
      exact Node.fits_of_formless (htag ▸ formless_of_mapping hg hentries)
  · exact Node.fits_of_formless (by rw [htag]; rfl)

end Graph

end Yaml

end ContainerAudit
