import ContainerAudit.Rule.Instruction

/-!
# Rules on base images

Which image a stage is built on.
-/

namespace ContainerAudit.Rule

open ContainerAudit.Text
open ContainerAudit.Dockerfile (Instruction ImageRef imageRef?)

/-- The reference is not fixed to a version. A name alone may be that of a stage. -/
def isUnpinned (stageNames : List String) (r : ImageRef) : Bool :=
  (r.digest.getD []).isEmpty && lower r.name != "scratch".toList && !r.name.contains '$' &&
    match r.tag with
    | none => !stageNames.contains (String.ofList (lower r.name))
    | some tag => lower tag == "latest".toList

/-- A stage is built on an image that is not fixed to a version. -/
def unpinnedBase (d : Dockerfile.Document) (_ : Patterns) : List Match :=
  let names := d.stageNames.map (·.1)
  d.instructions |> eachThat fun i =>
    i.isFrom && (imageRef? i.arguments.toList).any (isUnpinned names)

/-- The reference is to a full image that has a smaller variant. -/
def isBloated (p : Patterns) (r : ImageRef) : Bool :=
  (p.entries .bloatedBaseImages).contains (String.ofList r.repository) &&
    !(p.entries .slimTagMarkers).any fun marker =>
      hasPart marker.toList (lower (r.tag.getD []))

/-- The last stage is built on a full image. -/
def bloatedBase (d : Dockerfile.Document) (p : Patterns) : List Match :=
  (d.stageFrom? d.finalIndex).toList |> eachThat fun i =>
    (imageRef? i.arguments.toList).any (isBloated p)

end ContainerAudit.Rule
