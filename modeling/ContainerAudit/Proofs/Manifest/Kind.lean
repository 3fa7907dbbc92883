import ContainerAudit.Manifest.Kind
import ContainerAudit.Proofs.Text.Glob
import ContainerAudit.Proofs.Text.LetterCase
import Mathlib.Logic.ExistsUnique

/-!
# Discovery and kinds agree

No name matches patterns of both kinds of manifests, since any two of them differ in what is written
out at their fronts or at their ends.  Therefore a manifest that is found goes to the reader of the
one kind whose pattern its name matches, although compose files are asked for first
(`patterns_tell_kinds_apart`).
-/

namespace ContainerAudit.Kind

/-- The name matches a pattern of the kind. -/
def Names (kind : Kind) (name : List Char) : Prop :=
  ∃ pattern ∈ kind.patterns, Text.globMatches pattern.toList name = true

theorem hasName_iff {kind : Kind} {name : List Char} : kind.hasName name = true ↔ kind.Names name :=
  List.any_eq_true

theorem patterns_apart :
    ∀ pattern ∈ dockerfile.patterns, ∀ pattern' ∈ compose.patterns,
      Text.GlobApart pattern.toList pattern'.toList := by
  decide

theorem not_names_both {name : List Char} (hdockerfile : dockerfile.Names name)
    (hcompose : compose.Names name) : False := by
  obtain ⟨pattern, hpattern, hmatch⟩ := hdockerfile
  obtain ⟨pattern', hpattern', hmatch'⟩ := hcompose
  have hapart := patterns_apart pattern hpattern pattern' hpattern'
  exact Text.not_globMatches_both hapart hmatch hmatch'

theorem eq_of_names {kind kind' : Kind} {name : List Char} (h : kind.Names name)
    (h' : kind'.Names name) : kind = kind' := by
  cases kind <;> cases kind'
  case dockerfile.compose => exact (not_names_both h h').elim
  case compose.dockerfile => exact (not_names_both h' h).elim
  all_goals rfl

theorem isManifest_iff_names {path : FilePath} :
    isManifest path = true ↔ ∃ kind : Kind, kind.Names (fileName path) := by
  rw [isManifest, Bool.or_eq_true, hasName_iff, hasName_iff]
  constructor
  · rintro (h | h)
    · exact ⟨_, h⟩
    · exact ⟨_, h⟩
  · rintro ⟨_ | _, h⟩
    · exact .inl h
    · exact .inr h

theorem names_ofPath {path : FilePath} {kind : Kind} (h : kind.Names (fileName path)) :
    ofPath path = kind := by
  rw [ofPath]
  split
  · next hcompose => exact eq_of_names (hasName_iff.mp hcompose) h
  · next hcompose =>
      cases kind with
      | dockerfile => rfl
      | compose => exact absurd (hasName_iff.mpr h) hcompose

/-- The case of ASCII letters does not show in the name that patterns are compared with. -/
theorem fileName_congr {path path' : FilePath}
    (h : path.name.toList.map Char.toLower = path'.name.toList.map Char.toLower) :
    fileName path = fileName path' :=
  calc fileName path
      = Text.lower (path.name.toList.map Char.toLower) := (Text.lower_map_toLower _).symm
    _ = Text.lower (path'.name.toList.map Char.toLower) := congrArg Text.lower h
    _ = fileName path' := Text.lower_map_toLower _

/-- **What is found as a manifest is read as what its name says.**  No name matches patterns of both
kinds.  So a file is found exactly if its name in small letters matches the patterns of one kind
alone, and then that kind is the kind of the file.  Only the last part of a path counts for both,
and not the case of its ASCII letters. -/
theorem patterns_tell_kinds_apart :
    (∀ name, ¬(dockerfile.Names name ∧ compose.Names name)) ∧
    (∀ path, isManifest path = true ↔ ∃! kind : Kind, kind.Names (Text.lower path.name.toList)) ∧
    (∀ path, isManifest path = true →
      ∀ kind : Kind, ofPath path = kind ↔ kind.Names (Text.lower path.name.toList)) ∧
    ∀ path path', path.name.toList.map Char.toLower = path'.name.toList.map Char.toLower →
      isManifest path = isManifest path' ∧ ofPath path = ofPath path' := by
  refine ⟨fun name h => not_names_both h.1 h.2, fun path => ?_, fun path hpath kind => ?_,
    fun path path' h => ?_⟩
  · rw [isManifest_iff_names]
    refine ⟨fun ⟨kind, hkind⟩ => ⟨kind, hkind, fun kind' h => eq_of_names h hkind⟩,
      fun h => h.exists⟩
  · refine ⟨?_, names_ofPath⟩
    rintro rfl
    obtain ⟨kind, hkind⟩ := isManifest_iff_names.mp hpath
    rwa [names_ofPath hkind]
  · rw [isManifest, isManifest, ofPath, ofPath, fileName_congr h]
    exact ⟨rfl, rfl⟩

/-- A compose file with capital letters in its name is found, and read as one, wherever it lies. -/
theorem patterns_tell_kinds_apart_in_capitals :
    isManifest ⟨"/", ["srv", "Docker-Compose.Prod.YML"]⟩ = true ∧
    ofPath ⟨"/", ["srv", "Docker-Compose.Prod.YML"]⟩ = compose := by
  obtain ⟨-, -, hkind, hcase⟩ := patterns_tell_kinds_apart
  have hsmall : isManifest ⟨"", ["docker-compose.prod.yml"]⟩ = true := by decide
  obtain ⟨hmanifest, hofPath⟩ := hcase ⟨"/", ["srv", "Docker-Compose.Prod.YML"]⟩
    ⟨"", ["docker-compose.prod.yml"]⟩ (by decide)
  refine ⟨hmanifest.trans hsmall, hofPath.trans ?_⟩
  exact (hkind _ hsmall compose).mpr ⟨"docker-compose*.yml", by decide, by decide⟩

end ContainerAudit.Kind
