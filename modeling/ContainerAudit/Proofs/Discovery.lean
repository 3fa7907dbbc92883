import ContainerAudit.Discovery
import ContainerAudit.Proofs.FileTree
import ContainerAudit.Proofs.Manifest.Kind
import ContainerAudit.Proofs.Report.Canonical
import Mathlib.Data.List.Lex

/-!
# What is found below a directory

Below a directory exactly the files with the name of a manifest are found that do not lie in a
directory to be skipped, each once and in the order of their paths (`find_manifests`).  Only what is
below the directory counts: where it lies itself, and what its name is, makes no difference.  Nor
does the order in which directories list their entries, because the order of paths leaves no two
files in the same place.
-/

namespace ContainerAudit.Discovery

/-! ## The order of paths -/

theorem compare_eq_lt_iff {a b : List String} : compare a b = .lt ↔ List.Lex (· < ·) a b := by
  have htext (s t : String) : compare s t = .lt ↔ s < t := compareOfLessAndEq_eq_lt
  induction a generalizing b with
  | nil => cases b <;> simp [compare, List.compareLex]
  | cons name a ih =>
      cases b with
      | nil => simp [compare, List.compareLex]
      | cons other b =>
          have hrest : compare a b = .lt ↔ List.Lex (· < ·) a b := ih
          rw [List.compare_cons_cons, Ordering.then_eq_lt, htext, Std.compare_eq_iff_eq, hrest,
            List.cons_lex_cons_iff]

theorem untied_paths (paths : List (List String)) : Untied compare paths :=
  fun _ _ _ _ h => Std.compare_eq_iff_eq.mp h

/-! ## Manifests in a tree -/

/-- The name in small letters matches a pattern of manifests. -/
def IsManifestName (name : String) : Prop :=
  ∃ kind : Kind, ∃ pattern ∈ kind.patterns,
    Text.globMatches pattern.toList (Text.lower name.toList) = true

/-- A file with the name of a manifest is at a place, and no directory on the way to it is
skipped. -/
structure IsManifestAt (t : FileTree) (place : List String) : Prop where
  file : ∃ bytes, t.sight place = .file bytes
  name : ∃ name, place.getLast? = some name ∧ IsManifestName name
  way : ∀ name ∈ place.dropLast, name ∉ skippedDirectories

theorem isManifest_iff {place : List String} {name : String} (h : place.getLast? = some name) :
    Kind.isManifest ⟨"", place⟩ = true ↔ IsManifestName name := by
  have hname : Kind.fileName ⟨"", place⟩ = Text.lower name.toList := by
    rw [Kind.fileName, FilePath.name, List.getLastD_eq_getLast?, h, Option.getD_some]
  rw [Kind.isManifest_iff_names, hname]
  rfl

theorem mem_below {t : FileTree} (ht : t.Distinct) (hroot : t.sight [] = .directory)
    {place : List String} : place ∈ below t ↔ IsManifestAt t place := by
  have hfile : place ∈ t.files.map (·.1) ↔ ∃ bytes, t.sight place = .file bytes := by
    simp only [List.mem_map, Prod.exists, exists_and_right, exists_eq_right,
      FileTree.mem_files_iff ht]
  rw [below, List.mem_mergeSort, List.mem_filter, hfile, isFound, Bool.and_eq_true,
    List.all_eq_true]
  cases hlast : place.getLast? with
  | none =>
      -- the directory itself is not a file
      rw [List.getLast?_eq_none_iff.mp hlast, hroot]
      refine iff_of_false ?_ ?_
      · rintro ⟨⟨bytes, hbytes⟩, -⟩
        cases hbytes
      · rintro ⟨-, ⟨name, hname, -⟩, -⟩
        cases hname
  | some name =>
      rw [isManifest_iff hlast]
      constructor
      · rintro ⟨hbytes, hway, hname⟩
        exact ⟨hbytes, ⟨name, hlast, hname⟩, fun dir hdir => by simpa using hway dir hdir⟩
      · rintro ⟨hbytes, ⟨name', hlast', hname⟩, hway⟩
        obtain rfl := Option.some.inj (hlast.symm.trans hlast')
        exact ⟨hbytes, fun dir hdir => by simpa using hway dir hdir, hname⟩

theorem pairwise_below {t : FileTree} (ht : t.Distinct) :
    (below t).Pairwise fun a b => List.Lex (· < ·) a b := by
  have hnodup : ((t.files.map (·.1)).filter isFound).Nodup := (FileTree.nodup_files ht).filter _
  exact (pairwise_lt_sortBy (untied_paths _) hnodup).imp compare_eq_lt_iff.mp

/-- Trees that look alike at every place have the same manifests in the same order. -/
theorem below_congr {t t' : FileTree} (ht : t.Distinct) (ht' : t'.Distinct)
    (h : ∀ place, t'.sight place = t.sight place) : below t' = below t := by
  refine sortBy_eq_of_perm ?_ (untied_paths _)
  refine List.Perm.filter _ ?_
  refine (List.perm_ext_iff_of_nodup (FileTree.nodup_files ht') (FileTree.nodup_files ht)).mpr ?_
  intro place
  simp only [List.mem_map, Prod.exists, exists_and_right, exists_eq_right,
    FileTree.mem_files_iff ht, FileTree.mem_files_iff ht', h]

/-! ## Manifests in a workspace -/

/-- The paths are those of the manifests below a root, each once and in the order of paths. -/
structure Lists (root : FilePath) (t : FileTree) (paths : List FilePath) : Prop where
  mem_iff : ∀ path, path ∈ paths ↔ ∃ place, path = root.append place ∧ IsManifestAt t place
  ordered : paths.Pairwise fun p q => List.Lex (· < ·) p.parts q.parts

theorem find_eq {w : Workspace} {root : String} {t : FileTree}
    (hroot : w.find? (.ofText root) = some t) (hdirectory : t.isDirectory = true) :
    find w [root] = (below t).map (FilePath.ofText root).append := by
  rw [find, List.flatMap_singleton, manifests, hroot]
  cases t with
  | file bytes => cases hdirectory
  | directory entries => rfl

/-- **Exactly the manifests below a root are found, each once and in the order of paths.**  The
order in which directories list their entries does not show. -/
theorem find_manifests {w : Workspace} {root : String} {t : FileTree}
    (hroot : w.find? (.ofText root) = some t) (hdirectory : t.isDirectory = true)
    (ht : t.Distinct) :
    Lists (.ofText root) t (find w [root]) ∧
    ∀ w' t', w'.find? (.ofText root) = some t' → t'.Distinct →
      (∀ place, t'.sight place = t.sight place) → find w' [root] = find w [root] := by
  have htop : t.sight [] = .directory := FileTree.any_isDirectory.mp hdirectory
  rw [find_eq hroot hdirectory]
  refine ⟨⟨fun path => ?_, ?_⟩, ?_⟩
  · simp only [List.mem_map, mem_below ht htop]
    constructor
    · rintro ⟨place, hplace, rfl⟩
      exact ⟨place, rfl, hplace⟩
    · rintro ⟨place, rfl, hplace⟩
      exact ⟨place, hplace, rfl⟩
  · refine List.pairwise_map.mpr ((pairwise_below ht).imp fun h => ?_)
    exact h.append_left _ (FilePath.ofText root).parts
  · intro w' t' hroot' ht' hsight
    have hdirectory' : t'.isDirectory = true :=
      FileTree.any_isDirectory.mpr ((hsight []).trans htop)
    rw [find_eq hroot' hdirectory', below_congr ht ht' hsight]

/-- A directory that lists two directories with a Dockerfile, a directory to be skipped with another
one, and an empty directory with the name of a manifest. -/
def besides (first second : String) : FileTree :=
  .directory [(first, .directory [("Dockerfile", .file [])]),
    (second, .directory [("Dockerfile", .file [])]),
    (".git", .directory [("Dockerfile", .file [])]), ("compose.yml", .directory [])]

theorem distinct_besides {first second : String}
    (h : [first, second, ".git", "compose.yml"].Nodup) : (besides first second).Distinct := by
  have hinner : (FileTree.directory [("Dockerfile", .file [])]).Distinct :=
    .directory (by simp) (by simpa using .file [])
  refine .directory h ?_
  simp only [List.forall_mem_cons]
  exact ⟨hinner, hinner, hinner, .directory (by simp) (by simp), by simp⟩

/-- A directory is searched though its name is one to be skipped.  Two Dockerfiles are found in it,
that in `a` before that in `a-b`, though `a` is listed later. -/
theorem find_manifests_in_skipped_name :
    find ⟨.directory [("node_modules", besides "a-b" "a")], []⟩ ["node_modules"] =
      [⟨"", ["node_modules", "a", "Dockerfile"]⟩, ⟨"", ["node_modules", "a-b", "Dockerfile"]⟩] := by
  have hroot : (⟨.directory [("node_modules", besides "a" "a-b")], []⟩ : Workspace).find?
      (.ofText "node_modules") = some (besides "a" "a-b") := rfl
  obtain ⟨-, hrelisted⟩ := find_manifests hroot rfl (distinct_besides (by decide))
  have hnames : ["a", "a-b", ".git", "compose.yml"].Nodup := by decide
  rw [hrelisted _ (besides "a-b" "a") rfl (distinct_besides (by decide))
    (FileTree.sight_of_perm (.swap _ _ _) hnames), find_eq hroot rfl]
  have hfound : ((besides "a" "a-b").files.map (·.1)).filter isFound =
      [["a", "Dockerfile"], ["a-b", "Dockerfile"]] := by decide
  have hordered : [["a", "Dockerfile"], ["a-b", "Dockerfile"]].Pairwise fun a b =>
      pathLE a b = true := by decide
  rw [below, hfound, List.mergeSort_of_pairwise hordered]
  decide

end ContainerAudit.Discovery
