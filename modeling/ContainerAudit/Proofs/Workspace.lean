import ContainerAudit.Proofs.FileTree
import ContainerAudit.Workspace

/-!
# Writing a file

A file that is written is found under its path, and all else is as it was, but for the directories
that were missing on the way to it (`write_ok`).
-/

namespace ContainerAudit.Workspace

open FileTree (Gains OnTheWay placeAfter)

/-- The run takes place in a directory. -/
def Grounded (w : Workspace) : Prop :=
  w.tree.sight w.here = .directory

instance (w : Workspace) : Decidable w.Grounded :=
  inferInstanceAs (Decidable (w.tree.sight w.here = .directory))

theorem Grounded.start {w : Workspace} (h : w.Grounded) (path : FilePath) :
    w.tree.sight (w.start path) = .directory := by
  unfold Workspace.start
  split
  · exact h
  · exact FileTree.sight_nil_of_directory h

theorem Grounded.has_here {w : Workspace} (h : w.Grounded) : w.has (.ofText ".") = true := by
  have hpath : FilePath.ofText "." = ⟨"", []⟩ := by decide
  obtain ⟨es, hes⟩ := FileTree.sight_eq_directory.mp h
  have hlocate : w.locate ⟨"", []⟩ = some w.here := rfl
  rw [has, hpath, find?, hlocate, Option.bind_some, hes]
  rfl

/-- The place that a path names, whether something is there or not. -/
def placeOf (w : Workspace) (path : FilePath) : List String :=
  placeAfter (w.start path) path.parts

/-- A place is a directory on the way to what a path names. -/
def IsParent (w : Workspace) (path : FilePath) (place : List String) : Prop :=
  OnTheWay (w.start path) path.parts.dropLast place

/-- `w'` is `w` with a file at a path, and with the directories on the way to it. -/
structure Wrote (w : Workspace) (path : FilePath) (bytes : List Nat) (w' : Workspace) : Prop where
  /-- The run takes place where it did. -/
  here_eq : w'.here = w.here
  /-- The file is where its path leads. -/
  sight_eq : w'.tree.sight (w.placeOf path) = .file bytes
  /-- It is found under its path. -/
  find?_eq : w'.find? path = some (.file bytes)
  /-- Elsewhere nothing changes, but that directories come where nothing was on the way. -/
  elsewhere : ∀ place ≠ w.placeOf path, w'.tree.sight place = w.tree.sight place ∨
    w.tree.sight place = .nothing ∧ w'.tree.sight place = .directory ∧ w.IsParent path place

/-- A write that succeeds makes the directories on the way and puts the file where no directory
is. -/
theorem exists_of_write {w w' : Workspace} {path : FilePath} {bytes : List Nat}
    (h : w.write path bytes = .ok w') :
    ∃ tree place name,
      w.tree.makeDirectories (w.start path) path.parts.dropLast = .ok (tree, place) ∧
      path.parts = path.parts.dropLast ++ [name] ∧ name ≠ ".." ∧
        tree.sight (place ++ [name]) ≠ .directory ∧
          w' = { w with tree := tree.insert (place ++ [name]) (.file bytes) } := by
  unfold write at h
  cases hmake : w.tree.makeDirectories (w.start path) path.parts.dropLast with
  | error obstacle =>
      rw [hmake] at h
      exact absurd h (by simp)
  | ok result =>
      obtain ⟨tree, place⟩ := result
      rw [hmake] at h
      cases hlast : path.parts.getLast? with
      | none =>
          rw [hlast] at h
          exact absurd h (by simp)
      | some name =>
          rw [hlast] at h
          simp only [Bool.or_eq_true, decide_eq_true_eq, FileTree.any_isDirectory] at h
          split at h
          · exact absurd h (by simp)
          · rename_i hfree
            rw [not_or] at hfree
            cases h
            exact ⟨tree, place, name, rfl, (List.dropLast_append_getLast? name hlast).symm, hfree.1,
              hfree.2, rfl⟩

theorem write_ok {w w' : Workspace} (hw : w.Grounded) {path : FilePath} {bytes : List Nat}
    (h : w.write path bytes = .ok w') : Wrote w path bytes w' := by
  obtain ⟨tree, place, name, hmake, hparts, hname, hfree, hwritten⟩ := exists_of_write h
  obtain ⟨rfl, hgains, hway⟩ := FileTree.makeDirectories_ok (hw.start path) hmake
  have hplace : w.placeOf path = placeAfter (w.start path) path.parts.dropLast ++ [name] := by
    rw [placeOf, hparts, FileTree.placeAfter_append, ← hparts, FileTree.placeAfter_name _ hname]
  have hhere : w'.here = w.here := by rw [hwritten]
  have hsight (other : List String) : w'.tree.sight other =
      if other = w.placeOf path then .file bytes else tree.sight other := by
    have hdirectory := hway _ ⟨path.parts.dropLast, List.prefix_rfl, rfl⟩
    rw [hwritten, hplace]
    exact FileTree.sight_insert (FileTree.isBare_file bytes) hdirectory hfree other
  have hfile : w'.tree.sight (w.placeOf path) = .file bytes := by
    rw [hsight, if_pos rfl]
  refine ⟨hhere, hfile, ?_, ?_⟩
  · have hlocate : w'.locate path = some (w.placeOf path) := by
      have hstart : w'.start path = w.start path := by rw [Workspace.start, hhere, Workspace.start]
      rw [locate, hstart]
      refine FileTree.follow_eq_some (fun before hbefore hne => ?_) (by rw [← placeOf, hfile]; simp)
      -- a place before the end is a directory, and the file did not come where a directory was
      rw [hparts, List.prefix_concat_iff, ← hparts] at hbefore
      have hdirectory := hway _ ⟨before, hbefore.resolve_left hne, rfl⟩
      rw [hsight, if_neg, hdirectory]
      rintro heq
      rw [heq, hplace] at hdirectory
      exact hfree hdirectory
    rw [find?, hlocate]
    exact FileTree.sight_eq_file.mp hfile
  · intro other hother
    rw [hsight, if_neg hother]
    exact hgains other

end ContainerAudit.Workspace
