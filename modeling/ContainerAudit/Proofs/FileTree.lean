import ContainerAudit.FileTree
import ContainerAudit.Proofs.Entries
import Mathlib.Data.List.Infix

/-!
# What operations do to a file tree

A tree is told by what is seen at each place (`FileTree.sight`): nothing, a file with its bytes, or
a directory.  What a directory lists is not part of the sight; it is seen at the places below.

To put a file or an empty directory where no directory is changes the sight of that place and of no
other, as long as the place is in a directory (`sight_insert`).  To make the directories on a way
makes nothing else: it leaves every sight, but that directories come where nothing was
(`makeDirectories_ok`), and then the way can be gone (`follow_eq_some`).

As long as no directory lists a name twice, all files of a tree are those that are seen at some
place (`mem_files_iff`), each listed once (`nodup_files`).
-/

namespace ContainerAudit.FileTree

/-- What there is at a place. -/
inductive Sight where
  | nothing
  | file (bytes : List Nat)
  | directory
  deriving DecidableEq, Repr

/-- What is seen of something that is looked up. -/
def Sight.of : Option FileTree → Sight
  | none => .nothing
  | some (.file bytes) => .file bytes
  | some (.directory _) => .directory

/-- What is seen at a place of a tree. -/
def sight (t : FileTree) (place : List String) : Sight :=
  .of (t.get? place)

/-! ## Sights -/

theorem sight_eq_directory {t : FileTree} {place : List String} :
    t.sight place = .directory ↔ ∃ es, t.get? place = some (directory es) := by
  unfold sight
  rcases t.get? place with _ | ⟨_⟩ | ⟨_⟩ <;> simp [Sight.of]

theorem sight_eq_file {t : FileTree} {place : List String} {bytes : List Nat} :
    t.sight place = .file bytes ↔ t.get? place = some (file bytes) := by
  unfold sight
  rcases t.get? place with _ | ⟨_⟩ | ⟨_⟩ <;> simp [Sight.of]

theorem sight_eq_nothing {t : FileTree} {place : List String} :
    t.sight place = .nothing ↔ t.get? place = none := by
  unfold sight
  rcases t.get? place with _ | ⟨_⟩ | ⟨_⟩ <;> simp [Sight.of]

theorem any_isDirectory {t : FileTree} {place : List String} :
    (t.get? place).any isDirectory = true ↔ t.sight place = .directory := by
  unfold sight
  rcases t.get? place with _ | ⟨_⟩ | ⟨_⟩ <;> simp [Sight.of, isDirectory]

theorem find?_eq_lookup (entries : List (String × FileTree)) (name : String) :
    (entries.find? (·.1 == name)).map (·.2) = entries.lookup name := by
  induction entries with
  | nil => rfl
  | cons entry entries ih =>
      obtain ⟨k, t⟩ := entry
      rw [lookup_cons_eq_ite, List.find?_cons]
      by_cases hk : k = name
      · rw [beq_iff_eq.mpr hk, if_pos hk.symm]
        rfl
      · rw [beq_false_of_ne hk, if_neg (Ne.symm hk)]
        exact ih

theorem get?_cons (t : FileTree) (name : String) (rest : List String) :
    t.get? (name :: rest) = (t.entries.lookup name).bind fun inner => inner.get? rest := by
  rw [get?, ← find?_eq_lookup]
  cases t.entries.find? (·.1 == name) <;> rfl

theorem sight_cons (t : FileTree) (name : String) (rest : List String) :
    t.sight (name :: rest) = .of ((t.entries.lookup name).bind fun inner => inner.get? rest) := by
  rw [sight, get?_cons]

theorem sight_cons_of_lookup {t inner : FileTree} {name : String}
    (h : t.entries.lookup name = some inner) (rest : List String) :
    t.sight (name :: rest) = inner.sight rest := by
  rw [sight_cons, h]
  rfl

/-- Where something is, the way to it leads through directories. -/
theorem sight_nil_of_cons {t : FileTree} {name : String} {rest : List String}
    (h : t.sight (name :: rest) ≠ .nothing) : t.sight [] = .directory := by
  cases t with
  | file bytes => exact absurd rfl h
  | directory es => rfl

theorem exists_lookup_of_sight {t : FileTree} {name : String} {rest : List String}
    (h : t.sight (name :: rest) ≠ .nothing) : ∃ inner, t.entries.lookup name = some inner := by
  cases hlookup : t.entries.lookup name with
  | some inner => exact ⟨inner, rfl⟩
  | none =>
      rw [sight_cons, hlookup] at h
      exact absurd rfl h

theorem exists_lookup_of_directory {t : FileTree} {name : String} {rest : List String}
    (h : t.sight (name :: rest) = .directory) : ∃ inner, t.entries.lookup name = some inner :=
  exists_lookup_of_sight (by rw [h]; decide)

theorem sight_nil_of_directory {t : FileTree} {place : List String}
    (h : t.sight place = .directory) : t.sight [] = .directory := by
  cases place with
  | nil => exact h
  | cons name rest => exact sight_nil_of_cons (by rw [h]; decide)

theorem sight_dropLast {t : FileTree} {place : List String} (h : t.sight place = .directory) :
    t.sight place.dropLast = .directory := by
  induction place generalizing t with
  | nil => exact h
  | cons name rest ih =>
      cases rest with
      | nil => exact sight_nil_of_directory h
      | cons next rest =>
          obtain ⟨inner, hinner⟩ := exists_lookup_of_directory h
          rw [sight_cons_of_lookup hinner] at h
          rw [List.dropLast_cons_cons, sight_cons_of_lookup hinner]
          exact ih h

/-- A directory may list its entries in any order, if no two of them have one name. -/
theorem sight_of_perm {es es' : List (String × FileTree)} (hperm : es.Perm es')
    (h : (es.map (·.1)).Nodup) (place : List String) :
    (directory es').sight place = (directory es).sight place := by
  cases place with
  | nil => rfl
  | cons name rest => rw [sight_cons, sight_cons, entries, entries, lookup_eq_of_perm hperm h]

/-! ## Putting something at a place -/

theorem insert_cons (t : FileTree) (name : String) (rest : List String) (what : FileTree) :
    t.insert (name :: rest) what =
      directory (put name (((t.entries.lookup name).getD empty).insert rest what) t.entries) := by
  rw [insert, find?_eq_lookup]

/-- Something without parts: a file, or a directory with nothing in it. -/
def IsBare (what : FileTree) : Prop :=
  what.entries = []

theorem isBare_empty : empty.IsBare :=
  rfl

theorem isBare_file (bytes : List Nat) : (file bytes).IsBare :=
  rfl

theorem IsBare.sight_cons {what : FileTree} (h : what.IsBare) (name : String)
    (rest : List String) : what.sight (name :: rest) = .nothing := by
  rw [FileTree.sight_cons, h]
  rfl

theorem sight_put (t what : FileTree) (name other : String) (rest : List String) :
    (directory (put name what t.entries)).sight (other :: rest) =
      if other = name then what.sight rest else t.sight (other :: rest) := by
  rw [sight_cons, entries, lookup_put]
  by_cases hname : other = name
  · rw [if_pos hname, if_pos hname]
    rfl
  · rw [if_neg hname, if_neg hname, sight_cons]

/-- What is put into a directory, where no directory is, is seen there, and all else stays. -/
theorem sight_insert {what : FileTree} (hbare : what.IsBare) {t : FileTree} {place : List String}
    {name : String} (hplace : t.sight place = .directory)
    (hfree : t.sight (place ++ [name]) ≠ .directory) (other : List String) :
    (t.insert (place ++ [name]) what).sight other =
      if other = place ++ [name] then what.sight [] else t.sight other := by
  induction place generalizing t other with
  | nil =>
      rw [List.nil_append] at hfree ⊢
      rw [insert_cons, insert]
      cases other with
      | nil =>
          rw [if_neg (by simp), hplace]
          rfl
      | cons first rest =>
          rw [sight_put]
          by_cases hfirst : first = name
          · cases rest with
            | nil => rw [if_pos hfirst, if_pos (by rw [hfirst])]
            | cons next rest =>
                -- below the place nothing was, as it was no directory
                have hnothing : t.sight (first :: next :: rest) = .nothing := by
                  by_contra hbelow
                  obtain ⟨inner, hinner⟩ := exists_lookup_of_sight hbelow
                  rw [sight_cons_of_lookup hinner] at hbelow
                  rw [← hfirst, sight_cons_of_lookup hinner] at hfree
                  exact hfree (sight_nil_of_cons hbelow)
                rw [if_pos hfirst, if_neg (by simp), hbare.sight_cons, hnothing]
          · rw [if_neg hfirst, if_neg (by simp [hfirst])]
  | cons first place ih =>
      have htop := sight_nil_of_directory hplace
      obtain ⟨inner, hinner⟩ := exists_lookup_of_directory hplace
      rw [List.cons_append, sight_cons_of_lookup hinner] at hfree
      rw [sight_cons_of_lookup hinner] at hplace
      rw [List.cons_append, insert_cons, hinner, Option.getD_some]
      cases other with
      | nil =>
          rw [if_neg (by simp), htop]
          rfl
      | cons next rest =>
          rw [sight_put]
          by_cases hnext : next = first
          · rw [if_pos hnext, ih hplace hfree, hnext, sight_cons_of_lookup hinner]
            simp
          · rw [if_neg hnext, if_neg (by simp [hnext])]

/-! ## Going along a path -/

theorem placeAfter_cons (place : List String) (part : String) (rest : List String) :
    placeAfter place (part :: rest) = placeAfter (placeAfter place [part]) rest :=
  rfl

theorem placeAfter_name (place : List String) {part : String} (h : part ≠ "..") :
    placeAfter place [part] = place ++ [part] := by
  rw [placeAfter, List.foldl_cons, List.foldl_nil, if_neg h]

theorem placeAfter_append (place parts rest : List String) :
    placeAfter place (parts ++ rest) = placeAfter (placeAfter place parts) rest :=
  List.foldl_append

/-- A place on the way that parts of a path lead from another place. -/
def OnTheWay (place parts other : List String) : Prop :=
  ∃ before, before <+: parts ∧ placeAfter place before = other

theorem onTheWay_start (place parts : List String) : OnTheWay place parts place :=
  ⟨[], List.nil_prefix, rfl⟩

theorem onTheWay_cons {place : List String} {part : String} {rest other : List String} :
    OnTheWay place (part :: rest) other ↔
      other = place ∨ OnTheWay (placeAfter place [part]) rest other := by
  constructor
  · rintro ⟨before, hbefore, rfl⟩
    cases before with
    | nil => exact .inl rfl
    | cons first before =>
        obtain ⟨rfl, hrest⟩ := List.cons_prefix_cons.mp hbefore
        exact .inr ⟨before, hrest, rfl⟩
  · rintro (rfl | ⟨before, hbefore, rfl⟩)
    · exact onTheWay_start other (part :: rest)
    · exact ⟨part :: before, List.cons_prefix_cons.mpr ⟨rfl, hbefore⟩, rfl⟩

/-- A way through directories can be gone to what is at its end. -/
theorem follow_eq_some {t : FileTree} {place parts : List String}
    (hway : ∀ before, before <+: parts → before ≠ parts →
      t.sight (placeAfter place before) = .directory)
    (hend : t.sight (placeAfter place parts) ≠ .nothing) :
    t.follow place parts = some (placeAfter place parts) := by
  induction parts generalizing place with
  | nil => rfl
  | cons part rest ih =>
      have hplace : (t.get? place).any isDirectory = true :=
        any_isDirectory.mpr (hway [] List.nil_prefix (by simp))
      have hrest : t.follow (placeAfter place [part]) rest =
          some (placeAfter (placeAfter place [part]) rest) :=
        ih (fun before hbefore hne => hway (part :: before)
          (List.cons_prefix_cons.mpr ⟨rfl, hbefore⟩) (by simpa using hne)) hend
      have hnext : t.sight (placeAfter place [part]) ≠ .nothing := by
        cases rest with
        | nil => exact hend
        | cons next rest =>
            have hdirectory := hway [part] (List.cons_prefix_cons.mpr ⟨rfl, List.nil_prefix⟩)
              (by simp)
            rw [hdirectory]
            decide
      rw [follow, hplace, placeAfter_cons]
      by_cases hup : part = ".."
      · subst hup
        exact hrest
      · rw [placeAfter_name place hup] at hrest hnext ⊢
        have hthere : (t.get? (place ++ [part])).isSome = true :=
          Option.isSome_iff_ne_none.mpr fun hnone => hnext (sight_eq_nothing.mpr hnone)
        rw [if_neg (by decide), if_neg hup, if_pos hthere]
        exact hrest

/-! ## Making directories -/

/-- `t'` is `t` with directories at some more places, of those given. -/
def Gains (new : List String → Prop) (t t' : FileTree) : Prop :=
  ∀ other, t'.sight other = t.sight other ∨
    t.sight other = .nothing ∧ t'.sight other = .directory ∧ new other

theorem Gains.refl {new : List String → Prop} (t : FileTree) : Gains new t t :=
  fun _ => .inl rfl

theorem Gains.trans {new : List String → Prop} {t t' t'' : FileTree} (h : Gains new t t')
    (h' : Gains new t' t'') : Gains new t t'' := by
  intro other
  rcases h other with hsame | ⟨hnothing, hmade, hnew⟩
  · rw [← hsame]
    exact h' other
  · rcases h' other with hsame | ⟨hnothing', _⟩
    · exact .inr ⟨hnothing, hsame.trans hmade, hnew⟩
    · exact absurd (hmade.symm.trans hnothing') (by decide)

theorem Gains.mono {new new' : List String → Prop} (himp : ∀ other, new other → new' other)
    {t t' : FileTree} (h : Gains new t t') : Gains new' t t' := by
  intro other
  rcases h other with hsame | ⟨hnothing, hmade, hnew⟩
  · exact .inl hsame
  · exact .inr ⟨hnothing, hmade, himp other hnew⟩

theorem Gains.directory {new : List String → Prop} {t t' : FileTree} (h : Gains new t t')
    {place : List String} (hplace : t.sight place = .directory) : t'.sight place = .directory := by
  rcases h place with hsame | ⟨_, hmade, _⟩
  · rw [hsame, hplace]
  · exact hmade

/-- One part of a way: the directory that it leads to is there or is made. -/
theorem makeDirectories_cons {t t' : FileTree} {place place' rest : List String} {part : String}
    (hplace : t.sight place = .directory)
    (h : t.makeDirectories place (part :: rest) = .ok (t', place')) :
    ∃ made, Gains (· = placeAfter place [part]) t made ∧
      made.sight (placeAfter place [part]) = .directory ∧
        made.makeDirectories (placeAfter place [part]) rest = .ok (t', place') := by
  rw [makeDirectories] at h
  by_cases hup : part = ".."
  · rw [if_pos hup] at h
    subst hup
    exact ⟨t, .refl t, sight_dropLast hplace, h⟩
  · rw [if_neg hup] at h
    rw [placeAfter_name place hup]
    cases hthere : t.get? (place ++ [part]) with
    | none =>
        rw [hthere] at h
        have hnothing := sight_eq_nothing.mpr hthere
        have hmade := sight_insert isBare_empty hplace (by rw [hnothing]; decide)
        refine ⟨t.insert (place ++ [part]) empty, fun other => ?_, ?_, h⟩
        · rw [hmade]
          by_cases hother : other = place ++ [part]
          · exact .inr ⟨hother ▸ hnothing, if_pos hother, hother⟩
          · exact .inl (if_neg hother)
        · rw [hmade, if_pos rfl]
          rfl
    | some inner =>
        rw [hthere] at h
        cases inner with
        | file bytes => exact absurd h (by simp)
        | directory es => exact ⟨t, .refl t, sight_eq_directory.mpr ⟨es, hthere⟩, h⟩

/-- To make the directories on a way leads to its end, makes nothing else, and leaves directories
all along it. -/
theorem makeDirectories_ok {t t' : FileTree} {place parts place' : List String}
    (hplace : t.sight place = .directory)
    (h : t.makeDirectories place parts = .ok (t', place')) :
    place' = placeAfter place parts ∧ Gains (OnTheWay place parts) t t' ∧
      ∀ other, OnTheWay place parts other → t'.sight other = .directory := by
  induction parts generalizing t place with
  | nil =>
      cases h
      refine ⟨rfl, .refl _, ?_⟩
      rintro other ⟨before, hbefore, rfl⟩
      rw [List.prefix_nil.mp hbefore]
      exact hplace
  | cons part rest ih =>
      obtain ⟨made, hmade, hnext, hrest⟩ := makeDirectories_cons hplace h
      obtain ⟨hend, hgains, hway⟩ := ih hnext hrest
      refine ⟨hend, Gains.trans (hmade.mono ?_) (hgains.mono ?_), ?_⟩
      · rintro other rfl
        exact onTheWay_cons.mpr (.inr (onTheWay_start _ rest))
      · intro other hother
        exact onTheWay_cons.mpr (.inr hother)
      · intro other hother
        rcases onTheWay_cons.mp hother with rfl | hother
        · exact hgains.directory (hmade.directory hplace)
        · exact hway other hother

/-! ## All files -/

/-- No directory in the tree lists a name twice. -/
inductive Distinct : FileTree → Prop
  | file (bytes : List Nat) : Distinct (file bytes)
  | directory {entries : List (String × FileTree)} (hnames : (entries.map (·.1)).Nodup)
      (hinner : ∀ entry ∈ entries, Distinct entry.2) : Distinct (directory entries)

theorem entryFiles_eq (entries : List (String × FileTree)) :
    entryFiles entries = entries.flatMap fun entry =>
      entry.2.files.map fun found => (entry.1 :: found.1, found.2) := by
  induction entries with
  | nil => rfl
  | cons entry entries ih => rw [entryFiles, ih, List.flatMap_cons]

theorem mem_entryFiles {entries : List (String × FileTree)} {path : List String}
    {bytes : List Nat} :
    (path, bytes) ∈ entryFiles entries ↔
      ∃ entry ∈ entries, ∃ rest, path = entry.1 :: rest ∧ (rest, bytes) ∈ entry.2.files := by
  simp only [entryFiles_eq, List.mem_flatMap, List.mem_map, Prod.mk.injEq, Prod.exists]
  constructor
  · rintro ⟨name, t, hentry, rest, _, hfile, rfl, rfl⟩
    exact ⟨name, t, hentry, rest, rfl, hfile⟩
  · rintro ⟨name, t, hentry, rest, rfl, hfile⟩
    exact ⟨name, t, hentry, rest, bytes, hfile, rfl, rfl⟩

/-- The files of a tree are what is found at the places of files. -/
theorem mem_files_iff {t : FileTree} (h : t.Distinct) {path : List String} {bytes : List Nat} :
    (path, bytes) ∈ t.files ↔ t.sight path = .file bytes := by
  induction h generalizing path with
  | file bytes' =>
      rw [files, List.mem_singleton, sight_eq_file, Prod.mk.injEq]
      cases path with
      | nil => simp [get?, eq_comm]
      | cons name rest => simp [get?, entries]
  | @directory es hnames hinner ih =>
      rw [files, mem_entryFiles, sight_eq_file]
      cases path with
      | nil => simp [get?]
      | cons name rest =>
          rw [get?, Option.bind_eq_some_iff]
          simp only [entries, find?_eq_some_of_nodup hnames, List.cons.injEq]
          constructor
          · rintro ⟨entry, hentry, _, ⟨rfl, rfl⟩, hfile⟩
            exact ⟨entry, ⟨hentry, rfl⟩, sight_eq_file.mp ((ih entry hentry).mp hfile)⟩
          · rintro ⟨entry, ⟨hentry, rfl⟩, hfile⟩
            exact ⟨entry, hentry, rest, ⟨rfl, rfl⟩, (ih entry hentry).mpr (sight_eq_file.mpr hfile)⟩

/-- No place is listed twice among the files of a tree. -/
theorem nodup_files {t : FileTree} (h : t.Distinct) : (t.files.map (·.1)).Nodup := by
  induction h with
  | file bytes => simp [files]
  | @directory es hnames hinner ih =>
      rw [files, entryFiles_eq, List.map_flatMap, List.nodup_flatMap]
      constructor
      · intro entry hentry
        have hrest := (ih entry hentry).map (List.cons_injective (a := entry.1))
        rw [List.map_map] at hrest ⊢
        exact hrest
      · -- files of two entries differ in the first name on the way to them
        refine (List.pairwise_map.mp hnames).imp fun hne => ?_
        intro path hpath hpath'
        simp only [List.map_map, List.mem_map, Function.comp_apply] at hpath hpath'
        obtain ⟨_, _, rfl⟩ := hpath
        obtain ⟨_, _, heq⟩ := hpath'
        exact hne (List.cons.inj heq).1.symm

end ContainerAudit.FileTree
